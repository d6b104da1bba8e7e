import DeterministicExchange.Engine.SessionSteps

/-!
# Session and engines commit together

A command that an engine has applied advances the session, one that was refused
changes neither, and a failure that an engine has observed fails the session and
ends the admission on all shards.
-/

namespace DeterministicExchange

open Machine Codec Router Session

variable {SHARDS ACCOUNTS RISK_ORDERS LEVELS ORDERS BATCH : ℕ}

namespace SessionSystem

variable {crc32c : Bytes → U32} {REPORTS EVENTS : ℕ} {JOURNAL_BATCH : ℕ → ℕ}
  {before system system' : SessionSystem SHARDS ACCOUNTS RISK_ORDERS LEVELS ORDERS BATCH}
  {command : Command} {request : Events.Request}

/-! ## Runs -/

/-- Every run returns and keeps the invariant. -/
theorem Sound.executes (hc : Capacities ACCOUNTS RISK_ORDERS LEVELS ORDERS)
    (hordinals : REPORTS + 1 < 2 ^ 16) (hbatch : REPORTS + 2 ≤ BATCH)
    (hworkers : ∀ shard : Fin SHARDS, 0 < JOURNAL_BATCH shard.val)
    (h : Sound crc32c REPORTS EVENTS system) (actions : List (SessionAction SHARDS)) :
    ∃ answers system', execute (SessionSystem.step crc32c REPORTS EVENTS JOURNAL_BATCH) system actions =
      .ok (answers, system') ∧ Sound crc32c REPORTS EVENTS system' := by
  apply execute_invariant actions _ h
  intro state hstate action _
  obtain ⟨reply, system', hstep, hsound, _⟩ := hstate.step hc hordinals hbatch hworkers action
  exact ⟨reply, system', hstep, hsound⟩

/-- A call that has returned did what it returned, whatever happened around its steps. -/
theorem Sound.returned (hc : Capacities ACCOUNTS RISK_ORDERS LEVELS ORDERS)
    (hordinals : REPORTS + 1 < 2 ^ 16) (hbatch : REPORTS + 2 ≤ BATCH)
    (hworkers : ∀ shard : Fin SHARDS, 0 < JOURNAL_BATCH shard.val)
    (h : Sound crc32c REPORTS EVENTS system) (hprogress : Progress before command system)
    {actions : List (SessionAction SHARDS)} {replies : List (Option SessionAnswer)} {answer : SessionAnswer}
    (hquiet : ∀ reply ∈ replies, reply = none)
    (hrun : execute (SessionSystem.step crc32c REPORTS EVENTS JOURNAL_BATCH) system actions =
      .ok (replies ++ [some answer], system')) :
    ∃ result, answer = .command result ∧ Returned before command result system' := by
  have hmoved (state : SessionSystem SHARDS ACCOUNTS RISK_ORDERS LEVELS ORDERS BATCH)
      (action : SessionAction SHARDS) (reply : Option SessionAnswer) state'
      (hpending : Sound crc32c REPORTS EVENTS state ∧ Progress before command state)
      (hstep : state.step crc32c REPORTS EVENTS JOURNAL_BATCH action = .ok (reply, state')) :
      Sound crc32c REPORTS EVENTS state' ∧ Moved before command (reply, state') := by
    obtain ⟨hsound, hgoing⟩ := hpending
    obtain ⟨_, _, hrun', hsound', hmoves⟩ := hsound.step hc hordinals hbatch hworkers action
    rw [hstep] at hrun'
    obtain ⟨rfl, rfl⟩ := Prod.mk.inj (Except.ok.inj hrun')
    exact ⟨hsound', hmoves before command hgoing⟩
  exact execute_returned (fun state action state' ↦ hmoved state action none state')
    (fun state action reply state' hpending hstep ↦
      (hmoved state action (some reply) state' hpending hstep).2)
    ⟨h, hprogress⟩ hquiet hrun

/-- What the call on a request has done when it returns. -/
theorem Sound.called (hc : Capacities ACCOUNTS RISK_ORDERS LEVELS ORDERS)
    (hordinals : REPORTS + 1 < 2 ^ 16) (hbatch : REPORTS + 2 ≤ BATCH)
    (hworkers : ∀ shard : Fin SHARDS, 0 < JOURNAL_BATCH shard.val)
    (h : Sound crc32c REPORTS EVENTS system) (hcall : system.call = .idle)
    {sequence : SequenceNumber} {now : U64} {actions : List (SessionAction SHARDS)}
    {replies : List (Option SessionAnswer)} {answer : SessionAnswer}
    (hquiet : ∀ reply ∈ replies, reply = none)
    (hrun : execute (SessionSystem.step crc32c REPORTS EVENTS JOURNAL_BATCH) system
      (.process sequence request now :: actions) = .ok (replies ++ [some answer], system')) :
    (∃ error, answer = .command (.error error) ∧ Kept system system') ∨
      ∃ command result, request.Denotes command ∧ answer = .command result ∧
        Returned system command result system' := by
  obtain ⟨reply, system₁, replies₁, hfirst, hrest, hreplies⟩ := of_execute_cons hrun
  have hprocess : system.process sequence request now = .ok (reply, system₁) := by
    rw [← hfirst]
    unfold SessionSystem.step
    rw [hcall]
  rcases h.process hcall sequence request now with
    ⟨error, hstep⟩ | ⟨command, hstep, hdenotes, hsound, hprogress⟩
  · rw [hstep] at hprocess
    obtain ⟨rfl, rfl⟩ := Prod.mk.inj (Except.ok.inj hprocess)
    cases replies with
    | nil =>
      obtain ⟨heq, rfl⟩ := List.cons.inj hreplies
      rw [eq_of_execute_nil hrest]
      exact .inl ⟨error, Option.some.inj heq, rfl, fun _ ↦ .refl _⟩
    | cons first replies =>
      have hnone := hquiet first List.mem_cons_self
      rw [hnone] at hreplies
      simp at hreplies
  · rw [hstep] at hprocess
    obtain ⟨rfl, rfl⟩ := Prod.mk.inj (Except.ok.inj hprocess)
    cases replies with
    | nil => simp at hreplies
    | cons first replies =>
      obtain ⟨_, rfl⟩ := List.cons.inj hreplies
      obtain ⟨result, hanswer, hreturned⟩ := hsound.returned hc hordinals hbatch hworkers hprogress
        (fun reply hmem ↦ hquiet reply (List.mem_cons_of_mem _ hmem)) hrest
      exact .inr ⟨command, result, hdenotes, hanswer, hreturned⟩

theorem Ended.executes (hc : Capacities ACCOUNTS RISK_ORDERS LEVELS ORDERS)
    (hordinals : REPORTS + 1 < 2 ^ 16) (hbatch : REPORTS + 2 ≤ BATCH)
    (hworkers : ∀ shard : Fin SHARDS, 0 < JOURNAL_BATCH shard.val)
    (h : Ended before system) (hsound : Sound crc32c REPORTS EVENTS system)
    (actions : List (SessionAction SHARDS)) :
    ∃ answers system', execute (SessionSystem.step crc32c REPORTS EVENTS JOURNAL_BATCH) system actions =
      .ok (answers, system') ∧ Ended before system' := by
  have hkeeps (state : SessionSystem SHARDS ACCOUNTS RISK_ORDERS LEVELS ORDERS BATCH)
      (hstate : Ended before state ∧ Sound crc32c REPORTS EVENTS state) (action : SessionAction SHARDS)
      (_ : action ∈ actions) : ∃ reply system',
        state.step crc32c REPORTS EVENTS JOURNAL_BATCH action = .ok (reply, system') ∧
          Ended before system' ∧ Sound crc32c REPORTS EVENTS system' := by
    obtain ⟨reply, system', hstep, hsound', _⟩ := hstate.2.step hc hordinals hbatch hworkers action
    obtain ⟨reply', system'', hstep', hended⟩ := hstate.1.step hstate.2 hworkers action
    rw [hstep] at hstep'
    obtain ⟨rfl, rfl⟩ := Prod.mk.inj (Except.ok.inj hstep')
    exact ⟨reply, system', hstep, hended, hsound'⟩
  obtain ⟨answers, system', hrun, hended, _⟩ := execute_invariant actions hkeeps ⟨h, hsound⟩
  exact ⟨answers, system', hrun, hended⟩

/-! ## What a call has committed -/

/-- Session and engines have committed together in a call that has returned `result`. -/
structure Together (crc32c : Bytes → U32)
    (before after : SessionSystem SHARDS ACCOUNTS RISK_ORDERS LEVELS ORDERS BATCH) (request : Events.Request)
    (result : Except SessionAdmissionError ShardId) : Prop where
  /-- The call succeeds exactly if one engine, and no other, has taken the command through. -/
  served : (∃ id, result = .ok id) ↔
    ∃ shard command, request.Denotes command ∧ Serves before after shard command
  journaled : ∀ shard command, Serves before after shard command → ∃ record,
    Recovery.Carries crc32c record command ∧
      (after.routed.engine shard).accepted = (before.routed.engine shard).accepted ++ [record]
  advanced : ∀ id, result = .ok id →
    after.session.nextSequence.val = before.session.nextSequence.val + 1
  refused : ∀ error, result = .error error →
    Untouched before after ∧ (after.session.state ≠ .failed → Kept before after)
  failed : ∀ shard, (before.routed.engine shard).failed = false →
    (after.routed.engine shard).failed = true → after.session.state = .failed

theorem not_serves_of_untouched {shard : Fin SHARDS} (h : Untouched before system) :
    ¬ Serves before system shard command := by
  rintro ⟨⟨⟨record, haccepted⟩, _⟩, _⟩
  rw [(h shard).accepted] at haccepted
  simp at haccepted

/-- Between calls, the record that an engine has taken is that of the command it has applied. -/
theorem Serves.journaled {shard : Fin SHARDS} (h : Serves before system shard command)
    (hbefore : Sound crc32c REPORTS EVENTS before) (hsound : Sound crc32c REPORTS EVENTS system)
    (hquiet : before.Quiet) (hquiet' : system.Quiet) : ∃ record, Recovery.Carries crc32c record command ∧
      (system.routed.engine shard).accepted = (before.routed.engine shard).accepted ++ [record] := by
  obtain ⟨record, haccepted⟩ := h.committed.accepted
  obtain ⟨_, _, hengine⟩ := hbefore.engines shard
  obtain ⟨_, _, hengine'⟩ := hsound.engines shard
  have hlength := (hengine.agreement (hquiet shard)).journaled.length_eq
  have hjournaled := (hengine'.agreement (hquiet' shard)).journaled.carries
  rw [haccepted, h.committed.applied] at hjournaled
  have hlast := List.forall₂_drop (before.routed.engine shard).accepted.length hjournaled
  rw [List.drop_left, hlength, List.drop_left] at hlast
  exact ⟨record, (List.forall₂_cons.mp hlast).1, haccepted⟩

theorem together_of_refused {error : SessionAdmissionError} (huntouched : Untouched before system)
    (hkept : system.session.state ≠ .failed → Kept before system) :
    Together crc32c before system request (.error error) := by
  refine ⟨⟨nofun, ?_⟩, ?_, nofun, fun _ _ ↦ ⟨huntouched, hkept⟩, fun shard hhealthy hfailed ↦ ?_⟩
  · rintro ⟨shard, other, _, hserves⟩
    exact absurd hserves (not_serves_of_untouched huntouched)
  · exact fun shard other hserves ↦ absurd hserves (not_serves_of_untouched huntouched)
  · by_contra hactive
    rw [((hkept hactive).engines shard).failed, hhealthy] at hfailed
    simp at hfailed

theorem Returned.together {result : Except SessionAdmissionError ShardId}
    (h : Returned before command result system) (hdenotes : request.Denotes command)
    (hjournaled : ∀ shard command, Serves before system shard command → ∃ record,
      Recovery.Carries crc32c record command ∧
        (system.routed.engine shard).accepted = (before.routed.engine shard).accepted ++ [record]) :
    Together crc32c before system request result := by
  cases result with
  | ok id =>
    obtain ⟨hnext, shard, _, hserves⟩ := h
    refine ⟨⟨fun _ ↦ ⟨shard, command, hdenotes, hserves⟩, fun _ ↦ ⟨id, rfl⟩⟩, hjournaled, fun _ _ ↦ hnext,
      nofun, fun other hhealthy hfailed ↦ ?_⟩
    have hsame : (system.routed.engine other).failed = (before.routed.engine other).failed := by
      by_cases heq : other = shard
      · exact heq ▸ hserves.committed.failed
      · exact (hserves.others other heq).failed
    rw [hsame, hhealthy] at hfailed
    simp at hfailed
  | error error => exact together_of_refused h.1 h.2

end SessionSystem

/-! ## Fresh session engines -/

/-- The builder is new, or was restored from a snapshot and a tail of the journal. -/
def EngineBuilder.Built (crc32c : Bytes → U32) (REPORTS : ℕ)
    (builder : EngineBuilder ACCOUNTS RISK_ORDERS LEVELS ORDERS) : Prop :=
  (∃ instrument accounts, EngineBuilder.new REPORTS instrument accounts = .ok (.ok builder)) ∨
    ∃ sha256 instrument snapshot tail,
      EngineBuilder.restore REPORTS crc32c sha256 instrument snapshot tail = .ok (.ok builder)

/-- The engine was built on fresh storage, and may have been in use since. -/
def EngineSystem.Reached (crc32c : Bytes → U32) (REPORTS EVENTS JOURNAL_BATCH : ℕ)
    (system : EngineSystem ACCOUNTS RISK_ORDERS LEVELS ORDERS BATCH) : Prop :=
  ∃ (builder : EngineBuilder ACCOUNTS RISK_ORDERS LEVELS ORDERS)
    (start : EngineSystem ACCOUNTS RISK_ORDERS LEVELS ORDERS BATCH) (actions : List EngineAction)
    (answers : List (Option (Except EngineError Unit))),
    builder.Built crc32c REPORTS ∧ EngineSystem.Starts REPORTS JOURNAL_BATCH builder start ∧
      execute (EngineSystem.step crc32c REPORTS EVENTS JOURNAL_BATCH) start actions = .ok (answers, system) ∧
      system.call = .idle

theorem EngineSystem.Reached.sound {crc32c : Bytes → U32} {REPORTS EVENTS JOURNAL_BATCH : ℕ}
    {system : EngineSystem ACCOUNTS RISK_ORDERS LEVELS ORDERS BATCH}
    (hc : IndexCapacities ACCOUNTS RISK_ORDERS LEVELS ORDERS)
    (h : system.Reached crc32c REPORTS EVENTS JOURNAL_BATCH) :
    0 < ORDERS ∧ REPORTS + 1 < 2 ^ 16 ∧ REPORTS + 2 ≤ BATCH ∧ 0 < JOURNAL_BATCH ∧
      ∃ initial transitions, system.Sound crc32c REPORTS EVENTS initial transitions := by
  obtain ⟨builder, start, actions, answers, hbuilt, hstart, hrun, _⟩ := h
  obtain ⟨hsized, hreachable⟩ : EngineBuilder.Sized ACCOUNTS RISK_ORDERS LEVELS ORDERS REPORTS ∧
      builder.gateway.Reachable := by
    rcases hbuilt with ⟨_, _, hnew⟩ | ⟨_, _, _, _, hrestore⟩
    · obtain ⟨hsized, hstarted⟩ := EngineBuilder.new_started hnew
      exact ⟨hsized, .start (.inl hstarted)⟩
    · exact EngineBuilder.restore_reachable hrestore
  have hcapacities : Capacities ACCOUNTS RISK_ORDERS LEVELS ORDERS :=
    ⟨hsized.orders, hc.book, hc.accounts, hc.reservations⟩
  obtain ⟨hordinals, hbatch, hworker, hsound, _⟩ := hstart.sound hcapacities hreachable crc32c EVENTS
  obtain ⟨answers', system', transitions, hrun', hsound', _⟩ :=
    hsound.executes hcapacities hordinals hbatch hworker actions
  rw [hrun] at hrun'
  obtain ⟨_, rfl⟩ := Prod.mk.inj (Except.ok.inj hrun')
  exact ⟨hsized.orders, hordinals, hbatch, hworker, _, transitions, hsound'⟩

theorem RoutedSystem.tryNew_eq_ok {table : RouteTable SHARDS}
    {engines : Vector (EngineSystem ACCOUNTS RISK_ORDERS LEVELS ORDERS BATCH) SHARDS}
    {routed : RoutedSystem SHARDS ACCOUNTS RISK_ORDERS LEVELS ORDERS BATCH}
    (h : tryNew table engines = .ok (.ok routed)) : routed = ⟨table, engines⟩ := by
  obtain ⟨checked, _, hrest⟩ := Run.bind_eq_ok.mp h
  cases checked with
  | error error => simp at hrest
  | ok _ => exact (Except.ok.inj (Except.ok.inj hrest)).symm

namespace SessionSystem

/-- A new session over routed engines, each of which is between two calls. -/
def Starts (crc32c : Bytes → U32) (REPORTS EVENTS : ℕ) (JOURNAL_BATCH : ℕ → ℕ)
    (system : SessionSystem SHARDS ACCOUNTS RISK_ORDERS LEVELS ORDERS BATCH) : Prop :=
  ∃ config routes table engines, RouteTable.tryNew routes = .ok (.ok table) ∧
    RoutedSystem.tryNew table engines = .ok (.ok system.routed) ∧ system = .new config system.routed ∧
    ∀ shard, (system.routed.engine shard).Reached crc32c REPORTS EVENTS (JOURNAL_BATCH shard.val)

theorem Starts.sound {crc32c : Bytes → U32} {REPORTS EVENTS : ℕ} {JOURNAL_BATCH : ℕ → ℕ}
    {system : SessionSystem SHARDS ACCOUNTS RISK_ORDERS LEVELS ORDERS BATCH}
    (hc : IndexCapacities ACCOUNTS RISK_ORDERS LEVELS ORDERS)
    (h : Starts crc32c REPORTS EVENTS JOURNAL_BATCH system) :
    Capacities ACCOUNTS RISK_ORDERS LEVELS ORDERS ∧ REPORTS + 1 < 2 ^ 16 ∧ REPORTS + 2 ≤ BATCH ∧
      (∀ shard : Fin SHARDS, 0 < JOURNAL_BATCH shard.val) ∧ Sound crc32c REPORTS EVENTS system := by
  obtain ⟨config, routes, table, engines, htable, hrouted, hsystem, hreached⟩ := h
  have hroutes := RouteTable.Sound.of_tryNew htable
  have hrouted' : system.routed.routes = table := by rw [RoutedSystem.tryNew_eq_ok hrouted]
  obtain ⟨horders, hordinals, hbatch, _⟩ := (hreached ⟨0, hroutes.positive⟩).sound hc
  refine ⟨⟨horders, hc.book, hc.accounts, hc.reservations⟩, hordinals, hbatch, fun shard ↦ ?_, ?_⟩
  · obtain ⟨_, _, _, hworker, _⟩ := (hreached shard).sound hc
    exact hworker
  · refine ⟨⟨routes, hrouted' ▸ hroutes⟩, ?_, fun shard ↦ ?_, ?_⟩
    · rw [hsystem]
      exact ⟨Nat.zero_le 1, fun _ ↦ rfl⟩
    · obtain ⟨_, _, _, _, hsound⟩ := (hreached shard).sound hc
      exact hsound
    · rw [hsystem]
      refine ⟨fun shard ↦ ?_, fun hfailed ↦ by simp [new, SessionStateMachine.new] at hfailed⟩
      obtain ⟨_, _, _, _, _, _, _, hcall⟩ := hreached shard
      exact hcall

end SessionSystem

/-- Session and engines commit together. In every interleaving of the calls of a session engine with the
consumers and the workers of its shards, every step returns, and the journal, the gateway and the event
stream of every shard agree between calls. A call on a command succeeds exactly if one shard, and no other,
has journaled and applied it, and the session is then one further; one that is refused without a failure of
the session changes nothing. A failure that an engine observes fails the session. A failed session has
closed the admission of every shard, and no command is applied any more. -/
theorem session_commits_with_engines (crc32c : Bytes → U32)
    (hc : IndexCapacities ACCOUNTS RISK_ORDERS LEVELS ORDERS) {REPORTS EVENTS : ℕ} {JOURNAL_BATCH : ℕ → ℕ}
    {start : SessionSystem SHARDS ACCOUNTS RISK_ORDERS LEVELS ORDERS BATCH}
    (hstart : start.Starts crc32c REPORTS EVENTS JOURNAL_BATCH) (actions : List (SessionAction SHARDS)) :
    ∃ answers system,
      execute (SessionSystem.step crc32c REPORTS EVENTS JOURNAL_BATCH) start actions =
        .ok (answers, system) ∧
      (system.call = .idle →
        (∀ shard, ∃ initial transitions,
          (system.routed.engine shard).Agreement crc32c initial transitions) ∧
        (∀ sequence request now later replies answer system', (∀ reply ∈ replies, reply = none) →
          execute (SessionSystem.step crc32c REPORTS EVENTS JOURNAL_BATCH) system
              (.process sequence request now :: later) = .ok (replies ++ [some answer], system') →
          system'.call = .idle ∧ ∃ result, answer = .command result ∧
            SessionSystem.Together crc32c system system' request result) ∧
        (system.session.state = .failed → system.Closed ∧ ∀ later, ∃ replies system',
          execute (SessionSystem.step crc32c REPORTS EVENTS JOURNAL_BATCH) system later =
            .ok (replies, system') ∧ SessionSystem.Untouched system system')) := by
  obtain ⟨hcapacities, hordinals, hbatch, hworkers, hsound⟩ := hstart.sound hc
  obtain ⟨answers, system, hrun, hsound'⟩ := hsound.executes hcapacities hordinals hbatch hworkers actions
  refine ⟨answers, system, hrun, fun hcall ↦ ⟨fun shard ↦ ?_, ?_, fun hfailed ↦ ?_⟩⟩
  · obtain ⟨initial, transitions, hengine⟩ := hsound'.engines shard
    exact ⟨initial, transitions, hengine.agreement (hsound'.quiet hcall shard)⟩
  · intro sequence request now later replies answer system' hquiet hcalled
    obtain ⟨replies', system'', hrun', hsound''⟩ := hsound'.executes hcapacities hordinals hbatch hworkers
      (.process sequence request now :: later)
    rw [hcalled] at hrun'
    obtain ⟨rfl, rfl⟩ := Prod.mk.inj (Except.ok.inj hrun')
    obtain ⟨_, _, hlast⟩ := last_of_execute hcalled
    have hidle := SessionSystem.idle_of_reply hlast
    have hjournaled (shard : Fin SHARDS) (command : Command)
        (hserves : SessionSystem.Serves system system' shard command) :=
      hserves.journaled hsound' hsound'' (hsound'.quiet hcall) (hsound''.quiet hidle)
    refine ⟨hidle, ?_⟩
    rcases hsound'.called hcapacities hordinals hbatch hworkers hcall hquiet hcalled with
      ⟨error, hanswer, hkept⟩ | ⟨command, result, hdenotes, hanswer, hreturned⟩
    · exact ⟨_, hanswer, SessionSystem.together_of_refused hkept.untouched fun _ ↦ hkept⟩
    · exact ⟨result, hanswer, hreturned.together hdenotes hjournaled⟩
  · have hclosed := hsound'.closed hcall hfailed
    have hended : SessionSystem.Ended system system :=
      ⟨hfailed, hclosed, fun shard ↦ ⟨rfl, rfl, rfl, rfl⟩, by rw [hcall]; trivial⟩
    refine ⟨hclosed, fun later ↦ ?_⟩
    obtain ⟨replies, system', hlater, hended'⟩ :=
      hended.executes hcapacities hordinals hbatch hworkers hsound' later
    exact ⟨replies, system', hlater, hended'.untouched⟩

namespace SessionSystem

/-! ## One shard

The worker fails after ten bytes of the first record; the next command finds the shard failed. -/

theorem sampleTable_returns :
    ((RouteTable.tryNew (.replicate 1 ⟨1, 0⟩) : Run (Except RouteTableError (RouteTable 1))).toOption.bind
      Except.toOption).isSome = true := by
  decide

def sampleTable : RouteTable 1 :=
  ((RouteTable.tryNew (.replicate 1 ⟨1, 0⟩) : Run (Except RouteTableError (RouteTable 1))).toOption.bind
    Except.toOption).get sampleTable_returns

def sampleEngines : Vector (EngineSystem 1 1 1 1 3) 1 :=
  #v[EngineSystem.fresh 3 EngineBuilder.sampleBuilder .everyBatch]

theorem sampleRouted_returns :
    ((RoutedSystem.tryNew sampleTable sampleEngines).toOption.bind Except.toOption).isSome = true := by
  decide

def sampleRouted : RoutedSystem 1 1 1 1 1 3 :=
  ((RoutedSystem.tryNew sampleTable sampleEngines).toOption.bind Except.toOption).get sampleRouted_returns

def sampleStart : SessionSystem 1 1 1 1 1 3 := .new ⟨100, 50⟩ sampleRouted

theorem sampleStart_starts : sampleStart.Starts (fun _ ↦ 0) 1 1 (fun _ ↦ 1) := by
  have hrouted : RoutedSystem.tryNew sampleTable sampleEngines = .ok (.ok sampleRouted) :=
    Run.eq_ok_ok_get sampleRouted_returns
  refine ⟨_, _, sampleTable, sampleEngines, Run.eq_ok_ok_get sampleTable_returns,
    hrouted, rfl, fun shard ↦ ?_⟩
  obtain rfl : shard = 0 := Subsingleton.elim _ _
  have hengine : sampleStart.routed.engine 0 =
      EngineSystem.fresh 3 EngineBuilder.sampleBuilder .everyBatch := by
    show sampleRouted.engine 0 = _
    rw [RoutedSystem.tryNew_eq_ok hrouted]
    rfl
  rw [hengine]
  exact ⟨EngineBuilder.sampleBuilder, _, [], [], .inl ⟨_, _, EngineBuilder.sampleBuilder_new⟩,
    EngineSystem.fresh_starts (by decide) (show 1 + 2 ≤ 3 by decide) one_ne_zero _ _, rfl, rfl⟩

def sampleShard : Fin 1 := ⟨0, Nat.one_pos⟩

def sampleActions : List (SessionAction 1) :=
  [.handleSession .connect 0, .handleSession .logonSent 0, .handleSession (.logonAccepted 1) 0,
    .process 1 (.command Gateway.sampleOrder) 1, .advance, .advance, .advance, .advance, .advance, .advance,
    .persist sampleShard .drainBatch, .persist sampleShard .advance, .persist sampleShard .advance,
    .persist sampleShard (.write (.failed 10)),
      .process 2 (.command (Gateway.sampleCancel 2)) 2, .advance, .advance,
    .advance]

theorem sampleActions_failed :
    ((execute (step (fun _ ↦ 0) 1 1 (fun _ ↦ 1)) sampleStart sampleActions).toOption.map fun outcome ↦
      (match outcome.2.call with | .idle => true | _ => false, outcome.2.session.state,
        (outcome.2.routed.engine 0).accepted.length)) = some (true, .failed, 1) := by
  decide

end SessionSystem

theorem session_commits_with_engines_sample :
    ∃ (answers : List (Option SessionAnswer)) (system : SessionSystem 1 1 1 1 1 3),
      execute (SessionSystem.step (fun _ ↦ 0) 1 1 (fun _ ↦ 1)) SessionSystem.sampleStart
        SessionSystem.sampleActions = .ok (answers, system) ∧
      system.session.state = .failed ∧ (system.routed.engine 0).accepted.length = 1 ∧ system.Closed := by
  obtain ⟨answers, system, hrun, hidle⟩ := session_commits_with_engines (fun _ ↦ 0)
    ⟨by decide, by decide, by decide⟩ SessionSystem.sampleStart_starts SessionSystem.sampleActions
  have hend := SessionSystem.sampleActions_failed
  rw [hrun] at hend
  obtain ⟨hcall, hrest⟩ := Prod.mk.inj (Option.some.inj hend)
  obtain ⟨hfailed, hlength⟩ := Prod.mk.inj hrest
  obtain ⟨_, _, hended⟩ := hidle (by
    cases hphase : system.call with
    | idle => rfl
    | scanning _ _ _ _ | serving _ _ _ | checking _ _ _ | stopping _ _ => simp [hphase] at hcall)
  exact ⟨answers, system, hrun, hfailed, hlength, (hended hfailed).1⟩

end DeterministicExchange
