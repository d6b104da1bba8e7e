import DeterministicExchange.Engine.Session
import DeterministicExchange.Session.Sequencing

/-!
# Steps of a session engine

What the session and the engines rely on inside a call, and how far each step
carries the call: an engine that serves the command goes on with its own call,
and every other engine is left alone.
-/

namespace DeterministicExchange

open Machine Codec Router Session

variable {SHARDS ACCOUNTS RISK_ORDERS LEVELS ORDERS BATCH : ℕ}

/-! ## Calls of one engine -/

namespace EngineSystem

variable {crc32c : Bytes → U32} {REPORTS EVENTS JOURNAL_BATCH : ℕ}
  {before system system' : EngineSystem ACCOUNTS RISK_ORDERS LEVELS ORDERS BATCH}

theorem Aside.refl (system : EngineSystem ACCOUNTS RISK_ORDERS LEVELS ORDERS BATCH) : Aside system system :=
  ⟨.refl system, rfl, rfl, id⟩

/-- A call may be said to have begun in any state that nothing was changed in. -/
theorem Moved.of_unchanged {request : Events.Request}
    {middle : EngineSystem ACCOUNTS RISK_ORDERS LEVELS ORDERS BATCH}
    (hkept : Unchanged before middle)
    {outcome : Option (Except EngineError Unit) × EngineSystem ACCOUNTS RISK_ORDERS LEVELS ORDERS BATCH}
    (h : Moved middle request outcome) : Moved before request outcome := by
  obtain ⟨reply, system⟩ := outcome
  cases reply with
  | none =>
    show Progress before request system
    have hprogress : Progress middle request system := h
    unfold Progress at hprogress ⊢
    cases hcall : system.call with
    | idle => simp only [hcall] at hprogress
    | admitting _ _ | enqueueing _ _ =>
      simp only [hcall] at hprogress
      exact ⟨hprogress.1, hkept.trans hprogress.2⟩
    | applying _ =>
      simp only [hcall] at hprogress
      rw [← hkept.failed, ← hkept.accepted, ← hkept.published, ← hkept.applied]
      exact hprogress
    | closing _ =>
      simp only [hcall] at hprogress
      exact hkept.toUntouched.trans hprogress
  | some result =>
    show Returned before request result system
    have hreturned : Returned middle request result system := h
    cases result with
    | ok _ =>
      obtain ⟨command, hdenotes, haccepted, happlied, hpublished, hfailed, hwriter⟩ := hreturned
      rw [hkept.accepted] at haccepted
      rw [hkept.applied] at happlied
      rw [hkept.published] at hpublished
      exact ⟨command, hdenotes, haccepted, happlied, hpublished, hfailed.trans hkept.failed, hwriter⟩
    | error error =>
      obtain ⟨huntouched, hfatal, hsurvivable⟩ := hreturned
      exact ⟨hkept.toUntouched.trans huntouched, hfatal, fun h' ↦ hkept.trans (hsurvivable h')⟩

/-- The answer of a call is its end. -/
theorem idle_of_reply {action : EngineAction} {result : Except EngineError Unit}
    (h : system.step crc32c REPORTS EVENTS JOURNAL_BATCH action = .ok (some result, system')) :
    system'.call = .idle := by
  cases action with
  | call request =>
    have hrun : system.request request = .ok (some result, system') := h
    unfold EngineSystem.request at hrun
    split at hrun
    · next hcall =>
      obtain ⟨resolved, _, hrest⟩ := Run.bind_eq_ok.mp hrun
      cases resolved with
      | error error =>
        obtain ⟨_, rfl⟩ := Prod.mk.inj (Except.ok.inj hrest)
        exact hcall
      | ok resolved =>
        have hbegin : system.begin resolved.1 resolved.2 = (some result, system') := Except.ok.inj hrest
        unfold EngineSystem.begin at hbegin
        split at hbegin
        · obtain ⟨_, rfl⟩ := Prod.mk.inj hbegin
          exact hcall
        split at hbegin
        · simp at hbegin
        split at hbegin
        · obtain ⟨_, rfl⟩ := Prod.mk.inj hbegin
          exact hcall
        split at hbegin
        · obtain ⟨_, rfl⟩ := Prod.mk.inj hbegin
          exact hcall
        split at hbegin <;> simp at hbegin
    · simp at hrun
  | stopAdmission => simp [EngineSystem.step] at h
  | pop =>
    obtain ⟨_, _, hrest⟩ := Run.bind_eq_ok.mp h
    simp at hrest
  | persist turn => simp [EngineSystem.step] at h
  | advance =>
    have hrun : system.advance crc32c REPORTS EVENTS = .ok (some result, system') := h
    unfold EngineSystem.advance at hrun
    split at hrun
    · simp at hrun
    · obtain ⟨⟨reply, events⟩, _, hrest⟩ := Run.bind_eq_ok.mp hrun
      have hadmitted := Except.ok.inj hrest
      unfold EngineSystem.admitted at hadmitted
      split at hadmitted
      · simp at hadmitted
      · obtain ⟨_, rfl⟩ := Prod.mk.inj hadmitted
        rfl
      · simp at hadmitted
    · have henqueued := Except.ok.inj hrun
      unfold EngineSystem.enqueued at henqueued
      split at henqueued
      · obtain ⟨_, rfl⟩ := Prod.mk.inj henqueued
        rfl
      · simp at henqueued
      · obtain ⟨_, rfl⟩ := Prod.mk.inj henqueued
        rfl
    · obtain ⟨⟨reply, events⟩, _, hrest⟩ := Run.bind_eq_ok.mp hrun
      have hprocessed := Except.ok.inj hrest
      unfold EngineSystem.processed at hprocessed
      split at hprocessed
      · simp at hprocessed
      · simp at hprocessed
      · obtain ⟨_, rfl⟩ := Prod.mk.inj hprocessed
        rfl
    · obtain ⟨_, rfl⟩ := Prod.mk.inj (Except.ok.inj hrun)
      rfl

end EngineSystem

/-! ## The invariant -/

namespace SessionSystem

/-- No engine is inside a call. -/
def Quiet (system : SessionSystem SHARDS ACCOUNTS RISK_ORDERS LEVELS ORDERS BATCH) : Prop :=
  ∀ shard, (system.routed.engine shard).call = .idle

/-- The admission of every shard is closed. -/
def Closed (system : SessionSystem SHARDS ACCOUNTS RISK_ORDERS LEVELS ORDERS BATCH) : Prop :=
  ∀ shard, (system.routed.engine shard).journal.writer = none

/-- What the call that is going on relies on. -/
def Engaged (system : SessionSystem SHARDS ACCOUNTS RISK_ORDERS LEVELS ORDERS BATCH) : Prop :=
  match system.call with
  | .idle | .scanning .. => system.Quiet ∧ (system.session.state = .failed → system.Closed)
  | .serving id staged _ => staged.Counted ∧ staged.state ≠ .failed ∧ system.session.state ≠ .failed ∧
      ∃ shard : Fin SHARDS, shard.val = id.val ∧
        (∃ before request, EngineSystem.Progress before request (system.routed.engine shard)) ∧
        ∀ other, other ≠ shard → (system.routed.engine other).call = .idle
  | .checking id _ _ => system.Quiet ∧ system.session.state ≠ .failed ∧
      ∃ shard : Fin SHARDS, shard.val = id.val
  | .stopping rest _ => system.Quiet ∧
      ∀ shard, shard ∉ rest → (system.routed.engine shard).journal.writer = none

structure Sound (crc32c : Bytes → U32) (REPORTS EVENTS : ℕ)
    (system : SessionSystem SHARDS ACCOUNTS RISK_ORDERS LEVELS ORDERS BATCH) : Prop where
  routes : ∃ routes, system.routed.routes.Sound routes
  counted : system.session.Counted
  engines : ∀ shard, ∃ initial transitions,
    (system.routed.engine shard).Sound crc32c REPORTS EVENTS initial transitions
  engaged : system.Engaged

/-! ## Calls and what they change -/

/-- One engine has taken the command through, and the others have done nothing. -/
structure Serves (before after : SessionSystem SHARDS ACCOUNTS RISK_ORDERS LEVELS ORDERS BATCH)
    (shard : Fin SHARDS) (command : Command) : Prop where
  committed : (before.routed.engine shard).Committed (after.routed.engine shard) command
  others : ∀ other, other ≠ shard → (before.routed.engine other).Unchanged (after.routed.engine other)

/-- Neither the session nor any engine has changed. -/
structure Kept (before after : SessionSystem SHARDS ACCOUNTS RISK_ORDERS LEVELS ORDERS BATCH) : Prop where
  session : after.session = before.session
  engines : ∀ shard, (before.routed.engine shard).Unchanged (after.routed.engine shard)

/-- No engine has journaled, applied or published anything. -/
def Untouched (before after : SessionSystem SHARDS ACCOUNTS RISK_ORDERS LEVELS ORDERS BATCH) : Prop :=
  ∀ shard, (before.routed.engine shard).Untouched (after.routed.engine shard)

/-- What a call on the command that began in `before` has done when it returns. -/
def Returned (before : SessionSystem SHARDS ACCOUNTS RISK_ORDERS LEVELS ORDERS BATCH) (command : Command)
    (result : Except SessionAdmissionError ShardId)
    (after : SessionSystem SHARDS ACCOUNTS RISK_ORDERS LEVELS ORDERS BATCH) : Prop :=
  match result with
  | .ok id => after.session.nextSequence.val = before.session.nextSequence.val + 1 ∧
      ∃ shard : Fin SHARDS, shard.val = id.val ∧ Serves before after shard command
  | .error _ => Untouched before after ∧ (after.session.state ≠ .failed → Kept before after)

/-- How far the call on the command that began in `before` has got. -/
def Progress (before : SessionSystem SHARDS ACCOUNTS RISK_ORDERS LEVELS ORDERS BATCH) (command : Command)
    (system : SessionSystem SHARDS ACCOUNTS RISK_ORDERS LEVELS ORDERS BATCH) : Prop :=
  match system.call with
  | .idle => False
  | .scanning _ _ other _ => other = command ∧ Kept before system
  | .serving id staged _ => system.session = before.session ∧
      staged.nextSequence.val = before.session.nextSequence.val + 1 ∧
      ∃ shard : Fin SHARDS, shard.val = id.val ∧
        EngineSystem.Progress (before.routed.engine shard) (.command command) (system.routed.engine shard) ∧
        ∀ other, other ≠ shard → (before.routed.engine other).Unchanged (system.routed.engine other)
  | .checking id error _ => system.session = before.session ∧
      ∃ shard : Fin SHARDS, shard.val = id.val ∧
        EngineSystem.Returned (before.routed.engine shard) (.command command) (.error error)
          (system.routed.engine shard) ∧
        ∀ other, other ≠ shard → (before.routed.engine other).Unchanged (system.routed.engine other)
  | .stopping _ answer => (∃ error, answer = .command (.error error)) ∧ system.session.state = .failed ∧
      Untouched before system

/-- The state after a step of a call, whether it returns or not. -/
def Moved (before : SessionSystem SHARDS ACCOUNTS RISK_ORDERS LEVELS ORDERS BATCH) (command : Command) :
    Option SessionAnswer × SessionSystem SHARDS ACCOUNTS RISK_ORDERS LEVELS ORDERS BATCH → Prop
  | (none, system) => Progress before command system
  | (some answer, system) => ∃ result, answer = .command result ∧ Returned before command result system

/-- A step that returns, keeps the invariant, and carries the call going on further. -/
def Advances (crc32c : Bytes → U32) (REPORTS EVENTS : ℕ)
    (system : SessionSystem SHARDS ACCOUNTS RISK_ORDERS LEVELS ORDERS BATCH)
    (run : Run (Option SessionAnswer × SessionSystem SHARDS ACCOUNTS RISK_ORDERS LEVELS
      ORDERS BATCH)) : Prop :=
  ∃ reply system', run = .ok (reply, system') ∧ Sound crc32c REPORTS EVENTS system' ∧
    ∀ before command, Progress before command system → Moved before command (reply, system')

section Steps

variable {crc32c : Bytes → U32} {REPORTS EVENTS : ℕ} {JOURNAL_BATCH : ℕ → ℕ}
  {before system system' : SessionSystem SHARDS ACCOUNTS RISK_ORDERS LEVELS ORDERS BATCH}
  {command : Command}

theorem Kept.untouched (h : Kept before system) :
    Untouched before system := fun shard ↦ (h.engines shard).toUntouched

theorem Sound.quiet (h : Sound crc32c REPORTS EVENTS system) (hcall : system.call = .idle) :
    system.Quiet := by
  have hengaged := h.engaged
  unfold Engaged at hengaged
  simp only [hcall] at hengaged
  exact hengaged.1

theorem Sound.closed (h : Sound crc32c REPORTS EVENTS system) (hcall : system.call = .idle)
    (hfailed : system.session.state = .failed) : system.Closed := by
  have hengaged := h.engaged
  unfold Engaged at hengaged
  simp only [hcall] at hengaged
  exact hengaged.2 hfailed

theorem Sound.engines_place (h : Sound crc32c REPORTS EVENTS system) {shard : Fin SHARDS}
    {engine : EngineSystem ACCOUNTS RISK_ORDERS LEVELS ORDERS BATCH}
    (hengine : ∃ initial transitions, engine.Sound crc32c REPORTS EVENTS initial transitions)
    (other : Fin SHARDS) : ∃ initial transitions,
      ((system.routed.place shard engine).engine other).Sound crc32c REPORTS EVENTS initial transitions :=
  RoutedSystem.forall_place (fun _ engine ↦ ∃ initial transitions,
    engine.Sound crc32c REPORTS EVENTS initial transitions) hengine (fun other _ ↦ h.engines other) other

/-! ## The session machine -/

theorem handle_fail (machine : SessionStateMachine) (now : U64) :
    (machine.handle .fail now).2 = { machine.reset with state := .failed } := by
  unfold SessionStateMachine.handle
  cases machine.state <;> rfl

theorem counted_failed (machine : SessionStateMachine) :
    ({ machine.reset with state := .failed } : SessionStateMachine).Counted :=
  ⟨Nat.zero_le 1, fun h ↦ by simp at h⟩

/-- A command is staged only in a session that has not failed. -/
theorem handle_command_cases (machine : SessionStateMachine) (sequence : SequenceNumber) (now : U64) :
    (∃ error, machine.handle (.command sequence) now = (.error error, machine)) ∨
      ∃ transition staged, machine.handle (.command sequence) now = (.ok transition, staged) ∧
        machine.state ≠ .failed ∧ staged.state ≠ .failed ∧
        staged.nextSequence.val = machine.nextSequence.val + 1 ∧ (machine.Counted → staged.Counted) := by
  have hanswers := machine.handle_answers (.command sequence) now
  rcases hhandle : machine.handle (.command sequence) now with ⟨result, staged⟩
  rw [hhandle] at hanswers
  cases result with
  | error error =>
    obtain rfl : staged = machine := hanswers
    exact .inl ⟨error, rfl⟩
  | ok transition =>
    obtain ⟨_, hmoves⟩ := hanswers
    obtain ⟨hallows, hactive, _, hnext⟩ := hmoves.of_command
    refine .inr ⟨transition, staged, rfl, ?_, by simp [hactive], hnext, hmoves.counted⟩
    intro hfailed
    simp [SessionStateMachine.allowsCommands, hfailed] at hallows

/-! ## Steps of consumers and workers -/

/-- A step beside the call going on. -/
structure Beside (system system' : SessionSystem SHARDS ACCOUNTS RISK_ORDERS LEVELS ORDERS BATCH) : Prop where
  session : system'.session = system.session
  call : system'.call = system.call
  engines : ∀ shard, (system.routed.engine shard).Aside (system'.routed.engine shard)

theorem Beside.kept (h : Beside system system') (hkept : Kept before system) : Kept before system' :=
  ⟨h.session.trans hkept.session, fun shard ↦ (hkept.engines shard).trans (h.engines shard).toUnchanged⟩

theorem Beside.untouched (h : Beside system system') (huntouched : Untouched before system) :
    Untouched before system' :=
  fun shard ↦ (huntouched shard).trans (h.engines shard).toUntouched

theorem Beside.quiet (h : Beside system system') (hquiet : system.Quiet) : system'.Quiet :=
  fun shard ↦ (h.engines shard).call.trans (hquiet shard)

theorem Beside.engaged (h : Beside system system') (hengaged : system.Engaged) : system'.Engaged := by
  unfold Engaged at hengaged ⊢
  rw [h.call, h.session]
  cases hcall : system.call with
  | idle | scanning _ _ _ _ =>
    simp only [hcall] at hengaged
    exact ⟨h.quiet hengaged.1, fun hfailed shard ↦ (h.engines shard).writer.trans (hengaged.2 hfailed shard)⟩
  | serving id staged now =>
    simp only [hcall] at hengaged
    obtain ⟨hcounted, hstaged, hsession, shard, hid, ⟨first, request, hprogress⟩, hothers⟩ := hengaged
    exact ⟨hcounted, hstaged, hsession, shard, hid, ⟨first, request, (h.engines shard).progress hprogress⟩,
      fun other hne ↦ (h.engines other).call.trans (hothers other hne)⟩
  | checking id error now =>
    simp only [hcall] at hengaged
    exact ⟨h.quiet hengaged.1, hengaged.2⟩
  | stopping rest answer =>
    simp only [hcall] at hengaged
    exact ⟨h.quiet hengaged.1, fun shard hmem ↦ (h.engines shard).writer.trans (hengaged.2 shard hmem)⟩

theorem Beside.returned {shard : Fin SHARDS} {error : EngineError} {request : Events.Request}
    (h : Beside system system')
    (hreturned : EngineSystem.Returned (before.routed.engine shard) request (.error error)
      (system.routed.engine shard)) :
    EngineSystem.Returned (before.routed.engine shard) request (.error error)
      (system'.routed.engine shard) := by
  obtain ⟨huntouched, hfatal, hsurvivable⟩ := hreturned
  have haside := h.engines shard
  exact ⟨huntouched.trans haside.toUntouched,
    fun h' ↦ ⟨haside.failed.trans (hfatal h').1, haside.writer.trans (hfatal h').2⟩,
    fun h' ↦ (hsurvivable h').trans haside.toUnchanged⟩

theorem Beside.progress (h : Beside system system') (hprogress : Progress before command system) :
    Progress before command system' := by
  unfold Progress at hprogress ⊢
  rw [h.call]
  cases hcall : system.call with
  | idle => simp only [hcall] at hprogress
  | scanning _ _ _ _ =>
    simp only [hcall] at hprogress
    exact ⟨hprogress.1, h.kept hprogress.2⟩
  | serving id staged now =>
    simp only [hcall] at hprogress
    obtain ⟨hsession, hnext, shard, hid, hserves, hothers⟩ := hprogress
    exact ⟨h.session.trans hsession, hnext, shard, hid, (h.engines shard).progress hserves,
      fun other hne ↦ (hothers other hne).trans (h.engines other).toUnchanged⟩
  | checking id error now =>
    simp only [hcall] at hprogress
    obtain ⟨hsession, shard, hid, hreturned, hothers⟩ := hprogress
    exact ⟨h.session.trans hsession, shard, hid, h.returned hreturned,
      fun other hne ↦ (hothers other hne).trans (h.engines other).toUnchanged⟩
  | stopping rest answer =>
    simp only [hcall] at hprogress
    exact ⟨hprogress.1, (congrArg SessionStateMachine.state h.session).trans hprogress.2.1,
      h.untouched hprogress.2.2⟩

/-- What one shard does on its own is a step beside the session. -/
theorem Sound.beside (h : Sound crc32c REPORTS EVENTS system) {shard : Fin SHARDS} {action : EngineAction}
    (hstep : ∀ {initial transitions},
      (system.routed.engine shard).Sound crc32c REPORTS EVENTS initial transitions →
      ∃ engine, (system.routed.engine shard).step crc32c REPORTS EVENTS (JOURNAL_BATCH shard.val) action =
          .ok (none, engine) ∧
        engine.Sound crc32c REPORTS EVENTS initial transitions ∧
        (system.routed.engine shard).Aside engine) :
    ∃ system', system.aside crc32c REPORTS EVENTS JOURNAL_BATCH shard action = .ok (none, system') ∧
      Sound crc32c REPORTS EVENTS system' ∧ Beside system system' := by
  obtain ⟨initial, transitions, hengine⟩ := h.engines shard
  obtain ⟨engine, hrun, hsound, haside⟩ := hstep hengine
  have hbeside : Beside system { system with routed := system.routed.place shard engine } := by
    refine ⟨rfl, rfl, ?_⟩
    apply RoutedSystem.forall_place (fun other engine ↦ (system.routed.engine other).Aside engine) haside
    exact fun other _ ↦ .refl _
  refine ⟨{ system with routed := system.routed.place shard engine }, ?_,
    ⟨h.routes, h.counted, ?_, hbeside.engaged h.engaged⟩, hbeside⟩
  · unfold aside
    simp only [RoutedSystem.step_eq_place hrun, Run.ok_bind]
    rfl
  · exact h.engines_place ⟨_, _, hsound⟩

/-! ## Steps of a call -/

/-- The session fails, and the admission of all shards is about to end. -/
theorem Sound.fail (h : Sound crc32c REPORTS EVENTS system) (hquiet : system.Quiet)
    (error : RoutedEngineError)
    (now : U64) : Sound crc32c REPORTS EVENTS (system.fail error now) ∧
      ∀ before command, Untouched before system → Progress before command (system.fail error now) := by
  unfold SessionSystem.fail
  rw [handle_fail]
  refine ⟨⟨h.routes, counted_failed _, h.engines, hquiet, ?_⟩, fun before command huntouched ↦
    ⟨⟨_, rfl⟩, rfl, huntouched⟩⟩
  exact fun shard hmem ↦ absurd (List.mem_finRange shard) hmem

theorem Sound.scanning (h : Sound crc32c REPORTS EVENTS system) {route : InstrumentRoute}
    {rest : List InstrumentRoute} {sequence : SequenceNumber} {other : Command} {now : U64}
    (hcall : system.call = .scanning (route :: rest) sequence other now) :
    Advances crc32c REPORTS EVENTS system (system.advance crc32c REPORTS EVENTS JOURNAL_BATCH) := by
  have hengaged := h.engaged
  unfold Engaged at hengaged
  simp only [hcall] at hengaged
  unfold SessionSystem.advance
  simp only [hcall]
  split
  · obtain ⟨hsound, hprogress⟩ := h.fail hengaged.1 (.engine route.shardId .persistenceFailed) now
    refine ⟨none, _, rfl, hsound, fun before command hscanned ↦ ?_⟩
    unfold Progress at hscanned
    simp only [hcall] at hscanned
    exact hprogress before command hscanned.2.untouched
  · refine ⟨none, _, rfl, ⟨h.routes, h.counted, h.engines, hengaged⟩, fun before command hscanned ↦ ?_⟩
    unfold Progress at hscanned
    simp only [hcall] at hscanned
    exact ⟨hscanned.1, hscanned.2.session, hscanned.2.engines⟩

/-- The engine that serves the command has made a step. -/
theorem Sound.served (h : Sound crc32c REPORTS EVENTS system) {shard : Fin SHARDS} {id : ShardId}
    (hid : shard.val = id.val) {reply : Option (Except EngineError Unit)}
    {engine : EngineSystem ACCOUNTS RISK_ORDERS LEVELS ORDERS BATCH}
    (hengine : ∃ initial transitions, engine.Sound crc32c REPORTS EVENTS initial transitions)
    {staged : SessionStateMachine} (hcounted : staged.Counted) (hstaged : staged.state ≠ .failed)
    (hsession : system.session.state ≠ .failed)
    (hmoved : ∃ first request, EngineSystem.Moved first request (reply, engine))
    (hidle : ∀ result, reply = some result → engine.call = .idle)
    (hothers : ∀ other, other ≠ shard → (system.routed.engine other).call = .idle) (now : U64) :
    Sound crc32c REPORTS EVENTS
        (({ system with routed := system.routed.place shard engine }).served id staged now reply).2 ∧
      ∀ before command, system.session = before.session →
        staged.nextSequence.val = before.session.nextSequence.val + 1 →
        EngineSystem.Moved (before.routed.engine shard) (.command command) (reply, engine) →
        (∀ other, other ≠ shard → (before.routed.engine other).Unchanged (system.routed.engine other)) →
        Moved before command
          (({ system with routed := system.routed.place shard engine }).served id staged now reply) := by
  have hquiet (hcall : engine.call = .idle) (other : Fin SHARDS) :
      ((system.routed.place shard engine).engine other).call = .idle :=
    RoutedSystem.forall_place (fun _ engine ↦ engine.call = .idle) hcall hothers other
  have hunchanged (before : SessionSystem SHARDS ACCOUNTS RISK_ORDERS LEVELS ORDERS BATCH)
      (hkept : ∀ other, other ≠ shard → (before.routed.engine other).Unchanged (system.routed.engine other))
      (other : Fin SHARDS) (hne : other ≠ shard) :
      (before.routed.engine other).Unchanged ((system.routed.place shard engine).engine other) := by
    rw [RoutedSystem.engine_place_of_ne hne]
    exact hkept other hne
  cases reply with
  | none =>
    obtain ⟨first, request, hprogress⟩ := hmoved
    refine ⟨⟨h.routes, h.counted, h.engines_place hengine, hcounted, hstaged, hsession, shard, hid,
      ⟨first, request, ?_⟩, ?_⟩, fun before command hsame hnext hserves hkept ↦
        ⟨hsame, hnext, shard, hid, ?_, hunchanged before hkept⟩⟩
    · show EngineSystem.Progress first request ((system.routed.place shard engine).engine shard)
      rw [RoutedSystem.engine_place_self]
      exact hprogress
    · intro other hne
      show ((system.routed.place shard engine).engine other).call = .idle
      rw [RoutedSystem.engine_place_of_ne hne]
      exact hothers other hne
    · show EngineSystem.Progress _ _ ((system.routed.place shard engine).engine shard)
      rw [RoutedSystem.engine_place_self]
      exact hserves
  | some result =>
    cases result with
    | ok _ =>
      refine ⟨⟨h.routes, hcounted, h.engines_place hengine, hquiet (hidle _ rfl),
        fun hfailed ↦ absurd hfailed hstaged⟩, ?_⟩
      rintro before command hsame hnext ⟨_, rfl, hcommitted⟩ hkept
      refine ⟨.ok id, rfl, hnext, shard, hid, ?_, hunchanged before hkept⟩
      show (before.routed.engine shard).Committed ((system.routed.place shard engine).engine shard) _
      rw [RoutedSystem.engine_place_self]
      exact hcommitted
    | error error =>
      refine ⟨⟨h.routes, h.counted, h.engines_place hengine, hquiet (hidle _ rfl), hsession, shard, hid⟩,
        fun before command hsame hnext hreturned hkept ↦ ⟨hsame, shard, hid, ?_, hunchanged before hkept⟩⟩
      show EngineSystem.Returned _ _ _ ((system.routed.place shard engine).engine shard)
      rw [RoutedSystem.engine_place_self]
      exact hreturned

/-- The command is staged and routed, and its engine begins to serve it. -/
theorem Sound.stage (h : Sound crc32c REPORTS EVENTS system) {sequence : SequenceNumber} {other : Command}
    {now : U64} (hcall : system.call = .scanning [] sequence other now) :
    Advances crc32c REPORTS EVENTS system (system.advance crc32c REPORTS EVENTS JOURNAL_BATCH) := by
  have hengaged := h.engaged
  unfold Engaged at hengaged
  simp only [hcall] at hengaged
  have hrefused (error : SessionAdmissionError) : Advances crc32c REPORTS EVENTS system
      (.ok (some (.command (.error error)), { system with call := .idle })) := by
    refine ⟨_, _, rfl, ⟨h.routes, h.counted, h.engines, hengaged⟩, fun before command hscanned ↦ ?_⟩
    unfold Progress at hscanned
    simp only [hcall] at hscanned
    exact ⟨_, rfl, hscanned.2.untouched, fun _ ↦ ⟨hscanned.2.session, hscanned.2.engines⟩⟩
  unfold SessionSystem.advance
  simp only [hcall]
  unfold SessionSystem.stage
  rcases handle_command_cases system.session sequence now with
    ⟨error, hhandle⟩ | ⟨transition, staged, hhandle, hsession, hstaged, hnext, hcounted⟩
  · simp only [hhandle]
    exact hrefused _
  simp only [hhandle]
  obtain ⟨routes, hroutes⟩ := h.routes
  obtain ⟨answer, hrun, hshard⟩ := hroutes.shardFor other.instrumentId
  unfold RoutedSystem.processCommand
  cases answer with
  | none =>
    simp only [hrun, Run.ok_bind, Run.pure_eq_ok]
    exact hrefused _
  | some id =>
    obtain ⟨route, hmem, _, rfl⟩ := (hshard id).mp rfl
    obtain ⟨shard, hid⟩ : ∃ shard : Fin SHARDS, shard.val = route.shardId.val :=
      ⟨⟨_, hroutes.shard_lt hmem⟩, rfl⟩
    obtain ⟨initial, transitions, hengine⟩ := h.engines shard
    obtain ⟨reply, engine, hrequest, hsound, _, hmoved⟩ :=
      hengine.requesting (hengaged.1 shard) (.command other)
    have hstep : (system.routed.engine shard).step crc32c REPORTS EVENTS (JOURNAL_BATCH shard.val)
        (.call (.command other)) = .ok (reply, engine) := hrequest
    simp only [hrun, Run.ok_bind, Run.pure_eq_ok, ← hid, RoutedSystem.step_eq_place hstep]
    obtain ⟨hserved, hmoves⟩ := h.served hid ⟨_, _, hsound⟩ (hcounted h.counted) hstaged hsession
      ⟨_, _, hmoved⟩ (fun result heq ↦ EngineSystem.idle_of_reply (heq ▸ hstep))
      (fun other _ ↦ hengaged.1 other) now
    refine ⟨_, _, rfl, hserved, fun before command hscanned ↦ ?_⟩
    unfold Progress at hscanned
    simp only [hcall] at hscanned
    obtain ⟨rfl, hkept⟩ := hscanned
    refine hmoves before other hkept.session ?_ (hmoved.of_unchanged (hkept.engines shard))
      (fun other _ ↦ hkept.engines other)
    rw [← hkept.session]
    exact hnext

theorem Sound.checking (h : Sound crc32c REPORTS EVENTS system) {id : ShardId} {error : EngineError}
    {now : U64} (hcall : system.call = .checking id error now) :
    Advances crc32c REPORTS EVENTS system (system.advance crc32c REPORTS EVENTS JOURNAL_BATCH) := by
  have hengaged := h.engaged
  unfold Engaged at hengaged
  simp only [hcall] at hengaged
  obtain ⟨hquiet, hsession, shard, hid⟩ := hengaged
  have hchecked {before : SessionSystem SHARDS ACCOUNTS RISK_ORDERS LEVELS ORDERS BATCH} {command : Command}
      (hprogress : Progress before command system) : system.session = before.session ∧
      EngineSystem.Returned (before.routed.engine shard) (.command command) (.error error)
        (system.routed.engine shard) ∧
      ∀ other, other ≠ shard → (before.routed.engine other).Unchanged (system.routed.engine other) := by
    unfold Progress at hprogress
    simp only [hcall] at hprogress
    obtain ⟨hsame, shard', hid', hreturned, hothers⟩ := hprogress
    obtain rfl : shard' = shard := Fin.ext (hid'.trans hid.symm)
    exact ⟨hsame, hreturned, hothers⟩
  unfold SessionSystem.advance
  simp only [hcall]
  split
  · obtain ⟨hsound, hprogress⟩ := h.fail hquiet (.engine id error) now
    refine ⟨none, _, rfl, hsound, fun before command hserved ↦ hprogress before command fun other ↦ ?_⟩
    obtain ⟨_, ⟨huntouched, _⟩, hothers⟩ := hchecked hserved
    by_cases heq : other = shard
    · exact heq ▸ huntouched
    · exact (hothers other heq).toUntouched
  · next hhealthy =>
    refine ⟨_, _, rfl, ⟨h.routes, h.counted, h.engines, hquiet, fun hfailed ↦ absurd hfailed hsession⟩,
      fun before command hserved ↦ ?_⟩
    obtain ⟨hsame, ⟨_, hfatal, hsurvivable⟩, hothers⟩ := hchecked hserved
    have hunchanged : (before.routed.engine shard).Unchanged (system.routed.engine shard) :=
      hsurvivable fun h' ↦ hhealthy ((RoutedSystem.hasFailed_iff hid).mpr (.inl (hfatal h').1))
    have hkept : Kept before system := by
      refine ⟨hsame, fun other ↦ ?_⟩
      by_cases heq : other = shard
      · exact heq ▸ hunchanged
      · exact hothers other heq
    exact ⟨_, rfl, hkept.untouched, fun _ ↦ ⟨hkept.session, hkept.engines⟩⟩

/-- One more journal is closed, or all are and the call returns. -/
theorem Sound.stopping (h : Sound crc32c REPORTS EVENTS system) {rest : List (Fin SHARDS)}
    {answer : SessionAnswer} (hcall : system.call = .stopping rest answer) :
    Advances crc32c REPORTS EVENTS system (system.advance crc32c REPORTS EVENTS JOURNAL_BATCH) := by
  have hengaged := h.engaged
  unfold Engaged at hengaged
  simp only [hcall] at hengaged
  obtain ⟨hquiet, hclosed⟩ := hengaged
  have hstopped {before : SessionSystem SHARDS ACCOUNTS RISK_ORDERS LEVELS ORDERS BATCH} {command : Command}
      (hprogress : Progress before command system) : (∃ error, answer = .command (.error error)) ∧
      system.session.state = .failed ∧ Untouched before system := by
    unfold Progress at hprogress
    simp only [hcall] at hprogress
    exact hprogress
  unfold SessionSystem.advance
  simp only [hcall]
  cases rest with
  | nil =>
    refine ⟨_, _, rfl, ⟨h.routes, h.counted, h.engines, hquiet, fun _ shard ↦ hclosed shard (by simp)⟩,
      fun before command hprogress ↦ ?_⟩
    obtain ⟨⟨error, rfl⟩, hfailed, huntouched⟩ := hstopped hprogress
    exact ⟨_, rfl, huntouched, fun hactive ↦ absurd hfailed hactive⟩
  | cons shard rest =>
    obtain ⟨initial, transitions, hengine⟩ := h.engines shard
    obtain ⟨hsound, huntouched, hwriter, hidle⟩ := hengine.closeJournal (hquiet shard)
    have hstep : (system.routed.engine shard).step crc32c REPORTS EVENTS (JOURNAL_BATCH shard.val)
        .stopAdmission = .ok (none, (system.routed.engine shard).closeJournal) := by
      simp only [EngineSystem.step, EngineSystem.stopAdmission, hquiet shard]
    simp only [RoutedSystem.step_eq_place hstep, Run.ok_bind, Run.pure_eq_ok]
    refine ⟨_, _, rfl, ⟨h.routes, h.counted, h.engines_place ⟨_, _, hsound⟩, ?_, ?_⟩,
      fun before command hprogress ↦ ?_⟩
    · exact RoutedSystem.forall_place (fun _ engine ↦ engine.call = .idle) hidle fun other _ ↦ hquiet other
    · apply RoutedSystem.forall_place (fun other engine ↦ other ∉ rest → engine.journal.writer = none)
        fun _ ↦ hwriter
      intro other hne hmem
      exact hclosed other (by simp [hne, hmem])
    · obtain ⟨hanswer, hfailed, hbefore⟩ := hstopped hprogress
      refine ⟨hanswer, hfailed, ?_⟩
      exact RoutedSystem.forall_place (fun other engine ↦ (before.routed.engine other).Untouched engine)
        ((hbefore shard).trans huntouched) fun other _ ↦ hbefore other

theorem Sound.serving (hc : Capacities ACCOUNTS RISK_ORDERS LEVELS ORDERS)
    (hordinals : REPORTS + 1 < 2 ^ 16) (hbatch : REPORTS + 2 ≤ BATCH)
    (hworkers : ∀ shard : Fin SHARDS, 0 < JOURNAL_BATCH shard.val)
    (h : Sound crc32c REPORTS EVENTS system) {id : ShardId} {staged : SessionStateMachine} {now : U64}
    (hcall : system.call = .serving id staged now) :
    Advances crc32c REPORTS EVENTS system (system.advance crc32c REPORTS EVENTS JOURNAL_BATCH) := by
  have hengaged := h.engaged
  unfold Engaged at hengaged
  simp only [hcall] at hengaged
  obtain ⟨hcounted, hstaged, hsession, shard, hid, ⟨first, request, hprogress⟩, hothers⟩ := hengaged
  obtain ⟨initial, transitions, hengine⟩ := h.engines shard
  obtain ⟨reply, engine, transitions', hstep, hsound, _, hmoves⟩ :=
    hengine.step hc hordinals hbatch (hworkers shard) .advance
  unfold SessionSystem.advance
  simp only [hcall, ← hid, RoutedSystem.step_eq_place hstep, Run.ok_bind, Run.pure_eq_ok]
  obtain ⟨hserved, hmoved⟩ := h.served hid ⟨_, _, hsound⟩ hcounted hstaged hsession
    ⟨first, request, hmoves first request hprogress⟩
    (fun result heq ↦ EngineSystem.idle_of_reply (heq ▸ hstep)) hothers now
  refine ⟨_, _, rfl, hserved, fun before command hserves ↦ ?_⟩
  unfold Progress at hserves
  simp only [hcall] at hserves
  obtain ⟨hsame, hnext, shard', hid', hprogress', hkept⟩ := hserves
  obtain rfl : shard' = shard := Fin.ext (hid'.trans hid.symm)
  exact hmoved before command hsame hnext (hmoves _ _ hprogress') hkept

/-- The next step of a call. -/
theorem Sound.advance (hc : Capacities ACCOUNTS RISK_ORDERS LEVELS ORDERS)
    (hordinals : REPORTS + 1 < 2 ^ 16) (hbatch : REPORTS + 2 ≤ BATCH)
    (hworkers : ∀ shard : Fin SHARDS, 0 < JOURNAL_BATCH shard.val)
    (h : Sound crc32c REPORTS EVENTS system) :
    Advances crc32c REPORTS EVENTS system (system.advance crc32c REPORTS EVENTS JOURNAL_BATCH) := by
  cases hcall : system.call with
  | idle =>
    refine ⟨none, system, ?_, h, fun _ _ hprogress ↦ hprogress⟩
    unfold SessionSystem.advance
    simp only [hcall]
  | scanning rest sequence other now =>
    cases rest with
    | nil => exact h.stage hcall
    | cons route rest => exact h.scanning hcall
  | serving id staged now => exact h.serving hc hordinals hbatch hworkers hcall
  | checking id error now => exact h.checking hcall
  | stopping rest answer => exact h.stopping hcall

/-! ## Starting a call -/

theorem not_progress_of_idle (hcall : system.call = .idle) : ¬ Progress before command system := by
  unfold Progress
  rw [hcall]
  exact id

theorem Sound.stop (h : Sound crc32c REPORTS EVENTS system) (hquiet : system.Quiet) (answer : SessionAnswer) :
    Sound crc32c REPORTS EVENTS (system.stop answer) :=
  ⟨h.routes, h.counted, h.engines, hquiet, fun shard hmem ↦ absurd (List.mem_finRange shard) hmem⟩

/-- The session takes over what its machine has made of an event or of a tick. -/
theorem Sound.adopt (h : Sound crc32c REPORTS EVENTS system) (hcall : system.call = .idle) {input : Input}
    {answer : Except SessionError Transition × SessionStateMachine}
    (hanswers : system.session.Answers input answer) :
    Sound crc32c REPORTS EVENTS (system.adopt answer).2 := by
  obtain ⟨result, staged⟩ := answer
  cases result with
  | error error => exact h
  | ok transition =>
    obtain ⟨hsnapshot, hmoves⟩ := hanswers
    have hadopted (hclosed : staged.state = .failed → system.Closed) :
        Sound crc32c REPORTS EVENTS { system with session := staged } := by
      refine ⟨h.routes, hmoves.counted h.counted, h.engines, ?_⟩
      unfold Engaged
      simp only [hcall]
      exact ⟨h.quiet hcall, hclosed⟩
    unfold SessionSystem.adopt
    dsimp only
    split
    · exact ⟨h.routes, hmoves.counted h.counted, h.engines, h.quiet hcall,
        fun shard hmem ↦ absurd (List.mem_finRange shard) hmem⟩
    · next hactive =>
      apply hadopted
      intro hfailed
      exact absurd ((congrArg Transition.state hsnapshot).trans hfailed) hactive

theorem Sound.handleSession (h : Sound crc32c REPORTS EVENTS system) (hcall : system.call = .idle)
    (event : SessionEvent) (now : U64) : Sound crc32c REPORTS EVENTS (system.handleSession event now).2 := by
  have hadopt := h.adopt hcall (system.session.handle_answers event now)
  cases event with
  | command sequence => exact h
  | connect | logonSent | logonAccepted _ | heartbeatReceived | logoutSent | disconnect | fail => exact hadopt

theorem Sound.tick (h : Sound crc32c REPORTS EVENTS system) (hcall : system.call = .idle) (now : U64) :
    ∃ reply system', system.tick now = .ok (reply, system') ∧ Sound crc32c REPORTS EVENTS system' := by
  obtain ⟨answer, htick, hanswers⟩ := SessionStateMachine.tick_answers h.counted now
  refine ⟨(system.adopt answer).1, _, ?_, h.adopt hcall hanswers⟩
  unfold SessionSystem.tick
  rw [htick]
  rfl

/-- A request is refused at once, or the call on its command has begun. -/
theorem Sound.process (h : Sound crc32c REPORTS EVENTS system) (hcall : system.call = .idle)
    (sequence : SequenceNumber) (request : Events.Request) (now : U64) :
    (∃ error, system.process sequence request now = .ok (some (.command (.error error)), system)) ∨
      ∃ command, system.process sequence request now =
          .ok (none, system.processCommand sequence command now) ∧ request.Denotes command ∧
        Sound crc32c REPORTS EVENTS (system.processCommand sequence command now) ∧
        Progress system command (system.processCommand sequence command now) := by
  have hbegins (command : Command) :
      Sound crc32c REPORTS EVENTS (system.processCommand sequence command now) ∧
      Progress system command (system.processCommand sequence command now) := by
    refine ⟨⟨h.routes, h.counted, h.engines, h.quiet hcall, h.closed hcall⟩, rfl, rfl, fun shard ↦ .refl _⟩
  cases request with
  | command command => exact .inr ⟨command, rfl, rfl, hbegins command⟩
  | frame bytes =>
    show (∃ error, system.processFrame sequence bytes now = _) ∨
      ∃ command, system.processFrame sequence bytes now = _ ∧ _
    unfold SessionSystem.processFrame
    rcases Wire.parseMessage_cases bytes with ⟨error, hparse⟩ | ⟨message, command, hparse, hcommand, _⟩
    · simp only [hparse, Run.ok_bind, Run.pure_eq_ok]
      exact .inl ⟨_, rfl⟩
    · simp only [hparse, hcommand, Run.ok_bind, Run.pure_eq_ok]
      exact .inr ⟨command, rfl, ⟨message, hparse, hcommand⟩, hbegins command⟩

/-- Every step returns, keeps the invariant, and carries the call going on further. -/
theorem Sound.step (hc : Capacities ACCOUNTS RISK_ORDERS LEVELS ORDERS)
    (hordinals : REPORTS + 1 < 2 ^ 16) (hbatch : REPORTS + 2 ≤ BATCH)
    (hworkers : ∀ shard : Fin SHARDS, 0 < JOURNAL_BATCH shard.val)
    (h : Sound crc32c REPORTS EVENTS system) (action : SessionAction SHARDS) :
    Advances crc32c REPORTS EVENTS system (system.step crc32c REPORTS EVENTS JOURNAL_BATCH action) := by
  have hfresh (hcall : system.call = .idle) {reply : Option SessionAnswer}
      {system' : SessionSystem SHARDS ACCOUNTS RISK_ORDERS LEVELS ORDERS BATCH}
      (hsound : Sound crc32c REPORTS EVENTS system') :
      Advances crc32c REPORTS EVENTS system (.ok (reply, system')) :=
    ⟨reply, system', rfl, hsound, fun _ _ hprogress ↦ absurd hprogress (not_progress_of_idle hcall)⟩
  have hskip : Advances crc32c REPORTS EVENTS system (.ok (none, system)) :=
    ⟨none, system, rfl, h, fun _ _ hprogress ↦ hprogress⟩
  cases action with
  | advance =>
    have hstep : system.step crc32c REPORTS EVENTS JOURNAL_BATCH .advance =
        system.advance crc32c REPORTS EVENTS JOURNAL_BATCH := by
      unfold SessionSystem.step
      cases system.call <;> rfl
    rw [hstep]
    exact h.advance hc hordinals hbatch hworkers
  | pop shard =>
    obtain ⟨system', hrun, hsound, hbeside⟩ := h.beside fun hengine ↦ hengine.pop (JOURNAL_BATCH shard.val)
    refine ⟨none, system', ?_, hsound, fun _ _ ↦ hbeside.progress⟩
    unfold SessionSystem.step
    cases system.call <;> exact hrun
  | persist shard turn =>
    obtain ⟨system', hrun, hsound, hbeside⟩ := h.beside fun hengine ↦ hengine.persist (hworkers shard) turn
    refine ⟨none, system', ?_, hsound, fun _ _ ↦ hbeside.progress⟩
    unfold SessionSystem.step
    cases system.call <;> exact hrun
  | handleSession event now =>
    unfold SessionSystem.step
    cases hcall : system.call with
    | idle => exact hfresh hcall (h.handleSession hcall event now)
    | scanning _ _ _ _ | serving _ _ _ | checking _ _ _ | stopping _ _ => exact hskip
  | tick now =>
    unfold SessionSystem.step
    cases hcall : system.call with
    | idle =>
      obtain ⟨reply, system', hrun, hsound⟩ := h.tick hcall now
      dsimp only
      rw [hrun]
      exact hfresh hcall hsound
    | scanning _ _ _ _ | serving _ _ _ | checking _ _ _ | stopping _ _ => exact hskip
  | process sequence request now =>
    unfold SessionSystem.step
    cases hcall : system.call with
    | idle =>
      dsimp only
      rcases h.process hcall sequence request now with ⟨error, hrun⟩ | ⟨command, hrun, _, hsound, _⟩
      · rw [hrun]
        exact hfresh hcall h
      · rw [hrun]
        exact hfresh hcall hsound
    | scanning _ _ _ _ | serving _ _ _ | checking _ _ _ | stopping _ _ => exact hskip
  | stopAdmission =>
    unfold SessionSystem.step
    cases hcall : system.call with
    | idle => exact hfresh hcall (h.stop (h.quiet hcall) .admissionStopped)
    | scanning _ _ _ _ | serving _ _ _ | checking _ _ _ | stopping _ _ => exact hskip

/-- The answer of a call is its end. -/
theorem idle_of_reply {action : SessionAction SHARDS} {answer : SessionAnswer}
    (h : system.step crc32c REPORTS EVENTS JOURNAL_BATCH action = .ok (some answer, system')) :
    system'.call = .idle := by
  have hadopt {outcome : Except SessionError Transition × SessionStateMachine} (hcall : system.call = .idle)
      (hadopted : system.adopt outcome = (some answer, system')) : system'.call = .idle := by
    obtain ⟨result, staged⟩ := outcome
    unfold SessionSystem.adopt at hadopted
    cases result with
    | error error =>
      obtain ⟨_, rfl⟩ := Prod.mk.inj hadopted
      exact hcall
    | ok transition =>
      dsimp only at hadopted
      split at hadopted
      · simp at hadopted
      · obtain ⟨_, rfl⟩ := Prod.mk.inj hadopted
        exact hcall
  have hserved {routed : RoutedSystem SHARDS ACCOUNTS RISK_ORDERS LEVELS ORDERS BATCH} {id : ShardId}
      {staged : SessionStateMachine} {now : U64} {reply : Option (Except EngineError Unit)}
      (hreply : ({ system with routed := routed }).served id staged now reply = (some answer, system')) :
      system'.call = .idle := by
    unfold SessionSystem.served at hreply
    split at hreply
    · simp at hreply
    · obtain ⟨_, rfl⟩ := Prod.mk.inj hreply
      rfl
    · simp at hreply
  unfold SessionSystem.step at h
  split at h
  · unfold SessionSystem.advance at h
    split at h
    · simp at h
    · split at h <;> simp at h
    · unfold SessionSystem.stage at h
      split at h
      · obtain ⟨_, rfl⟩ := Prod.mk.inj (Except.ok.inj h)
        rfl
      · obtain ⟨routed, _, hrest⟩ := Run.bind_eq_ok.mp h
        split at hrest
        · obtain ⟨_, rfl⟩ := Prod.mk.inj (Except.ok.inj hrest)
          rfl
        · exact hserved (Except.ok.inj hrest)
    · obtain ⟨_, _, hrest⟩ := Run.bind_eq_ok.mp h
      exact hserved (Except.ok.inj hrest)
    · split at h
      · simp at h
      · obtain ⟨_, rfl⟩ := Prod.mk.inj (Except.ok.inj h)
        rfl
    · obtain ⟨_, _, hrest⟩ := Run.bind_eq_ok.mp h
      simp at hrest
    · obtain ⟨_, rfl⟩ := Prod.mk.inj (Except.ok.inj h)
      rfl
  · obtain ⟨_, _, hrest⟩ := Run.bind_eq_ok.mp h
    simp at hrest
  · obtain ⟨_, _, hrest⟩ := Run.bind_eq_ok.mp h
    simp at hrest
  · next hcall =>
    have hhandled := Except.ok.inj h
    unfold SessionSystem.handleSession at hhandled
    split at hhandled
    · obtain ⟨_, rfl⟩ := Prod.mk.inj hhandled
      exact hcall
    · exact hadopt hcall hhandled
  · next hcall =>
    obtain ⟨_, _, hrest⟩ := Run.bind_eq_ok.mp h
    exact hadopt hcall (Except.ok.inj hrest)
  · next sequence request now hcall =>
    cases request with
    | command command => simp [SessionSystem.process] at h
    | frame bytes =>
      obtain ⟨parsed, _, hrest⟩ := Run.bind_eq_ok.mp h
      cases parsed with
      | error error =>
        obtain ⟨_, rfl⟩ := Prod.mk.inj (Except.ok.inj hrest)
        exact hcall
      | ok message =>
        obtain ⟨_, _, hlast⟩ := Run.bind_eq_ok.mp hrest
        simp at hlast
  · simp at h
  · simp at h

/-! ## After the failure of the session -/

/-- The session has failed, every journal is closed, and nothing has been applied since `before`. -/
structure Ended (before system : SessionSystem SHARDS ACCOUNTS RISK_ORDERS LEVELS ORDERS BATCH) : Prop where
  failed : system.session.state = .failed
  closed : system.Closed
  untouched : Untouched before system
  call : match system.call with
    | .serving .. | .checking .. => False
    | _ => True

theorem Beside.ended (h : Beside system system') (hended : Ended before system) : Ended before system' := by
  refine ⟨(congrArg SessionStateMachine.state h.session).trans hended.failed,
    fun shard ↦ (h.engines shard).writer.trans (hended.closed shard), h.untouched hended.untouched, ?_⟩
  rw [h.call]
  exact hended.call

/-- A failed session refuses every event or stays failed. -/
theorem Ended.adopt (h : Ended before system) {input : Input}
    {answer : Except SessionError Transition × SessionStateMachine}
    (hanswers : system.session.Answers input answer) : Ended before (system.adopt answer).2 := by
  obtain ⟨result, staged⟩ := answer
  cases result with
  | error error => exact h
  | ok transition =>
    obtain ⟨hsnapshot, hmoves⟩ := hanswers
    have hfailed := hmoves.failed h.failed
    unfold SessionSystem.adopt
    dsimp only
    rw [if_pos ((congrArg Transition.state hsnapshot).trans hfailed)]
    exact ⟨hfailed, h.closed, h.untouched, trivial⟩

/-- Closing a journal that is closed changes nothing. -/
theorem closeJournal_of_closed {engine : EngineSystem ACCOUNTS RISK_ORDERS LEVELS ORDERS BATCH}
    (hwriter : engine.journal.writer = none) : engine.closeJournal = engine := by
  unfold EngineSystem.closeJournal Journal.System.close
  rw [hwriter]
  rfl

theorem Ended.advance (h : Ended before system) (hsound : Sound crc32c REPORTS EVENTS system) :
    ∃ reply system', system.advance crc32c REPORTS EVENTS JOURNAL_BATCH = .ok (reply, system') ∧
      Ended before system' := by
  have hengaged := hsound.engaged
  unfold Engaged at hengaged
  have hphase := h.call
  unfold SessionSystem.advance
  cases hcall : system.call with
  | idle => exact ⟨none, system, rfl, h⟩
  | serving _ _ _ | checking _ _ _ => simp only [hcall] at hphase
  | scanning rest sequence other now =>
    cases rest with
    | cons route rest =>
      dsimp only
      split
      · refine ⟨none, _, rfl, ?_, h.closed, h.untouched, trivial⟩
        unfold SessionSystem.fail
        rw [handle_fail]
        rfl
      · exact ⟨none, _, rfl, h.failed, h.closed, h.untouched, trivial⟩
    | nil =>
      dsimp only
      unfold SessionSystem.stage
      rcases handle_command_cases system.session sequence now with ⟨error, hhandle⟩ | ⟨_, _, _, hactive, _⟩
      · simp only [hhandle]
        exact ⟨_, _, rfl, h.failed, h.closed, h.untouched, trivial⟩
      · exact absurd h.failed hactive
  | stopping rest answer =>
    simp only [hcall] at hengaged
    cases rest with
    | nil => exact ⟨_, _, rfl, h.failed, h.closed, h.untouched, trivial⟩
    | cons shard rest =>
      have hstep : (system.routed.engine shard).step crc32c REPORTS EVENTS (JOURNAL_BATCH shard.val)
          .stopAdmission = .ok (none, system.routed.engine shard) := by
        simp only [EngineSystem.step, EngineSystem.stopAdmission, hengaged.1 shard,
          closeJournal_of_closed (h.closed shard)]
      simp only [RoutedSystem.step_eq_place hstep, Run.ok_bind, Run.pure_eq_ok]
      refine ⟨_, _, rfl, h.failed, ?_, ?_, trivial⟩
      · exact RoutedSystem.forall_place (fun _ engine ↦ engine.journal.writer = none) (h.closed shard)
          fun other _ ↦ h.closed other
      · exact RoutedSystem.forall_place (fun other engine ↦ (before.routed.engine other).Untouched engine)
          (h.untouched shard) fun other _ ↦ h.untouched other

/-- No step leads out of the failure, and none journals, applies or publishes anything. -/
theorem Ended.step (h : Ended before system) (hsound : Sound crc32c REPORTS EVENTS system)
    (hworkers : ∀ shard : Fin SHARDS, 0 < JOURNAL_BATCH shard.val) (action : SessionAction SHARDS) :
    ∃ reply system', system.step crc32c REPORTS EVENTS JOURNAL_BATCH action = .ok (reply, system') ∧
      Ended before system' := by
  cases action with
  | advance =>
    have hstep : system.step crc32c REPORTS EVENTS JOURNAL_BATCH .advance =
        system.advance crc32c REPORTS EVENTS JOURNAL_BATCH := by
      unfold SessionSystem.step
      cases system.call <;> rfl
    rw [hstep]
    exact h.advance hsound
  | pop shard =>
    obtain ⟨system', hrun, _, hbeside⟩ := hsound.beside fun hengine ↦ hengine.pop (JOURNAL_BATCH shard.val)
    refine ⟨none, system', ?_, hbeside.ended h⟩
    unfold SessionSystem.step
    cases system.call <;> exact hrun
  | persist shard turn =>
    obtain ⟨system', hrun, _, hbeside⟩ := hsound.beside fun hengine ↦ hengine.persist (hworkers shard) turn
    refine ⟨none, system', ?_, hbeside.ended h⟩
    unfold SessionSystem.step
    cases system.call <;> exact hrun
  | handleSession event now =>
    unfold SessionSystem.step
    cases hcall : system.call with
    | idle =>
      refine ⟨_, _, rfl, ?_⟩
      have hadopt := h.adopt (system.session.handle_answers event now)
      cases event with
      | command sequence => exact h
      | connect | logonSent | logonAccepted _ | heartbeatReceived | logoutSent | disconnect | fail =>
        exact hadopt
    | scanning _ _ _ _ | serving _ _ _ | checking _ _ _ | stopping _ _ => exact ⟨none, system, rfl, h⟩
  | tick now =>
    unfold SessionSystem.step
    cases hcall : system.call with
    | idle =>
      obtain ⟨answer, htick, hanswers⟩ := SessionStateMachine.tick_answers hsound.counted now
      refine ⟨(system.adopt answer).1, _, ?_, h.adopt hanswers⟩
      dsimp only
      unfold SessionSystem.tick
      rw [htick]
      rfl
    | scanning _ _ _ _ | serving _ _ _ | checking _ _ _ | stopping _ _ => exact ⟨none, system, rfl, h⟩
  | process sequence request now =>
    unfold SessionSystem.step
    cases hcall : system.call with
    | idle =>
      dsimp only
      rcases hsound.process hcall sequence request now with ⟨error, hrun⟩ | ⟨command, hrun, _⟩
      · exact ⟨_, system, hrun, h⟩
      · exact ⟨none, _, hrun, h.failed, h.closed, h.untouched, trivial⟩
    | scanning _ _ _ _ | serving _ _ _ | checking _ _ _ | stopping _ _ => exact ⟨none, system, rfl, h⟩
  | stopAdmission =>
    unfold SessionSystem.step
    cases hcall : system.call with
    | idle => exact ⟨none, _, rfl, h.failed, h.closed, h.untouched, trivial⟩
    | scanning _ _ _ _ | serving _ _ _ | checking _ _ _ | stopping _ _ => exact ⟨none, system, rfl, h⟩

end Steps

end SessionSystem

end DeterministicExchange
