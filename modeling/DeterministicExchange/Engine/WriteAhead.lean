import DeterministicExchange.Engine.Agreement
import DeterministicExchange.Gateway.Lifecycle

/-!
# Write-ahead journaling

The journaled engine in every interleaving with its consumer and its worker. At
any point between two calls the journal holds the commands that the gateway has
processed, each was published as one batch, and admission ends for good.
-/

namespace DeterministicExchange

open Machine Codec Events

variable {ACCOUNTS RISK_ORDERS LEVELS ORDERS BATCH : ℕ}

namespace EngineSystem

/-- Journal, gateway and event stream have seen the same commands. -/
structure Agreement (crc32c : Bytes → U32) (initial : Gateway ACCOUNTS RISK_ORDERS LEVELS ORDERS)
    (system : EngineSystem ACCOUNTS RISK_ORDERS LEVELS ORDERS BATCH)
    (transitions : List (Gateway.Transition ACCOUNTS RISK_ORDERS LEVELS ORDERS)) : Prop where
  /-- The gateway has processed the applied commands, one after the other. -/
  trace : Gateway.Trace initial transitions system.events.engine.gateway
  applied : system.applied = transitions.map Gateway.Transition.command
  /-- The records are those of the applied commands in their wire encodings. -/
  journaled : Recovery.Journaled crc32c system.accepted system.applied
  /-- The records are numbered without a gap. -/
  numbered : system.accepted.map (fun record ↦ record.sequence.val) =
    List.range' initial.expectedSequence.val system.accepted.length
  /-- There is one batch for each applied command, and so for each record. -/
  published : List.Forall₂ Publishes transitions system.published
  /-- While admission is open, the journal goes on where the gateway is. -/
  next : ∀ writer ∈ system.journal.writer,
    writer.nextSequence = system.events.engine.gateway.expectedSequence

variable {crc32c : Bytes → U32} {REPORTS EVENTS JOURNAL_BATCH : ℕ}
  {initial : Gateway ACCOUNTS RISK_ORDERS LEVELS ORDERS}
  {system : EngineSystem ACCOUNTS RISK_ORDERS LEVELS ORDERS BATCH}
  {transitions : List (Gateway.Transition ACCOUNTS RISK_ORDERS LEVELS ORDERS)}

theorem Sound.numbered (h : Sound crc32c REPORTS EVENTS initial system transitions) :
    system.accepted.map (fun record ↦ record.sequence.val) =
      List.range' initial.expectedSequence.val system.accepted.length := by
  obtain ⟨_, _, _, hjournal⟩ := h.journal
  apply List.ext_getElem (by simp)
  intro i hi hi'
  rw [List.length_map] at hi
  obtain ⟨hsequence, _⟩ := hjournal.log.numbered i _ (List.getElem?_eq_getElem hi)
  rw [List.getElem_map, List.getElem_range', one_mul]
  exact hsequence

theorem Sound.agreement (h : Sound crc32c REPORTS EVENTS initial system transitions)
    (hcall : system.call = .idle) : Agreement crc32c initial system transitions := by
  have hjournaled := h.journaled
  rw [inFlight_of_idle hcall, List.append_nil] at hjournaled
  have hengaged := h.engaged
  unfold Engaged at hengaged
  simp only [hcall] at hengaged
  have hpublished := h.events.published
  rw [hengaged.1] at hpublished
  exact ⟨h.events.trace, h.applied, hjournaled, h.numbered, hpublished,
    fun writer ↦ h.nextSequence (inFlight_of_idle hcall)⟩

/-- Every run returns and keeps the invariant, and no answer tells of a broken one. -/
theorem Sound.executes (hc : Capacities ACCOUNTS RISK_ORDERS LEVELS ORDERS)
    (hordinals : REPORTS + 1 < 2 ^ 16) (hbatch : REPORTS + 2 ≤ BATCH) (hworker : 0 < JOURNAL_BATCH)
    (h : Sound crc32c REPORTS EVENTS initial system transitions) (actions : List EngineAction) :
    ∃ answers system' transitions',
      execute (EngineSystem.step crc32c REPORTS EVENTS JOURNAL_BATCH) system actions =
        .ok (answers, system') ∧
      Sound crc32c REPORTS EVENTS initial system' transitions' ∧
      ∀ error, some (.error error) ∈ answers → ¬ error.Internal := by
  have hkeeps (past : List (Option (Except EngineError Unit)))
      (state : EngineSystem ACCOUNTS RISK_ORDERS LEVELS ORDERS BATCH)
      (hstate : (∃ transitions, Sound crc32c REPORTS EVENTS initial state transitions) ∧
        ∀ error, some (.error error) ∈ past → ¬ error.Internal)
      (action : EngineAction) (_ : action ∈ actions) :
      ∃ reply state', state.step crc32c REPORTS EVENTS JOURNAL_BATCH action = .ok (reply, state') ∧
        (∃ transitions, Sound crc32c REPORTS EVENTS initial state' transitions) ∧
          ∀ error, some (.error error) ∈ past ++ [reply] → ¬ error.Internal := by
    obtain ⟨⟨transitions, hsound⟩, hpast⟩ := hstate
    obtain ⟨reply, state', transitions', hstep, hsound', hexternal, _⟩ :=
      hsound.step hc hordinals hbatch hworker action
    refine ⟨reply, state', hstep, ⟨transitions', hsound'⟩, fun error hmem ↦ ?_⟩
    rcases List.mem_append.mp hmem with hmem | hmem
    · exact hpast error hmem
    · exact hexternal error (List.mem_singleton.mp hmem).symm
  obtain ⟨answers, system', hrun, ⟨transitions', hsound⟩, hexternal⟩ :=
    execute_total actions hkeeps ⟨⟨transitions, h⟩, by simp⟩
  exact ⟨answers, system', transitions', hrun, hsound, hexternal⟩

/-- After the end of admission nothing more is journaled, applied or published. -/
theorem Sound.executes_halted (hc : Capacities ACCOUNTS RISK_ORDERS LEVELS ORDERS)
    (hordinals : REPORTS + 1 < 2 ^ 16) (hbatch : REPORTS + 2 ≤ BATCH) (hworker : 0 < JOURNAL_BATCH)
    {before : EngineSystem ACCOUNTS RISK_ORDERS LEVELS ORDERS BATCH}
    (h : Sound crc32c REPORTS EVENTS initial system transitions) (hhalted : Halted before system)
    (actions : List EngineAction) :
    ∃ answers system', execute (EngineSystem.step crc32c REPORTS EVENTS JOURNAL_BATCH) system actions =
      .ok (answers, system') ∧ Untouched before system' ∧ some (.ok ()) ∉ answers := by
  have hkeeps (past : List (Option (Except EngineError Unit)))
      (state : EngineSystem ACCOUNTS RISK_ORDERS LEVELS ORDERS BATCH)
      (hstate : (∃ transitions, Sound crc32c REPORTS EVENTS initial state transitions) ∧
        Halted before state ∧ some (.ok ()) ∉ past)
      (action : EngineAction) (_ : action ∈ actions) :
      ∃ reply state', state.step crc32c REPORTS EVENTS JOURNAL_BATCH action = .ok (reply, state') ∧
        (∃ transitions, Sound crc32c REPORTS EVENTS initial state' transitions) ∧
          Halted before state' ∧ some (.ok ()) ∉ past ++ [reply] := by
    obtain ⟨⟨transitions, hsound⟩, hhalted, hpast⟩ := hstate
    obtain ⟨reply, state', transitions', hstep, hsound', _⟩ :=
      hsound.step hc hordinals hbatch hworker action
    obtain ⟨_, _, hstep', hhalted', hreply⟩ := hsound.halted hworker hhalted action
    rw [hstep] at hstep'
    obtain ⟨rfl, rfl⟩ := Prod.mk.inj (Except.ok.inj hstep')
    refine ⟨reply, state', hstep, ⟨transitions', hsound'⟩, hhalted', fun hmem ↦ ?_⟩
    rcases List.mem_append.mp hmem with hmem | hmem
    · exact hpast hmem
    · exact hreply (List.mem_singleton.mp hmem).symm
  obtain ⟨answers, system', hrun, _, hhalted', hrefused⟩ :=
    execute_total actions hkeeps ⟨⟨transitions, h⟩, hhalted, by simp⟩
  exact ⟨answers, system', hrun, hhalted'.1, hrefused⟩

/-- An engine with empty queues, its writer and its worker at the next sequence of the gateway. -/
def fresh (BATCH : ℕ) (builder : EngineBuilder ACCOUNTS RISK_ORDERS LEVELS ORDERS)
    (policy : Journal.FlushPolicy) : EngineSystem ACCOUNTS RISK_ORDERS LEVELS ORDERS BATCH :=
  let sequence := builder.gateway.expectedSequence
  ⟨EventSystem.start ⟨builder.gateway, []⟩,
    ⟨some ⟨sequence⟩, ⟨[], Journal.JournalStatus.new sequence⟩,
      ⟨⟨sequence, false, false⟩, policy, false, false, .idle⟩, ⟨[], 0⟩⟩,
    false, builder.configuration, .idle, [], []⟩

end EngineSystem

/-- An engine is built if events can be numbered, a batch can hold the largest command result, and the
worker has room for a record. -/
theorem EngineSystem.fresh_starts {REPORTS JOURNAL_BATCH : ℕ} (hordinals : REPORTS + 1 < 2 ^ 16)
    (hbatch : REPORTS + 2 ≤ BATCH) (hworker : JOURNAL_BATCH ≠ 0)
    (builder : EngineBuilder ACCOUNTS RISK_ORDERS LEVELS ORDERS) (policy : Journal.FlushPolicy) :
    Starts REPORTS JOURNAL_BATCH builder (fresh BATCH builder policy) := by
  have hnew : BoundedEventEngine.tryNew REPORTS BATCH builder.gateway = .ok ⟨builder.gateway, []⟩ :=
    (BoundedEventEngine.tryNew_eq_ok REPORTS).mpr ⟨hordinals, hbatch, rfl⟩
  have hbuild : builder.build REPORTS BATCH EngineStorage.new =
      (.ok ⟨⟨⟨builder.gateway, []⟩, some ⟨builder.gateway.expectedSequence⟩, false, builder.configuration⟩,
        ⟨builder.gateway.expectedSequence, false, false⟩⟩,
        ⟨⟨[], Journal.JournalStatus.new builder.gateway.expectedSequence⟩, true⟩) := by
    unfold EngineBuilder.build
    rw [if_neg (by simp [EngineStorage.new])]
    simp only [hnew]
    rfl
  have hnewWorker : Journal.PersistenceWorker.new JOURNAL_BATCH
      ⟨builder.gateway.expectedSequence, false, false⟩
      (Journal.JournalStatus.new builder.gateway.expectedSequence) policy =
      .ok ⟨⟨builder.gateway.expectedSequence, false, false⟩, policy, false, false, .idle⟩ := by
    unfold Journal.PersistenceWorker.new
    rw [if_neg hworker]
    simp [Journal.JournalStatus.new]
  refine ⟨_, _, policy, hbuild, ?_⟩
  unfold start
  exact except_bind_eq_ok.mpr ⟨_, hnewWorker, rfl⟩

/-- Journal, gateway and event stream agree. In every interleaving of the calls of a new engine with its
consumer and its worker, every step returns, and no answer tells of a broken invariant. Between calls
the records, the applied commands and the batches are the same in number and order. A call that returns
an error changes nothing, but for the end of admission by a failure; one that succeeds has journaled,
applied and published its command. After the end of admission no command is. -/
theorem engine_writes_ahead (crc32c : Bytes → U32)
    (hc : IndexCapacities ACCOUNTS RISK_ORDERS LEVELS ORDERS) {REPORTS JOURNAL_BATCH : ℕ}
    {instrument : InstrumentId} {accounts : List (AccountId × Risk.RiskLimits)}
    {builder : EngineBuilder ACCOUNTS RISK_ORDERS LEVELS ORDERS}
    (hnew : EngineBuilder.new REPORTS instrument accounts = .ok (.ok builder))
    {start : EngineSystem ACCOUNTS RISK_ORDERS LEVELS ORDERS BATCH}
    (hstart : EngineSystem.Starts REPORTS JOURNAL_BATCH builder start) (EVENTS : ℕ)
    (actions : List EngineAction) :
    ∃ answers system,
      execute (EngineSystem.step crc32c REPORTS EVENTS JOURNAL_BATCH) start actions =
        .ok (answers, system) ∧
      (∀ error, some (.error error) ∈ answers → ¬ error.Internal) ∧
      (system.call = .idle →
        (∃ transitions, system.Agreement crc32c builder.gateway transitions) ∧
        (∀ request later replies result system', (∀ reply ∈ replies, reply = none) →
          execute (EngineSystem.step crc32c REPORTS EVENTS JOURNAL_BATCH) system (.call request :: later) =
            .ok (replies ++ [some result], system') →
          EngineSystem.Returned system request result system') ∧
        (system.Shut → ∀ later, ∃ replies system',
          execute (EngineSystem.step crc32c REPORTS EVENTS JOURNAL_BATCH) system later =
            .ok (replies, system') ∧
          EngineSystem.Untouched system system' ∧ some (.ok ()) ∉ replies)) := by
  obtain ⟨hsized, hstarted⟩ := EngineBuilder.new_started hnew
  have hcapacities : Capacities ACCOUNTS RISK_ORDERS LEVELS ORDERS :=
    ⟨hsized.orders, hc.book, hc.accounts, hc.reservations⟩
  obtain ⟨hordinals, hbatch, hworker, hsound, _⟩ :=
    hstart.sound hcapacities (.start (.inl hstarted)) crc32c EVENTS
  obtain ⟨answers, system, transitions, hrun, hsound', hexternal⟩ :=
    hsound.executes hcapacities hordinals hbatch hworker actions
  refine ⟨answers, system, hrun, hexternal, fun hcall ↦ ⟨⟨transitions, hsound'.agreement hcall⟩, ?_, ?_⟩⟩
  · intro request later replies result system' hquiet hcalled
    exact hsound'.called hcapacities hordinals hbatch hworker hcall hquiet hcalled
  · intro hshut later
    apply hsound'.executes_halted hcapacities hordinals hbatch hworker ⟨⟨rfl, rfl, rfl, rfl⟩, ?_⟩
    rw [hcall]
    exact hshut

/-- An order is journaled and applied, the worker drains it, admission is stopped, and a cancel comes
too late. -/
def EngineSystem.sampleActions : List EngineAction :=
  [.call (.command Gateway.sampleOrder), .advance, .persist .drainBatch, .advance, .advance, .advance,
    .pop, .persist .advance, .stopAdmission, .call (.command (Gateway.sampleCancel 2))]

theorem EngineSystem.sampleActions_idle :
    ((execute (step (fun _ ↦ 0) 1 1 1) (fresh 3 EngineBuilder.sampleBuilder .everyBatch)
      sampleActions).toOption.map fun outcome ↦
        (match outcome.2.call with | .idle => true | _ => false, outcome.2.accepted.length)) =
      some (true, 1) := by
  decide

theorem engine_writes_ahead_sample :
    ∃ (answers : List (Option (Except EngineError Unit))) (system : EngineSystem 1 1 1 1 3)
      (transitions : List (Gateway.Transition 1 1 1 1)),
      execute (EngineSystem.step (fun _ ↦ 0) 1 1 1)
        (EngineSystem.fresh 3 EngineBuilder.sampleBuilder .everyBatch) EngineSystem.sampleActions =
        .ok (answers, system) ∧
      system.accepted.length = 1 ∧
      system.Agreement (fun _ ↦ 0) EngineBuilder.sampleBuilder.gateway transitions := by
  obtain ⟨answers, system, hrun, _, hidle⟩ := engine_writes_ahead (fun _ ↦ 0)
    ⟨by decide, by decide, by decide⟩ EngineBuilder.sampleBuilder_new
    (EngineSystem.fresh_starts (by decide) (show 1 + 2 ≤ 3 by decide) one_ne_zero EngineBuilder.sampleBuilder
      .everyBatch) 1
    EngineSystem.sampleActions
  have hend := EngineSystem.sampleActions_idle
  rw [hrun] at hend
  obtain ⟨hcall, hlength⟩ := Prod.mk.inj (Option.some.inj hend)
  obtain ⟨⟨transitions, hagreement⟩, _⟩ := hidle (by
    cases hphase : system.call with
    | idle => rfl
    | admitting _ _ | enqueueing _ _ | applying _ | closing _ => simp [hphase] at hcall)
  exact ⟨answers, system, transitions, hrun, hlength, hagreement⟩

end DeterministicExchange
