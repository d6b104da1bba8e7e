import DeterministicExchange.Engine.WriteAhead
import DeterministicExchange.Gateway.OrderLimits

/-!
# Crash recovery

An engine and its worker may stop at any point: between two accesses of a call,
inside a batch, or in the middle of a record. The whole records in the sink and
the snapshot of the first gateway recover what the engine had then admitted.
-/

namespace DeterministicExchange

open Machine Codec Book Events Journal Recovery

variable {ACCOUNTS RISK_ORDERS LEVELS ORDERS BATCH : ℕ}

/-! ## Whole records in the sink -/

/-- The whole records among the first bytes of a journal are its first records. -/
theorem take_of_isPrefix_journalBytes {records : List JournalRecord} {bytes : Bytes}
    (h : bytes <+: journalBytes records) :
    bytes.take (recordSize * (bytes.length / recordSize)) =
        journalBytes (records.take (bytes.length / recordSize)) ∧
      bytes.length / recordSize ≤ records.length := by
  have hle : bytes.length ≤ recordSize * records.length := by
    rw [← length_journalBytes]
    exact h.length_le
  have hcount : bytes.length / recordSize ≤ records.length :=
    (Nat.div_le_iff_le_mul_add_pred (by decide)).mpr (by omega)
  refine ⟨?_, hcount⟩
  have hwhole : bytes.take (recordSize * (bytes.length / recordSize)) <+: journalBytes records :=
    (List.take_prefix _ _).trans h
  have hrecords : journalBytes (records.take (bytes.length / recordSize)) <+: journalBytes records :=
    journalBytes_mono (List.take_prefix _ _)
  apply (List.prefix_of_prefix_length_le hwhole hrecords _).eq_of_length
  · rw [length_journalBytes, List.length_take, List.length_take, Nat.min_eq_left hcount,
      Nat.min_eq_left (Nat.mul_div_le _ _)]
  · rw [length_journalBytes, List.length_take, List.length_take, Nat.min_eq_left hcount,
      Nat.min_eq_left (Nat.mul_div_le _ _)]

namespace EngineSystem

variable {crc32c : Bytes → U32} {REPORTS EVENTS JOURNAL_BATCH : ℕ}
  {initial : Gateway ACCOUNTS RISK_ORDERS LEVELS ORDERS}
  {system : EngineSystem ACCOUNTS RISK_ORDERS LEVELS ORDERS BATCH}
  {transitions : List (Gateway.Transition ACCOUNTS RISK_ORDERS LEVELS ORDERS)}

/-- The commands that the engine has admitted: those applied, and the one in flight. -/
def admissions (system : EngineSystem ACCOUNTS RISK_ORDERS LEVELS ORDERS BATCH) : List Command :=
  system.applied ++ system.inFlight

/-- The gateway would process the command in flight. -/
theorem Sound.history_inFlight (hc : Capacities ACCOUNTS RISK_ORDERS LEVELS ORDERS)
    (h : Sound crc32c REPORTS EVENTS initial system transitions) :
    ∃ last, Gateway.History REPORTS initial system.admissions last := by
  obtain ⟨⟨engine, phase, received⟩, journal, failed, configuration, call, accepted, applied⟩ := system
  have happlied : Gateway.History REPORTS initial applied engine.gateway := h.history
  have hnone : ∃ last, Gateway.History REPORTS initial (applied ++ []) last :=
    ⟨engine.gateway, by rwa [List.append_nil]⟩
  cases call with
  | idle | admitting _ _ | enqueueing _ _ | closing _ => exact hnone
  | applying command =>
    cases phase with
    | idle | processed _ _ _ _ _ _ => exact hnone
    | admitted identity sequence request =>
      obtain ⟨_, _, hphase | ⟨_, hphase, _⟩⟩ := h.engaged
      · obtain ⟨rfl, rfl, rfl⟩ := Phase.admitted.inj hphase
        obtain ⟨other, _, _, rfl, haccepts, _⟩ := h.events.ready
        obtain ⟨logical, hrep, _⟩ := h.events.represents
        obtain ⟨gateway', reports', hrun, _⟩ := hrep.processCommand hc command (ReportBuffer.new REPORTS)
        exact ⟨gateway', happlied.append (.cons haccepts hrun .nil)⟩
      · simp [Phase.ofTransition] at hphase

/-- What was admitted up to a crash can be cut after any number of commands. -/
theorem Sound.history_take (hc : Capacities ACCOUNTS RISK_ORDERS LEVELS ORDERS)
    (h : Sound crc32c REPORTS EVENTS initial system transitions) (count : ℕ) :
    ∃ direct, Gateway.History REPORTS initial (system.admissions.take count) direct := by
  obtain ⟨last, hhistory⟩ := h.history_inFlight hc
  rw [← List.take_append_drop count system.admissions] at hhistory
  obtain ⟨direct, hdirect, _⟩ := hhistory.of_append
  exact ⟨direct, hdirect⟩

end EngineSystem

/-- The whole records in the sink. -/
def EngineSystem.wholeRecords (system : EngineSystem ACCOUNTS RISK_ORDERS LEVELS ORDERS BATCH) : ℕ :=
  system.journal.sink.bytes.length / recordSize

/-- The watermarks do not promise more than whole records in the sink. -/
theorem wholeRecords_of_persisted {crc32c : Bytes → U32} {first : ℕ} {records : List JournalRecord}
    {journal : Journal.System} (h : Persisted crc32c first records journal) :
    journal.channel.status.nextDurableSequence.val - first ≤ journal.sink.bytes.length / recordSize ∧
      journal.channel.status.nextWrittenSequence.val - first ≤ journal.sink.bytes.length / recordSize := by
  have hbytes := h.written.length_le
  have hwritten := h.written_le
  have hdurable := h.durable_le
  rw [length_journalBytes, List.length_take, Nat.min_eq_left (by omega)] at hbytes
  have hcount : journal.channel.status.nextWrittenSequence.val - first ≤
      journal.sink.bytes.length / recordSize := by
    rw [Nat.le_div_iff_mul_le (by decide), Nat.mul_comm]
    exact hbytes
  exact ⟨by omega, hcount⟩

/-- A crash at any point of any run. The sink holds whole records of the first commands that the engine
has admitted: at least those that the watermarks promise, at most one more than were applied. Recovery
from them and the snapshot of the first gateway leads to the state that these commands lead to. -/
theorem crash_recovers (crc32c : Bytes → U32) (sha256 : Bytes → Digest)
    (hc : IndexCapacities ACCOUNTS RISK_ORDERS LEVELS ORDERS) {REPORTS JOURNAL_BATCH : ℕ}
    {instrument : InstrumentId} {accounts : List (AccountId × Risk.RiskLimits)}
    {builder : EngineBuilder ACCOUNTS RISK_ORDERS LEVELS ORDERS}
    (hnew : EngineBuilder.new REPORTS instrument accounts = .ok (.ok builder))
    {start : EngineSystem ACCOUNTS RISK_ORDERS LEVELS ORDERS BATCH}
    (hstart : EngineSystem.Starts REPORTS JOURNAL_BATCH builder start) (EVENTS : ℕ)
    (actions : List EngineAction) :
    ∃ (answers : List (Option (Except EngineError Unit)))
      (system : EngineSystem ACCOUNTS RISK_ORDERS LEVELS ORDERS BATCH) (snapshot : Snapshot)
      (direct recovered : Gateway ACCOUNTS RISK_ORDERS LEVELS ORDERS) (state : GatewayState LEVELS ORDERS),
      execute (EngineSystem.step crc32c REPORTS EVENTS JOURNAL_BATCH) start actions =
        .ok (answers, system) ∧
      encodeSnapshot sha256 builder.gateway 0 = .ok (.ok snapshot) ∧
      Gateway.History REPORTS builder.gateway (system.admissions.take system.wholeRecords) direct ∧
      recoverSnapshotAndTail crc32c sha256 REPORTS snapshot.bytes
        (system.journal.sink.bytes.take (recordSize * system.wholeRecords)) = .ok (.ok recovered) ∧
      recovered.exportState = .ok state ∧ direct.exportState = .ok state ∧
      system.journal.channel.status.nextDurableSequence.val - 1 ≤ system.wholeRecords ∧
      system.journal.channel.status.nextWrittenSequence.val - 1 ≤ system.wholeRecords ∧
      system.wholeRecords ≤ system.applied.length + system.inFlight.length ∧
      system.inFlight.length ≤ 1 := by
  obtain ⟨hsized, hstarted⟩ := EngineBuilder.new_started hnew
  have hcapacities : Capacities ACCOUNTS RISK_ORDERS LEVELS ORDERS :=
    ⟨hsized.orders, hc.book, hc.accounts, hc.reservations⟩
  have horders : ORDERS < 2 ^ 32 := by
    have hbook := hc.book
    have hpos := hsized.orders
    unfold indexCapacity orderIndexPlanes at hbook
    have hle := Nat.le_mul_of_pos_left ORDERS hsized.levels
    omega
  obtain ⟨hordinals, hbatch, hworker, hsound, _⟩ :=
    hstart.sound hcapacities (.start (.inl hstarted)) crc32c EVENTS
  obtain ⟨answers, system, transitions, hrun, hsound', _⟩ :=
    hsound.executes hcapacities hordinals hbatch hworker actions
  obtain ⟨_, _, _, hjournal⟩ := hsound'.journal
  obtain ⟨hwhole, hcount⟩ := take_of_isPrefix_journalBytes hjournal.persisted.stored
  have hfirst : builder.gateway.expectedSequence.val = 1 := by
    obtain ⟨risk, instrument, _, hgateway⟩ := hstarted
    rw [hgateway]
    rfl
  obtain ⟨hdurable, hwritten⟩ := wholeRecords_of_persisted hjournal.persisted
  rw [hfirst] at hdurable hwritten
  have hlimits : builder.gateway.WithinLimits := by
    obtain ⟨logical, hrep, _, hlimited⟩ := (Gateway.Sessions.start hstarted).limited hcapacities
    exact hrep.withinLimits_iff.mpr hlimited
  obtain ⟨direct, hdirect⟩ := hsound'.history_take hcapacities system.wholeRecords
  have hrecords : List.Forall₂ (Carries crc32c) (system.accepted.take system.wholeRecords)
      (system.admissions.take system.wholeRecords) :=
    List.forall₂_take system.wholeRecords hsound'.journaled.carries
  obtain ⟨applied, snapshot, state, recovered, happlied, hsnapshot, hrecover, hstate, hstate'⟩ :=
    recover_of_history crc32c sha256 hcapacities horders hstarted .nil hdirect hlimits hrecords
  obtain rfl : applied = 0 := Fin.ext happlied
  refine ⟨answers, system, snapshot, direct, recovered, state, hrun, hsnapshot, hdirect, ?_, hstate, hstate',
    hdurable, hwritten, ?_, ?_⟩
  · unfold EngineSystem.wholeRecords at hrecover ⊢
    rw [hwhole]
    exact hrecover
  · rw [← List.length_append, ← hsound'.journaled.length_eq]
    exact hcount
  · unfold EngineSystem.inFlight
    split <;> simp

/-- The first command is applied and stored. The second is journaled when the engine stops, and the worker
fails after ten bytes of its record. -/
def EngineSystem.crashActions : List EngineAction :=
  [.call (.command Gateway.sampleOrder), .advance, .advance, .persist .drainBatch,
    .persist .advance, .advance, .advance, .persist .advance, .persist (.write (.count 64 0)),
    .call (.command (Gateway.sampleCancel 2)), .advance, .advance, .persist .advance,
    .persist (.flush true), .persist .advance, .persist .drainBatch, .persist .advance,
    .persist .advance, .persist (.write (.failed 10))]

theorem EngineSystem.crashActions_torn :
    ((execute (step (fun _ ↦ 0) 1 2 1) (fresh 3 EngineBuilder.sampleBuilder .everyBatch)
      crashActions).toOption.map fun outcome ↦
        (outcome.2.wholeRecords, outcome.2.journal.sink.bytes.length, outcome.2.inFlight)) =
      some (1, 74, [Gateway.sampleCancel 2]) := by
  decide

theorem crash_recovers_sample :
    ∃ (system : EngineSystem 1 1 1 1 3) (snapshot : Snapshot) (direct recovered : Gateway 1 1 1 1)
      (state : GatewayState 1 1),
      system.inFlight = [Gateway.sampleCancel 2] ∧
      Gateway.History 1 EngineBuilder.sampleBuilder.gateway (system.admissions.take 1) direct ∧
      recoverSnapshotAndTail (fun _ ↦ 0) (fun _ ↦ ⟨List.replicate 32 0, rfl⟩) 1 snapshot.bytes
        (system.journal.sink.bytes.take recordSize) = .ok (.ok recovered) ∧
      recovered.exportState = .ok state ∧ direct.exportState = .ok state := by
  obtain ⟨answers, system, snapshot, direct, recovered, state, hrun, _, hdirect,
    hrecover, hstate, hstate', _⟩ :=
    crash_recovers (fun _ ↦ 0) (fun _ ↦ ⟨List.replicate 32 0, rfl⟩) ⟨by decide, by decide, by decide⟩
      EngineBuilder.sampleBuilder_new
      (EngineSystem.fresh_starts (by decide)
        (show 1 + 2 ≤ 3 by decide) one_ne_zero EngineBuilder.sampleBuilder
        .everyBatch) 2 EngineSystem.crashActions
  have htorn := EngineSystem.crashActions_torn
  rw [hrun] at htorn
  obtain ⟨hwhole, hrest⟩ := Prod.mk.inj (Option.some.inj htorn)
  obtain ⟨_, hflight⟩ := Prod.mk.inj hrest
  dsimp only at hwhole
  rw [hwhole] at hdirect hrecover
  exact ⟨system, snapshot, direct, recovered, state, hflight, hdirect, hrecover, hstate, hstate'⟩

end DeterministicExchange
