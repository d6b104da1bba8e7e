import DeterministicExchange.Engine.Config
import DeterministicExchange.Engine.WriteAhead
import DeterministicExchange.Journal.Completion

/-!
# Checkpoints

A snapshot of an engine is cut where admission has ended and the journal is on disk
to its end. The words of the journal status are loaded one at a time, while consumer
and worker go on; the engine itself is not called in between.
-/

namespace DeterministicExchange

open Machine Codec Events Recovery

inductive CheckpointError where
  | admissionOpen
  | persistencePending
  | failed
  | sequenceInvariant
  | snapshot (error : SnapshotError)
  deriving DecidableEq

variable {ACCOUNTS RISK_ORDERS LEVELS ORDERS BATCH : ℕ}

/-- What a snapshot returns for the status that it has read. -/
def Engine.snapshot (sha256 : Bytes → Digest) (engine : Engine ACCOUNTS RISK_ORDERS LEVELS ORDERS BATCH)
    (status : Journal.JournalStatus) : Run (Except CheckpointError Snapshot) :=
  let health := engine.health status
  if health.state = .failed then .ok (.error .failed)
  else if engine.journal.isSome then .ok (.error .admissionOpen)
  else if !health.journal.shutdownComplete then .ok (.error .persistencePending)
  else if health.journal.nextWrittenSequence ≠ health.nextSequence ∨
      health.journal.nextDurableSequence ≠ health.nextSequence then .ok (.error .sequenceInvariant)
  else
    match Unsigned.checkedSub health.nextSequence 1 with
    | none => .ok (.error .sequenceInvariant)
    | some applied => do
      match ← encodeSnapshot sha256 engine.events.gateway applied with
      | .error error => return .error (.snapshot error)
      | .ok snapshot => return .ok snapshot

/-- An engine with its queues, and the snapshot that is being read. -/
structure CheckpointSystem (ACCOUNTS RISK_ORDERS LEVELS ORDERS BATCH : ℕ) where
  engine : EngineSystem ACCOUNTS RISK_ORDERS LEVELS ORDERS BATCH
  loading : Journal.Loading

/-- Steps of the engine and around it, and the next load of a snapshot. -/
inductive CheckpointAction where
  | engine (action : EngineAction)
  | snapshot

/-- What calls of the engine and of the worker return. -/
inductive CheckpointAnswer where
  | replied (reply : Except EngineError Unit)
  | admissionStopped
  | persisted (event : Journal.Event)
  | captured (result : Except CheckpointError Snapshot)

/-- While a snapshot is read, only consumer and worker take steps. -/
def EngineAction.permitted : EngineAction → Journal.Loading → Bool
  | _, .idle | .pop, _ | .persist _, _ => true
  | _, _ => false

namespace CheckpointSystem

variable (crc32c : Bytes → U32) (sha256 : Bytes → Digest) (REPORTS EVENTS JOURNAL_BATCH : ℕ)

/-- What is returned by a step of the engine, or around it. -/
def answer (engine : EngineSystem ACCOUNTS RISK_ORDERS LEVELS ORDERS BATCH) (action : EngineAction)
    (reply : Option (Except EngineError Unit)) : Option CheckpointAnswer :=
  match action with
  | .persist turn => (engine.journal.step crc32c JOURNAL_BATCH turn).map fun outcome ↦ .persisted outcome.1
  | .stopAdmission =>
    match engine.call with
    | .idle => some .admissionStopped
    | _ => none
  | _ => reply.map .replied

/-- A snapshot begins between two calls. -/
def load (system : CheckpointSystem ACCOUNTS RISK_ORDERS LEVELS ORDERS BATCH) :
    Run (Option CheckpointAnswer × CheckpointSystem ACCOUNTS RISK_ORDERS LEVELS ORDERS BATCH) :=
  match system.engine.call with
  | .idle =>
    match system.loading.load system.engine.journal.channel.status with
    | (none, loading) => .ok (none, { system with loading := loading })
    | (some status, loading) => do
      let result ← system.engine.engine.snapshot sha256 status
      return (some (.captured result), { system with loading := loading })
  | _ => .ok (none, system)

def step (system : CheckpointSystem ACCOUNTS RISK_ORDERS LEVELS ORDERS BATCH) :
    CheckpointAction →
      Run (Option CheckpointAnswer × CheckpointSystem ACCOUNTS RISK_ORDERS LEVELS ORDERS BATCH)
  | .engine action =>
    if action.permitted system.loading then do
      let (reply, engine) ← system.engine.step crc32c REPORTS EVENTS JOURNAL_BATCH action
      return (answer crc32c JOURNAL_BATCH system.engine action reply, { system with engine := engine })
    else .ok (none, system)
  | .snapshot => system.load sha256

end CheckpointSystem

/-! ## The journal under the calls of an engine -/

namespace EngineSystem

variable {crc32c : Bytes → U32} {REPORTS EVENTS JOURNAL_BATCH : ℕ}
  {system system' : EngineSystem ACCOUNTS RISK_ORDERS LEVELS ORDERS BATCH}

/-- Neither the worker nor what it has published changes, and a writer that is gone does not come back. -/
structure LeavesWorker (journal journal' : Journal.System) : Prop where
  worker : journal'.worker = journal.worker
  poisoned : journal'.channel.status.poisoned = journal.channel.status.poisoned
  complete : journal'.channel.status.shutdownComplete = journal.channel.status.shutdownComplete
  writer : journal.writer = none → journal'.writer = none

theorem LeavesWorker.refl (journal : Journal.System) : LeavesWorker journal journal := ⟨rfl, rfl, rfl, id⟩

theorem LeavesWorker.of_eq {journal journal' : Journal.System} (h : journal' = journal) :
    LeavesWorker journal journal' := h ▸ .refl journal

theorem LeavesWorker.guarded {journal journal' : Journal.System} (h : LeavesWorker journal journal')
    (hguarded : Journal.Guarded journal) : Journal.Guarded journal' := by
  obtain ⟨hworker, hpoisoned, hcomplete, _⟩ := h
  refine ⟨?_, fun hset ↦ ?_⟩
  · rw [hworker, hpoisoned]
    exact hguarded.poisoned
  · obtain ⟨hunpoisoned, hrunning, hreturned, hresting⟩ := hguarded.complete (hcomplete ▸ hset)
    exact ⟨hpoisoned.trans hunpoisoned, by rw [hworker]; exact hrunning, by rw [hworker]; exact hreturned,
      by rw [hworker]; exact hresting⟩

theorem leavesWorker_closeJournal (system : EngineSystem ACCOUNTS RISK_ORDERS LEVELS ORDERS BATCH) :
    LeavesWorker system.journal system.closeJournal.journal ∧ system.closeJournal.journal.writer = none := by
  unfold closeJournal Journal.System.close
  cases hwriter : system.journal.writer with
  | none => exact ⟨.refl _, hwriter⟩
  | some writer => exact ⟨⟨rfl, rfl, rfl, fun _ ↦ rfl⟩, rfl⟩

theorem begin_journal (system : EngineSystem ACCOUNTS RISK_ORDERS LEVELS ORDERS BATCH) (command : Command)
    (payload : Bytes) : (system.begin command payload).2.journal = system.journal := by
  unfold EngineSystem.begin
  split
  · rfl
  split
  · rfl
  split
  · rfl
  split
  · rfl
  split <;> rfl

theorem admitted_journal (system : EngineSystem ACCOUNTS RISK_ORDERS LEVELS ORDERS BATCH) (command : Command)
    (payload : Bytes) (reply : Option (Except EventEngineError Unit)) :
    (system.admitted command payload reply).2.journal = system.journal := by
  unfold admitted
  split <;> rfl

theorem processed_journal (system : EngineSystem ACCOUNTS RISK_ORDERS LEVELS ORDERS BATCH) (command : Command)
    (events : EventSystem ACCOUNTS RISK_ORDERS LEVELS ORDERS BATCH)
    (reply : Option (Except EventEngineError Unit)) :
    (system.processed command events reply).2.journal = system.journal := by
  unfold processed
  split <;> rfl

theorem leavesWorker_enqueued (system : EngineSystem ACCOUNTS RISK_ORDERS LEVELS ORDERS BATCH)
    (command : Command) (payload : Bytes) :
    LeavesWorker system.journal
      (system.enqueued crc32c command (system.journal.enqueue crc32c payload)).2.journal := by
  unfold Journal.System.enqueue
  cases hwriter : system.journal.writer with
  | none => exact .refl _
  | some writer =>
    rcases henqueue : writer.enqueue crc32c system.journal.channel.queue payload with ⟨result, writer', queue⟩
    simp only [Option.map_some, henqueue]
    have hwriter' : system.journal.writer = none → some writer' = none := by
      rw [hwriter]
      exact nofun
    cases result with
    | error error => exact ⟨rfl, rfl, rfl, hwriter'⟩
    | ok sequence => exact ⟨rfl, rfl, rfl, hwriter'⟩

/-- The steps of an engine and of its consumer leave the worker alone. -/
theorem leavesWorker_of_step {action : EngineAction} {reply : Option (Except EngineError Unit)}
    (hstep : system.step crc32c REPORTS EVENTS JOURNAL_BATCH action = .ok (reply, system'))
    (haction : ∀ turn, action ≠ .persist turn) : LeavesWorker system.journal system'.journal := by
  cases action with
  | persist turn => exact absurd rfl (haction turn)
  | pop =>
    obtain ⟨⟨popped, events⟩, _, heq⟩ := Run.bind_eq_ok.mp hstep
    obtain ⟨_, rfl⟩ := Prod.mk.inj (Except.ok.inj heq)
    exact .refl _
  | stopAdmission =>
    obtain ⟨_, rfl⟩ := Prod.mk.inj (Except.ok.inj hstep)
    unfold EngineSystem.stopAdmission
    split
    · exact system.leavesWorker_closeJournal.1
    · exact .refl _
  | call request =>
    have hrequest : system.request request = .ok (reply, system') := hstep
    unfold EngineSystem.request at hrequest
    split at hrequest
    · obtain ⟨resolved, _, heq⟩ := Run.bind_eq_ok.mp hrequest
      split at heq
      · obtain ⟨_, rfl⟩ := Prod.mk.inj (Except.ok.inj heq)
        exact .refl _
      · have hsystem : _ = system' := congrArg Prod.snd (Except.ok.inj heq)
        rw [← hsystem]
        exact .of_eq (system.begin_journal _ _)
    · obtain ⟨_, rfl⟩ := Prod.mk.inj (Except.ok.inj hrequest)
      exact .refl _
  | advance =>
    have hadvance : system.advance crc32c REPORTS EVENTS = .ok (reply, system') := hstep
    unfold EngineSystem.advance at hadvance
    split at hadvance
    · obtain ⟨_, rfl⟩ := Prod.mk.inj (Except.ok.inj hadvance)
      exact .refl _
    · obtain ⟨⟨answer, events⟩, _, heq⟩ := Run.bind_eq_ok.mp hadvance
      have hsystem : _ = system' := congrArg Prod.snd (Except.ok.inj heq)
      rw [← hsystem]
      exact .of_eq (admitted_journal _ _ _ _)
    · have hsystem : _ = system' := congrArg Prod.snd (Except.ok.inj hadvance)
      rw [← hsystem]
      exact system.leavesWorker_enqueued _ _
    · obtain ⟨⟨answer, events⟩, _, heq⟩ := Run.bind_eq_ok.mp hadvance
      have hsystem : _ = system' := congrArg Prod.snd (Except.ok.inj heq)
      rw [← hsystem]
      exact .of_eq (processed_journal _ _ _ _)
    · obtain ⟨_, rfl⟩ := Prod.mk.inj (Except.ok.inj hadvance)
      exact system.leavesWorker_closeJournal.1

/-- Without a failure, a closed engine is between two calls. -/
theorem Sound.idle_of_closed {initial : Gateway ACCOUNTS RISK_ORDERS LEVELS ORDERS}
    {transitions : List (Gateway.Transition ACCOUNTS RISK_ORDERS LEVELS ORDERS)}
    (h : Sound crc32c REPORTS EVENTS initial system transitions) (hrunning : system.failed = false)
    (hclosed : system.journal.writer = none) : system.call = .idle := by
  have hengaged := h.engaged
  unfold Engaged at hengaged
  cases hcall : system.call with
  | idle => rfl
  | admitting _ _ | enqueueing _ _ | applying _ | closing _ => simp [hcall, hclosed, hrunning] at hengaged

end EngineSystem

/-! ## What a snapshot checks -/

/-- Sound gateways are encoded at their own cut. -/
theorem Gateway.Sound.exists_snapshot (sha256 : Bytes → Digest)
    (hc : Capacities ACCOUNTS RISK_ORDERS LEVELS ORDERS) (hlevels : LEVELS < 2 ^ 32)
    (horders : ORDERS < 2 ^ 32)
    {gateway : Gateway ACCOUNTS RISK_ORDERS LEVELS ORDERS} (h : gateway.Sound) {applied : U64}
    (hval : applied.val + 1 = gateway.expectedSequence.val) :
    ∃ snapshot, encodeSnapshot sha256 gateway applied = .ok (.ok snapshot) ∧
      snapshot.appliedSequence = applied := by
  obtain ⟨logical, hrep, hinvariant⟩ := h
  have hcanonical := stateCanonical_of_invariant hc.index hlevels horders hinvariant hrep.risk.length_le.1
    hrep.risk.length_le.2
  obtain ⟨snapshot, hsnapshot, happlied, _⟩ := Recovery.exists_snapshot sha256 hc.index hlevels horders
    (hrep.exportState hc.index.addressable) hcanonical
    (hval.trans (congrArg Fin.val hrep.expectedSequence))
  exact ⟨snapshot, hsnapshot, happlied⟩

/-- What a snapshot requires of the engine, and of the status that it has read. -/
structure Engine.Ready (engine : Engine ACCOUNTS RISK_ORDERS LEVELS ORDERS BATCH)
    (status : Journal.JournalStatus) : Prop where
  running : engine.failed = false
  unpoisoned : status.poisoned = false
  closed : engine.journal = none
  complete : status.shutdownComplete = true
  written : status.nextWrittenSequence = engine.expectedSequence
  durable : status.nextDurableSequence = engine.expectedSequence

theorem Engine.Ready.health {engine : Engine ACCOUNTS RISK_ORDERS LEVELS ORDERS BATCH}
    {status : Journal.JournalStatus} (h : engine.Ready status) : (engine.health status).state = .stopped := by
  unfold Engine.health
  simp [h.running, h.unpoisoned, h.closed, h.complete]

/-- A result that is a snapshot at the cut of the engine, if and only if the engine is ready. -/
structure Engine.Captures (sha256 : Bytes → Digest) (engine : Engine ACCOUNTS RISK_ORDERS LEVELS ORDERS BATCH)
    (status : Journal.JournalStatus) (result : Except CheckpointError Snapshot) : Prop where
  of_ready : engine.Ready status → ∃ snapshot, result = .ok snapshot
  ready : ∀ snapshot, result = .ok snapshot → engine.Ready status ∧
    snapshot.appliedSequence.val + 1 = engine.expectedSequence.val ∧
    encodeSnapshot sha256 engine.events.gateway snapshot.appliedSequence = .ok (.ok snapshot)

theorem Engine.Captures.of_not_ready {sha256 : Bytes → Digest}
    {engine : Engine ACCOUNTS RISK_ORDERS LEVELS ORDERS BATCH} {status : Journal.JournalStatus}
    (h : ¬ engine.Ready status) (error : CheckpointError) : engine.Captures sha256 status (.error error) :=
  ⟨fun hready ↦ absurd hready h, nofun⟩

/-- A snapshot returns, and is taken exactly when the engine is ready. -/
theorem Engine.snapshot_captures (sha256 : Bytes → Digest)
    (hc : Capacities ACCOUNTS RISK_ORDERS LEVELS ORDERS)
    (hlevels : LEVELS < 2 ^ 32) (horders : ORDERS < 2 ^ 32)
    {engine : Engine ACCOUNTS RISK_ORDERS LEVELS ORDERS BATCH} (hsound : engine.events.gateway.Sound)
    (hpos : 0 < engine.expectedSequence.val) (status : Journal.JournalStatus) :
    ∃ result, engine.snapshot sha256 status = .ok result ∧ engine.Captures sha256 status result := by
  have hone : (1 : U64).val ≤ engine.expectedSequence.val := hpos
  have hcut : (Unsigned.monus engine.expectedSequence 1).val + 1 = engine.expectedSequence.val :=
    Nat.sub_add_cancel hone
  obtain ⟨snapshot, hsnapshot, happlied⟩ := hsound.exists_snapshot sha256 hc hlevels horders hcut
  unfold Engine.snapshot
  by_cases hfailed : (engine.health status).state = .failed
  · rw [if_pos hfailed]
    refine ⟨_, rfl, .of_not_ready (fun hready ↦ ?_) _⟩
    rw [hready.health] at hfailed
    cases hfailed
  rw [if_neg hfailed]
  by_cases hopen : engine.journal.isSome = true
  · rw [if_pos hopen]
    refine ⟨_, rfl, .of_not_ready (fun hready ↦ ?_) _⟩
    rw [hready.closed] at hopen
    cases hopen
  rw [if_neg hopen]
  by_cases hpending : status.shutdownComplete = true
  swap
  · rw [if_pos (by simpa [Engine.health] using hpending)]
    exact ⟨_, rfl, .of_not_ready (fun hready ↦ hpending hready.complete) _⟩
  rw [if_neg (by simpa [Engine.health] using hpending)]
  by_cases hbehind : status.nextWrittenSequence ≠ engine.expectedSequence ∨
      status.nextDurableSequence ≠ engine.expectedSequence
  · rw [if_pos (by exact hbehind)]
    refine ⟨_, rfl, .of_not_ready (fun hready ↦ ?_) _⟩
    exact hbehind.elim (fun hne ↦ hne hready.written) fun hne ↦ hne hready.durable
  rw [if_neg (by exact hbehind)]
  have hchecked : Unsigned.checkedSub (engine.health status).nextSequence 1 =
      some (Unsigned.monus engine.expectedSequence 1) := Unsigned.checkedSub_of_le hone
  simp only [hchecked, hsnapshot, Run.ok_bind, Run.pure_eq_ok]
  obtain ⟨hwritten, hdurable⟩ := not_or.mp hbehind
  have hhealth : engine.failed = false ∧ status.poisoned = false := by
    unfold Engine.health at hfailed
    dsimp only at hfailed
    split at hfailed
    · exact absurd rfl hfailed
    · next hsane => simpa using hsane
  have hready : engine.Ready status :=
    ⟨hhealth.1, hhealth.2, by simpa using hopen, hpending, not_not.mp hwritten,
    not_not.mp hdurable⟩
  refine ⟨_, rfl, fun _ ↦ ⟨snapshot, rfl⟩, ?_⟩
  rintro _ ⟨⟩
  rw [happlied]
  exact ⟨hready, hcut, hsnapshot⟩

/-! ## The invariant -/

namespace CheckpointSystem

variable {crc32c : Bytes → U32} {sha256 : Bytes → Digest} {REPORTS EVENTS JOURNAL_BATCH : ℕ}
  {initial : Gateway ACCOUNTS RISK_ORDERS LEVELS ORDERS}
  {answers : List (Option CheckpointAnswer)}
  {system system' : CheckpointSystem ACCOUNTS RISK_ORDERS LEVELS ORDERS BATCH}

/-- The engine is sound, and the status tells what its reader, the worker and the answers do. -/
structure Sound (crc32c : Bytes → U32) (REPORTS EVENTS : ℕ)
    (initial : Gateway ACCOUNTS RISK_ORDERS LEVELS ORDERS)
    (answers : List (Option CheckpointAnswer))
    (system : CheckpointSystem ACCOUNTS RISK_ORDERS LEVELS ORDERS BATCH) : Prop where
  engine : ∃ transitions, EngineSystem.Sound crc32c REPORTS EVENTS initial system.engine transitions
  guarded : Journal.Guarded system.engine.journal
  watch : Journal.Watch crc32c initial.expectedSequence.val system.engine.accepted [] system.engine.journal
    system.loading
  stopped : some .admissionStopped ∈ answers → system.engine.journal.writer = none
  complete : some (.persisted (.stopped (.ok ()))) ∈ answers ↔
    system.engine.journal.channel.status.shutdownComplete = true

/-- A snapshot that was taken: admission is closed without a failure, the worker has shut down, the
journal is on disk to its end, and the snapshot is that of the gateway after all its commands. -/
structure Cut (crc32c : Bytes → U32) (sha256 : Bytes → Digest) (REPORTS : ℕ)
    (initial : Gateway ACCOUNTS RISK_ORDERS LEVELS ORDERS)
    (system : CheckpointSystem ACCOUNTS RISK_ORDERS LEVELS ORDERS BATCH) (snapshot : Snapshot) : Prop where
  closed : system.engine.journal.writer = none
  running : system.engine.failed = false
  unpoisoned : system.engine.journal.channel.status.poisoned = false
  complete : system.engine.journal.channel.status.shutdownComplete = true
  written : system.engine.journal.sink.bytes = Journal.journalBytes system.engine.accepted
  flushed : system.engine.journal.sink.flushed = system.engine.journal.sink.bytes.length
  journaled : Journaled crc32c system.engine.accepted system.engine.applied
  history : Gateway.History REPORTS initial system.engine.applied system.engine.events.engine.gateway
  applied : snapshot.appliedSequence.val + 1 = system.engine.events.engine.gateway.expectedSequence.val
  nextWritten : system.engine.journal.channel.status.nextWrittenSequence =
    system.engine.events.engine.gateway.expectedSequence
  nextDurable : system.engine.journal.channel.status.nextDurableSequence =
    system.engine.events.engine.gateway.expectedSequence
  encoded : encodeSnapshot sha256 system.engine.events.engine.gateway snapshot.appliedSequence =
    .ok (.ok snapshot)

/-- Admission was stopped without a failure, the shutdown has completed, and a snapshot that is being
read has not missed it. -/
structure Quiet (system : CheckpointSystem ACCOUNTS RISK_ORDERS LEVELS ORDERS BATCH) : Prop where
  call : system.engine.call = .idle
  running : system.engine.failed = false
  closed : system.engine.journal.writer = none
  complete : (system.loading.finish system.engine.journal.channel.status).shutdownComplete = true

/-! ## Loads -/

/-- Between calls the gateway has seen all that the journal has accepted. -/
theorem Sound.expected (h : Sound crc32c REPORTS EVENTS initial answers system)
    (hcall : system.engine.call = .idle) : system.engine.events.engine.gateway.expectedSequence.val =
      initial.expectedSequence.val + system.engine.accepted.length := by
  obtain ⟨transitions, hengine⟩ := h.engine
  have hlength := hengine.journaled.length_eq
  rw [EngineSystem.inFlight_of_idle hcall, List.append_nil, hengine.applied, List.length_map] at hlength
  rw [hengine.events.expected, hlength]

/-- The status that a snapshot has read is final if it tells that the shutdown has completed. -/
theorem Sound.loaded (h : Sound crc32c REPORTS EVENTS initial answers system)
    (hcall : system.engine.call = .idle) {status : Journal.JournalStatus}
    (hstatus : status.Consistent initial.expectedSequence.val system.engine.accepted.length)
    (hcomplete : status.shutdownComplete = true) :
    status.nextWrittenSequence = system.engine.events.engine.gateway.expectedSequence ∧
      status.nextDurableSequence = system.engine.events.engine.gateway.expectedSequence := by
  obtain ⟨_, hwritten, hdurable⟩ := hstatus.complete hcomplete
  have hexpected := h.expected hcall
  exact ⟨Fin.ext (hwritten.trans hexpected.symm), Fin.ext (hdurable.trans hexpected.symm)⟩

/-- A load answers nothing until the last one, which returns a snapshot if the engine is ready for it. -/
theorem Sound.load (sha256 : Bytes → Digest)
    (hc : Capacities ACCOUNTS RISK_ORDERS LEVELS ORDERS) (hlevels : LEVELS < 2 ^ 32)
    (horders : ORDERS < 2 ^ 32) (hpos : 0 < initial.expectedSequence.val)
    (h : Sound crc32c REPORTS EVENTS initial answers system) :
    ∃ reply system', system.load sha256 = .ok (reply, system') ∧
      Sound crc32c REPORTS EVENTS initial (answers ++ [reply]) system' ∧ system'.engine = system.engine ∧
      (∀ snapshot, reply = some (.captured (.ok snapshot)) →
        Cut crc32c sha256 REPORTS initial system' snapshot) ∧
      (Quiet system → Quiet system' ∧
        ∀ result, reply = some (.captured result) → ∃ snapshot, result = .ok snapshot) := by
  have hsilent (reply : Option CheckpointAnswer) (hstopped : reply ≠ some .admissionStopped)
      (hpersisted : reply ≠ some (.persisted (.stopped (.ok ())))) {loading : Journal.Loading}
      (hwatch : Journal.Watch crc32c initial.expectedSequence.val system.engine.accepted []
        system.engine.journal loading) :
      Sound crc32c REPORTS EVENTS initial (answers ++ [reply]) { system with loading := loading } := by
    refine ⟨h.engine, h.guarded, hwatch, fun hmem ↦ ?_, ?_⟩
    · rcases List.mem_append.mp hmem with hmem | hmem
      · exact h.stopped hmem
      · exact absurd (List.mem_singleton.mp hmem).symm hstopped
    · rw [← h.complete, List.mem_append, List.mem_singleton]
      exact ⟨fun hmem ↦ hmem.resolve_right fun heq ↦ hpersisted heq.symm, .inl⟩
  unfold CheckpointSystem.load
  split
  swap
  · next hbusy =>
    refine ⟨none, system, rfl, hsilent none nofun nofun h.watch, rfl, nofun, fun hquiet ↦ ⟨hquiet, nofun⟩⟩
  next hcall =>
  obtain ⟨transitions, hengine⟩ := h.engine
  rcases hload : system.loading.load system.engine.journal.channel.status with ⟨returned, loading⟩
  cases returned with
  | none =>
    have hwatch := h.watch.load hload
    rw [Option.toList_none, List.append_nil] at hwatch
    refine ⟨none, { system with loading := loading }, rfl, hsilent none nofun nofun hwatch, rfl, nofun,
      fun hquiet ↦ ⟨⟨hquiet.call, hquiet.running, hquiet.closed, ?_⟩, nofun⟩⟩
    exact (congrArg Journal.JournalStatus.shutdownComplete (Journal.Loading.finish_of_load hload)).trans
      hquiet.complete
  | some status =>
    obtain ⟨rfl, rfl⟩ := Journal.Loading.load_eq_some hload
    have hpoisoned := Journal.Loading.load_poisoned hload
    set status := system.loading.finish system.engine.journal.channel.status with hstatus
    have hexpected := hengine.events.expected
    obtain ⟨_, _, _, hcoherent⟩ := hengine.journal
    have hpos' : 0 < system.engine.engine.expectedSequence.val := by
      show 0 < system.engine.events.engine.gateway.expectedSequence.val
      omega
    have hgateway : system.engine.engine.events.gateway.Sound := hengine.events.represents
    obtain ⟨result, hresult, hcaptures⟩ :=
      Engine.snapshot_captures sha256 hc hlevels horders hgateway hpos' status
    refine ⟨some (.captured result), { system with loading := .idle }, ?_,
      hsilent (some (.captured result)) nofun nofun (.start hcoherent),
      rfl, ?_, ?_⟩
    · simp only [hresult, Run.ok_bind, Run.pure_eq_ok]
    · rintro snapshot ⟨⟩
      obtain ⟨hready, happlied, hencoded⟩ := hcaptures.ready snapshot rfl
      have hcomplete := h.watch.ahead.complete hready.complete
      obtain ⟨_, hwriter, hbytes, hflushed, _, _⟩ := hcoherent.persisted.complete hcomplete
      obtain ⟨hwritten, hdurable⟩ := h.loaded hcall (Journal.Watch.of_consistent hcoherent rfl) hcomplete
      have hjournaled := hengine.journaled
      rw [EngineSystem.inFlight_of_idle hcall, List.append_nil] at hjournaled
      exact ⟨hwriter, hready.running, hpoisoned.symm.trans hready.unpoisoned, hcomplete, hbytes, hflushed,
        hjournaled, hengine.history, happlied, hwritten, hdurable, hencoded⟩
    · intro hquiet
      have hcomplete := h.watch.ahead.complete hquiet.complete
      obtain ⟨hwritten, hdurable⟩ := h.loaded hcall h.watch.present hquiet.complete
      refine ⟨⟨hquiet.call, hquiet.running, hquiet.closed, hcomplete⟩, ?_⟩
      rintro _ ⟨⟩
      exact hcaptures.of_ready ⟨hquiet.running, hpoisoned.trans (h.guarded.complete hcomplete).unpoisoned,
        hquiet.closed, hquiet.complete, hwritten, hdurable⟩

/-! ## Steps of the engine, its consumer and its worker -/

/-- An answer that does not tell of a stop leaves what the answers tell. -/
theorem Sound.silent (h : Sound crc32c REPORTS EVENTS initial answers system) :
    Sound crc32c REPORTS EVENTS initial (answers ++ [none]) system := by
  refine ⟨h.engine, h.guarded, h.watch, fun hmem ↦ h.stopped ?_, ?_⟩
  · simpa using hmem
  · rw [← h.complete]
    simp

/-- A turn of the worker keeps a snapshot that is being read consistent. -/
theorem Sound.persist (hworker : 0 < JOURNAL_BATCH) (h : Sound crc32c REPORTS EVENTS initial answers system)
    (turn : Journal.WorkerTurn) :
    ∃ engine', system.engine.step crc32c REPORTS EVENTS JOURNAL_BATCH (.persist turn) = .ok (none, engine') ∧
      Sound crc32c REPORTS EVENTS initial
        (answers ++ [answer crc32c JOURNAL_BATCH system.engine (.persist turn) none])
        { system with engine := engine' } ∧
      EngineSystem.Aside system.engine engine' ∧
      system.engine.journal.channel.status.Precedes engine'.journal.channel.status := by
  obtain ⟨transitions, hengine⟩ := h.engine
  obtain ⟨engine', hstep, hsound, haside⟩ := hengine.persist hworker turn
  obtain rfl : system.engine.persist crc32c JOURNAL_BATCH turn = engine' :=
    (Prod.mk.inj (Except.ok.inj hstep)).2
  cases hturn : system.engine.journal.step crc32c JOURNAL_BATCH turn with
  | none =>
    have hsame : system.engine.persist crc32c JOURNAL_BATCH turn = system.engine := by
      unfold EngineSystem.persist
      rw [hturn]
    have hanswer : answer crc32c JOURNAL_BATCH system.engine (.persist turn) none = none := by
      unfold answer
      dsimp only
      rw [hturn]
      rfl
    rw [hsame] at haside
    rw [hanswer]
    exact ⟨_, hstep.trans (by rw [hsame]), h.silent, haside, .refl _⟩
  | some outcome =>
    obtain ⟨event, journal⟩ := outcome
    have hnext : system.engine.persist crc32c JOURNAL_BATCH turn =
        { system.engine with journal := journal } := by
      unfold EngineSystem.persist
      rw [hturn]
    have hanswer : answer crc32c JOURNAL_BATCH system.engine (.persist turn) none =
        some (.persisted event) := by
      unfold answer
      dsimp only
      rw [hturn]
      rfl
    obtain ⟨_, _, _, hcoherent⟩ := hengine.journal
    have haccepted := (Journal.System.bystands_step turn hturn).1
    have hwatch := h.watch.step hworker hturn
    rw [haccepted, Option.toList_none, List.append_nil] at hwatch
    rw [hnext] at hsound haside
    rw [hanswer]
    refine ⟨_, hstep.trans (by rw [hnext]), ⟨⟨transitions, hsound⟩,
      hcoherent.guarded_step hworker h.guarded hturn, hwatch,
      fun hmem ↦ ?_, ?_⟩, haside, hcoherent.precedes hworker hturn⟩
    · refine haside.writer.trans (h.stopped ?_)
      simpa using hmem
    · rw [List.mem_append, List.mem_singleton, h.complete]
      constructor
      · rintro (hcomplete | hreturned)
        · exact Journal.System.step_complete hturn hcomplete
        · obtain rfl : Journal.Event.stopped (.ok ()) = event := by injection Option.some.inj hreturned
          exact hcoherent.complete_of_stopped hturn
      · intro hcomplete
        refine (Journal.System.stopped_of_complete hturn hcomplete).imp_right ?_
        rintro rfl
        rfl

theorem answer_ne_persisted {engine : EngineSystem ACCOUNTS RISK_ORDERS LEVELS ORDERS BATCH}
    {action : EngineAction} (haction : ∀ turn, action ≠ .persist turn)
    (reply : Option (Except EngineError Unit)) (event : Journal.Event) :
    answer crc32c JOURNAL_BATCH engine action reply ≠ some (.persisted event) := by
  unfold answer
  cases action with
  | persist turn => exact absurd rfl (haction turn)
  | stopAdmission =>
    dsimp only
    split <;> exact nofun
  | call _ | advance | pop => cases reply <;> exact nofun

/-- Only a stop of admission answers that it has stopped. -/
theorem writer_of_admissionStopped {engine engine' : EngineSystem ACCOUNTS RISK_ORDERS LEVELS ORDERS BATCH}
    {action : EngineAction} {reply : Option (Except EngineError Unit)}
    (hstep : engine.step crc32c REPORTS EVENTS JOURNAL_BATCH action = .ok (reply, engine'))
    (hanswer : answer crc32c JOURNAL_BATCH engine action reply = some .admissionStopped) :
    engine'.journal.writer = none := by
  unfold answer at hanswer
  cases action with
  | persist turn =>
    obtain ⟨_, _, heq⟩ := Option.map_eq_some_iff.mp hanswer
    cases heq
  | call _ | advance | pop => cases reply <;> cases hanswer
  | stopAdmission =>
    dsimp only at hanswer
    split at hanswer
    · next hcall =>
      obtain ⟨_, rfl⟩ := Prod.mk.inj (Except.ok.inj hstep)
      unfold EngineSystem.stopAdmission
      rw [hcall]
      exact engine.leavesWorker_closeJournal.2
    · cases hanswer

/-- A step of the engine or of its consumer, between two snapshots or without effect on one. -/
theorem Sound.act (hc : Capacities ACCOUNTS RISK_ORDERS LEVELS ORDERS) (hordinals : REPORTS + 1 < 2 ^ 16)
    (hbatch : REPORTS + 2 ≤ BATCH) (hworker : 0 < JOURNAL_BATCH)
    (h : Sound crc32c REPORTS EVENTS initial answers system) {action : EngineAction}
    (hpermitted : action.permitted system.loading = true) (haction : ∀ turn, action ≠ .persist turn) :
    ∃ reply engine', system.engine.step crc32c REPORTS EVENTS JOURNAL_BATCH action = .ok (reply, engine') ∧
      Sound crc32c REPORTS EVENTS initial (answers ++
        [answer crc32c JOURNAL_BATCH system.engine action reply])
        { system with engine := engine' } ∧
      EngineSystem.LeavesWorker system.engine.journal engine'.journal := by
  obtain ⟨transitions, hengine⟩ := h.engine
  obtain ⟨reply, engine', transitions', hstep, hsound, _⟩ := hengine.step hc hordinals hbatch hworker action
  have hleaves := EngineSystem.leavesWorker_of_step hstep haction
  refine ⟨reply, engine', hstep, ⟨⟨transitions', hsound⟩, hleaves.guarded h.guarded, ?_,
    fun hmem ↦ ?_, ?_⟩, hleaves⟩
  · obtain ⟨_, _, _, hcoherent⟩ := hsound.journal
    have hbetween (hidle : system.loading = .idle) : Journal.Watch crc32c initial.expectedSequence.val
        engine'.accepted [] engine'.journal system.loading := by
      rw [hidle]
      exact .start hcoherent
    cases action with
    | persist turn => exact absurd rfl (haction turn)
    | pop =>
      obtain ⟨⟨popped, events⟩, _, heq⟩ := Run.bind_eq_ok.mp hstep
      obtain ⟨_, rfl⟩ := Prod.mk.inj (Except.ok.inj heq)
      exact h.watch
    | call _ | stopAdmission | advance =>
      apply hbetween
      cases hloading : system.loading with
      | idle => rfl
      | loadDurable | loadWritten | loadClosed | loadPoisoned =>
        simp [EngineAction.permitted, hloading] at hpermitted
  · rcases List.mem_append.mp hmem with hmem | hmem
    · exact hleaves.writer (h.stopped hmem)
    · exact writer_of_admissionStopped hstep (List.mem_singleton.mp hmem).symm
  · have hcomplete := hleaves.complete
    rw [List.mem_append, List.mem_singleton, h.complete]
    show _ ↔ engine'.journal.channel.status.shutdownComplete = true
    rw [hcomplete]
    exact ⟨fun hmem ↦ hmem.resolve_right fun heq ↦ answer_ne_persisted haction reply _ heq.symm, .inl⟩

/-- Nothing reopens or fails an engine after an orderly end. -/
theorem Quiet.act (hquiet : Quiet system)
    (hunpoisoned : system.engine.journal.channel.status.poisoned = false)
    {action : EngineAction} (haction : ∀ turn, action ≠ .persist turn)
    {reply : Option (Except EngineError Unit)}
    {engine' : EngineSystem ACCOUNTS RISK_ORDERS LEVELS ORDERS BATCH}
    (hstep : system.engine.step crc32c REPORTS EVENTS JOURNAL_BATCH action = .ok (reply, engine')) :
    engine'.call = .idle ∧ engine'.failed = false ∧ engine'.journal = system.engine.journal := by
  obtain ⟨hcall, hrunning, hclosed, _⟩ := hquiet
  cases action with
  | persist turn => exact absurd rfl (haction turn)
  | pop =>
    obtain ⟨⟨popped, events⟩, _, heq⟩ := Run.bind_eq_ok.mp hstep
    obtain ⟨_, rfl⟩ := Prod.mk.inj (Except.ok.inj heq)
    exact ⟨hcall, hrunning, rfl⟩
  | stopAdmission =>
    obtain ⟨_, rfl⟩ := Prod.mk.inj (Except.ok.inj hstep)
    have hsame : system.engine.stopAdmission = system.engine := by
      unfold EngineSystem.stopAdmission EngineSystem.closeJournal Journal.System.close
      rw [hcall, hclosed]
      rfl
    rw [hsame]
    exact ⟨hcall, hrunning, rfl⟩
  | advance =>
    have hadvance : system.engine.advance crc32c REPORTS EVENTS = .ok (reply, engine') := hstep
    unfold EngineSystem.advance at hadvance
    simp only [hcall] at hadvance
    obtain ⟨_, rfl⟩ := Prod.mk.inj (Except.ok.inj hadvance)
    exact ⟨hcall, hrunning, rfl⟩
  | call request =>
    have hrequest : system.engine.request request = .ok (reply, engine') := hstep
    unfold EngineSystem.request at hrequest
    simp only [hcall] at hrequest
    obtain ⟨resolved, _, heq⟩ := Run.bind_eq_ok.mp hrequest
    split at heq
    · obtain ⟨_, rfl⟩ := Prod.mk.inj (Except.ok.inj heq)
      exact ⟨hcall, hrunning, rfl⟩
    · next command payload _ =>
      have hbegin : system.engine.begin command payload = (some (.error .stopped), system.engine) := by
        unfold EngineSystem.begin
        rw [if_neg (by simp [hrunning]), if_neg (by simp [hunpoisoned]), hclosed]
      rw [hbegin] at heq
      obtain ⟨_, rfl⟩ := Prod.mk.inj (Except.ok.inj heq)
      exact ⟨hcall, hrunning, rfl⟩

theorem answer_ne_captured (engine : EngineSystem ACCOUNTS RISK_ORDERS LEVELS ORDERS BATCH)
    (action : EngineAction) (reply : Option (Except EngineError Unit))
    (result : Except CheckpointError Snapshot) :
    answer crc32c JOURNAL_BATCH engine action reply ≠ some (.captured result) := by
  unfold answer
  cases action with
  | persist turn =>
    intro heq
    obtain ⟨_, _, hevent⟩ := Option.map_eq_some_iff.mp heq
    cases hevent
  | stopAdmission =>
    dsimp only
    split <;> exact nofun
  | call _ | advance | pop => cases reply <;> exact nofun

/-! ## Runs -/

/-- What the dimensions of an engine and of its worker provide for. -/
structure Dimensions (ACCOUNTS RISK_ORDERS LEVELS ORDERS BATCH REPORTS JOURNAL_BATCH : ℕ) : Prop where
  capacities : Capacities ACCOUNTS RISK_ORDERS LEVELS ORDERS
  levels_lt : LEVELS < 2 ^ 32
  orders_lt : ORDERS < 2 ^ 32
  ordinals : REPORTS + 1 < 2 ^ 16
  batch : REPORTS + 2 ≤ BATCH
  worker : 0 < JOURNAL_BATCH

/-- A step returns and keeps the invariant; a snapshot that it returns is a cut, an orderly end stays one
and has a snapshot, and a closed admission stays closed. -/
theorem Sound.step (sha256 : Bytes → Digest)
    (hd : Dimensions ACCOUNTS RISK_ORDERS LEVELS ORDERS BATCH REPORTS JOURNAL_BATCH)
    (hpos : 0 < initial.expectedSequence.val) (h : Sound crc32c REPORTS EVENTS initial answers system)
    (action : CheckpointAction) :
    ∃ reply system', system.step crc32c sha256 REPORTS EVENTS JOURNAL_BATCH action = .ok (reply, system') ∧
      Sound crc32c REPORTS EVENTS initial (answers ++ [reply]) system' ∧
      (∀ snapshot, reply = some (.captured (.ok snapshot)) →
        Cut crc32c sha256 REPORTS initial system' snapshot) ∧
      (Quiet system → Quiet system' ∧
        ∀ result, reply = some (.captured result) → ∃ snapshot, result = .ok snapshot) ∧
      ∀ before, EngineSystem.Halted before system.engine → system.engine.journal.writer = none →
        EngineSystem.Halted before system'.engine ∧ system'.engine.journal.writer = none := by
  cases action with
  | snapshot =>
    obtain ⟨reply, system', hload, hsound, hengine, hcut, hquiet⟩ :=
      h.load sha256 hd.capacities hd.levels_lt hd.orders_lt hpos
    refine ⟨reply, system', hload, hsound, hcut, hquiet, fun before hhalted hwriter ↦ ?_⟩
    rw [hengine]
    exact ⟨hhalted, hwriter⟩
  | engine action =>
    by_cases hpermitted : action.permitted system.loading = true
    swap
    · refine ⟨none, system, if_neg hpermitted, h.silent, nofun, fun hquiet ↦ ⟨hquiet, nofun⟩,
        fun before hhalted hwriter ↦ ⟨hhalted, hwriter⟩⟩
    have hstep {reply : Option (Except EngineError Unit)}
        {engine' : EngineSystem ACCOUNTS RISK_ORDERS LEVELS ORDERS BATCH}
        (hrun : system.engine.step crc32c REPORTS EVENTS JOURNAL_BATCH action = .ok (reply, engine')) :
        system.step crc32c sha256 REPORTS EVENTS JOURNAL_BATCH (.engine action) =
          .ok (answer crc32c JOURNAL_BATCH system.engine action reply,
            { system with engine := engine' }) := by
      unfold CheckpointSystem.step
      dsimp only
      rw [if_pos hpermitted, hrun]
      rfl
    obtain ⟨transitions, hengine⟩ := h.engine
    have hhalts {reply : Option (Except EngineError Unit)}
        {engine' before : EngineSystem ACCOUNTS RISK_ORDERS LEVELS ORDERS BATCH}
        (hrun : system.engine.step crc32c REPORTS EVENTS JOURNAL_BATCH action = .ok (reply, engine'))
        (hhalted : EngineSystem.Halted before system.engine) : EngineSystem.Halted before engine' := by
      obtain ⟨reply', engine'', hrun', hhalted', _⟩ := hengine.halted hd.worker hhalted action
      rw [hrun] at hrun'
      obtain ⟨_, rfl⟩ := Prod.mk.inj (Except.ok.inj hrun')
      exact hhalted'
    by_cases haction : ∃ turn, action = .persist turn
    · obtain ⟨turn, rfl⟩ := haction
      obtain ⟨engine', hrun, hsound, haside, hprecedes⟩ := h.persist hd.worker turn
      refine ⟨_, _, hstep hrun, hsound, fun snapshot heq ↦ absurd heq (answer_ne_captured _ _ _ _),
        fun hquiet ↦ ⟨⟨haside.call.trans hquiet.call, haside.failed.trans hquiet.running,
          haside.writer.trans hquiet.closed, ?_⟩, fun result heq ↦ absurd heq (answer_ne_captured _ _ _ _)⟩,
        fun before hhalted hwriter ↦ ⟨hhalts hrun hhalted, haside.writer.trans hwriter⟩⟩
      exact (Journal.Loading.finish_precedes hprecedes system.loading).complete hquiet.complete
    · have hother : ∀ turn, action ≠ .persist turn := fun turn heq ↦ haction ⟨turn, heq⟩
      obtain ⟨reply, engine', hrun, hsound, hleaves⟩ :=
        h.act hd.capacities hd.ordinals hd.batch hd.worker hpermitted hother
      refine ⟨_, _, hstep hrun, hsound, fun snapshot heq ↦ absurd heq (answer_ne_captured _ _ _ _),
        fun hquiet ↦ ⟨?_, fun result heq ↦ absurd heq (answer_ne_captured _ _ _ _)⟩,
        fun before hhalted hwriter ↦ ⟨hhalts hrun hhalted, hleaves.writer hwriter⟩⟩
      have hunpoisoned := (h.guarded.complete (h.watch.ahead.complete hquiet.complete)).unpoisoned
      obtain ⟨hcall, hrunning, hjournal⟩ := hquiet.act hunpoisoned hother hrun
      refine ⟨hcall, hrunning, (congrArg Journal.System.writer hjournal).trans hquiet.closed, ?_⟩
      show (system.loading.finish engine'.journal.channel.status).shutdownComplete = true
      rw [hjournal]
      exact hquiet.complete

theorem Sound.executes (sha256 : Bytes → Digest)
    (hd : Dimensions ACCOUNTS RISK_ORDERS LEVELS ORDERS BATCH REPORTS JOURNAL_BATCH)
    (hpos : 0 < initial.expectedSequence.val) (h : Sound crc32c REPORTS EVENTS initial answers system)
    (actions : List CheckpointAction) :
    ∃ answers' system',
      execute (CheckpointSystem.step crc32c sha256 REPORTS EVENTS JOURNAL_BATCH) system actions =
        .ok (answers', system') ∧
      Sound crc32c REPORTS EVENTS initial (answers ++ answers') system' := by
  have hkeeps (past : List (Option CheckpointAnswer))
      (state : CheckpointSystem ACCOUNTS RISK_ORDERS LEVELS ORDERS BATCH)
      (hstate : Sound crc32c REPORTS EVENTS initial (answers ++ past) state)
      (action : CheckpointAction) (_ : action ∈ actions) :
      ∃ reply state', state.step crc32c sha256 REPORTS EVENTS JOURNAL_BATCH action = .ok (reply, state') ∧
        Sound crc32c REPORTS EVENTS initial (answers ++ (past ++ [reply])) state' := by
    obtain ⟨reply, state', hstep, hsound, _⟩ := hstate.step sha256 hd hpos action
    rw [List.append_assoc] at hsound
    exact ⟨reply, state', hstep, hsound⟩
  rw [← List.append_nil answers] at h
  exact execute_total actions hkeeps h

/-- After an orderly end every snapshot is taken. -/
theorem Sound.executes_quiet (sha256 : Bytes → Digest)
    (hd : Dimensions ACCOUNTS RISK_ORDERS LEVELS ORDERS BATCH REPORTS JOURNAL_BATCH)
    (hpos : 0 < initial.expectedSequence.val) (h : Sound crc32c REPORTS EVENTS initial answers system)
    (hquiet : Quiet system) (actions : List CheckpointAction) :
    ∃ answers' system',
      execute (CheckpointSystem.step crc32c sha256 REPORTS EVENTS JOURNAL_BATCH) system actions =
        .ok (answers', system') ∧
      ∀ result, some (.captured result) ∈ answers' → ∃ snapshot, result = .ok snapshot := by
  have hkeeps (past : List (Option CheckpointAnswer))
      (state : CheckpointSystem ACCOUNTS RISK_ORDERS LEVELS ORDERS BATCH)
      (hstate : Sound crc32c REPORTS EVENTS initial (answers ++ past) state ∧ Quiet state ∧
        ∀ result, some (.captured result) ∈ past → ∃ snapshot, result = .ok snapshot)
      (action : CheckpointAction) (_ : action ∈ actions) :
      ∃ reply state', state.step crc32c sha256 REPORTS EVENTS JOURNAL_BATCH action = .ok (reply, state') ∧
        Sound crc32c REPORTS EVENTS initial (answers ++ (past ++ [reply])) state' ∧ Quiet state' ∧
          ∀ result, some (.captured result) ∈ past ++ [reply] → ∃ snapshot, result = .ok snapshot := by
    obtain ⟨hsound, hquiet, htaken⟩ := hstate
    obtain ⟨reply, state', hstep, hsound', _, hkept, _⟩ := hsound.step sha256 hd hpos action
    obtain ⟨hquiet', hcaptured⟩ := hkept hquiet
    rw [List.append_assoc] at hsound'
    refine ⟨reply, state', hstep, hsound', hquiet', fun result hmem ↦ ?_⟩
    rcases List.mem_append.mp hmem with hmem | hmem
    · exact htaken result hmem
    · exact hcaptured result (List.mem_singleton.mp hmem).symm
  rw [← List.append_nil answers] at h
  obtain ⟨answers', system', hrun, _, _, htaken⟩ := execute_total actions hkeeps ⟨h, hquiet, by simp⟩
  exact ⟨answers', system', hrun, htaken⟩

/-- After the end of admission no command is journaled or applied. -/
theorem Sound.executes_halted (sha256 : Bytes → Digest)
    (hd : Dimensions ACCOUNTS RISK_ORDERS LEVELS ORDERS BATCH REPORTS JOURNAL_BATCH)
    (hpos : 0 < initial.expectedSequence.val) (h : Sound crc32c REPORTS EVENTS initial answers system)
    {before : EngineSystem ACCOUNTS RISK_ORDERS LEVELS ORDERS BATCH}
    (hhalted : EngineSystem.Halted before system.engine) (hwriter : system.engine.journal.writer = none)
    (actions : List CheckpointAction) :
    ∃ answers' system',
      execute (CheckpointSystem.step crc32c sha256 REPORTS EVENTS JOURNAL_BATCH) system actions =
        .ok (answers', system') ∧
      EngineSystem.Untouched before system'.engine ∧ system'.engine.journal.writer = none := by
  have hkeeps (state : CheckpointSystem ACCOUNTS RISK_ORDERS LEVELS ORDERS BATCH)
      (hstate : (∃ past, Sound crc32c REPORTS EVENTS initial past state) ∧
        EngineSystem.Halted before state.engine ∧ state.engine.journal.writer = none)
      (action : CheckpointAction) (_ : action ∈ actions) :
      ∃ reply state', state.step crc32c sha256 REPORTS EVENTS JOURNAL_BATCH action = .ok (reply, state') ∧
        (∃ past, Sound crc32c REPORTS EVENTS initial past state') ∧
          EngineSystem.Halted before state'.engine ∧ state'.engine.journal.writer = none := by
    obtain ⟨⟨past, hsound⟩, hhalted, hwriter⟩ := hstate
    obtain ⟨reply, state', hstep, hsound', _, _, hkept⟩ := hsound.step sha256 hd hpos action
    exact ⟨reply, state', hstep, ⟨_, hsound'⟩, hkept before hhalted hwriter⟩
  obtain ⟨answers', system', hrun, _, hhalted', hwriter'⟩ :=
    execute_invariant actions hkeeps ⟨⟨answers, h⟩, hhalted, hwriter⟩
  exact ⟨answers', system', hrun, hhalted'.1, hwriter'⟩

theorem Sound.quiet (h : Sound crc32c REPORTS EVENTS initial answers system)
    (hrunning : system.engine.failed = false) (hloading : system.loading = .idle)
    (hstopped : some .admissionStopped ∈ answers)
    (hreturned : some (.persisted (.stopped (.ok ()))) ∈ answers) : Quiet system := by
  have hclosed := h.stopped hstopped
  obtain ⟨transitions, hengine⟩ := h.engine
  refine ⟨hengine.idle_of_closed hrunning hclosed, hrunning, hclosed, ?_⟩
  rw [hloading]
  exact h.complete.mp hreturned

end CheckpointSystem

/-- What a builder of any kind has checked. -/
inductive EngineBuilder.Prepared (crc32c : Bytes → U32) (sha256 : Bytes → Digest) (REPORTS : ℕ) :
    EngineBuilder ACCOUNTS RISK_ORDERS LEVELS ORDERS → Prop where
  | new {instrument : InstrumentId} {accounts : List (AccountId × Risk.RiskLimits)}
      {builder : EngineBuilder ACCOUNTS RISK_ORDERS LEVELS ORDERS}
      (h : EngineBuilder.new REPORTS instrument accounts = .ok (.ok builder)) :
      Prepared crc32c sha256 REPORTS builder
  | restore {instrument : InstrumentId} {snapshot tail : Bytes}
      {builder : EngineBuilder ACCOUNTS RISK_ORDERS LEVELS ORDERS}
      (h : EngineBuilder.restore REPORTS crc32c sha256 instrument snapshot tail = .ok (.ok builder)) :
      Prepared crc32c sha256 REPORTS builder
  | restoreConfigured {expected : EngineConfig} {persisted snapshot tail : Bytes}
      {builder : EngineBuilder ACCOUNTS RISK_ORDERS LEVELS ORDERS}
      (h : EngineBuilder.restoreConfigured REPORTS crc32c sha256 expected persisted snapshot tail =
        .ok (.ok builder)) : Prepared crc32c sha256 REPORTS builder

theorem EngineBuilder.Prepared.reachable {crc32c : Bytes → U32} {sha256 : Bytes → Digest} {REPORTS : ℕ}
    {builder : EngineBuilder ACCOUNTS RISK_ORDERS LEVELS ORDERS}
    (h : Prepared crc32c sha256 REPORTS builder) :
    EngineBuilder.Sized ACCOUNTS RISK_ORDERS LEVELS ORDERS REPORTS ∧ builder.gateway.Reachable := by
  cases h with
  | new h =>
    obtain ⟨hsized, hstarted⟩ := new_started h
    exact ⟨hsized, .start (.inl hstarted)⟩
  | restore h => exact restore_reachable h
  | restoreConfigured h =>
    obtain ⟨_, restored, hrestore, rfl⟩ := EngineConfig.restoreConfigured_eq_ok h
    have hrestored := restore_reachable hrestore
    exact ⟨hrestored.1, hrestored.2⟩

open CheckpointSystem in
/-- The cut of a checkpoint, in every interleaving of the calls of an engine with its consumer, its worker
and the loads of its snapshots. A snapshot that is taken is one of the gateway after all journaled
commands, which are on disk, and no command follows. After a stop of admission without a failure and a
shutdown of the worker, snapshots are taken. -/
theorem checkpoint_cut (crc32c : Bytes → U32) (sha256 : Bytes → Digest)
    (hc : IndexCapacities ACCOUNTS RISK_ORDERS LEVELS ORDERS) {REPORTS JOURNAL_BATCH : ℕ}
    {builder : EngineBuilder ACCOUNTS RISK_ORDERS LEVELS ORDERS}
    (hprepared : EngineBuilder.Prepared crc32c sha256 REPORTS builder)
    {start : EngineSystem ACCOUNTS RISK_ORDERS LEVELS ORDERS BATCH}
    (hstart : EngineSystem.Starts REPORTS JOURNAL_BATCH builder start) (EVENTS : ℕ)
    (actions : List CheckpointAction) :
    ∃ (answers : List (Option CheckpointAnswer))
      (system : CheckpointSystem ACCOUNTS RISK_ORDERS LEVELS ORDERS BATCH),
      execute (step crc32c sha256 REPORTS EVENTS JOURNAL_BATCH) ⟨start, .idle⟩ actions =
        .ok (answers, system) ∧
      (∀ snapshot system', system.step crc32c sha256 REPORTS EVENTS JOURNAL_BATCH .snapshot =
          .ok (some (.captured (.ok snapshot)), system') →
        Cut crc32c sha256 REPORTS builder.gateway system' snapshot ∧
        some (.persisted (.stopped (.ok ()))) ∈ answers ∧
        ∀ later, ∃ replies system'',
          execute (step crc32c sha256 REPORTS EVENTS JOURNAL_BATCH) system' later = .ok (replies, system'') ∧
          EngineSystem.Untouched system'.engine system''.engine ∧ system''.engine.journal.writer = none) ∧
      (system.loading = .idle → system.engine.failed = false → some .admissionStopped ∈ answers →
        some (.persisted (.stopped (.ok ()))) ∈ answers →
        ∀ later, ∃ replies system',
          execute (step crc32c sha256 REPORTS EVENTS JOURNAL_BATCH) system later = .ok (replies, system') ∧
          ∀ result, some (.captured result) ∈ replies → ∃ snapshot, result = .ok snapshot) := by
  obtain ⟨hsized, hreachable⟩ := hprepared.reachable
  have hcapacities : Capacities ACCOUNTS RISK_ORDERS LEVELS ORDERS :=
    ⟨hsized.orders, hc.book, hc.accounts, hc.reservations⟩
  obtain ⟨hordinals, hbatch, hworker, hengine, hcall⟩ := hstart.sound hcapacities hreachable crc32c EVENTS
  have hbook := hc.book
  unfold Book.indexCapacity Book.orderIndexPlanes at hbook
  have hlevels := Nat.le_mul_of_pos_right LEVELS hsized.orders
  have horders := Nat.le_mul_of_pos_left ORDERS hsized.levels
  have hd : Dimensions ACCOUNTS RISK_ORDERS LEVELS ORDERS BATCH REPORTS JOURNAL_BATCH :=
    ⟨hcapacities, by omega, by omega, hordinals, hbatch, hworker⟩
  obtain ⟨logical, hrep, hinvariant⟩ := hreachable.sound hcapacities
  have hpos : 0 < builder.gateway.expectedSequence.val := by
    rw [hrep.expectedSequence]
    exact hinvariant.expected_pos
  have hsound : Sound crc32c REPORTS EVENTS builder.gateway [] ⟨start, .idle⟩ := by
    obtain ⟨_, _, policy, journal, hjournal, rfl⟩ := hstart.fresh_parts
    obtain ⟨_, hcoherent⟩ := @Journal.System.start_eq_ok crc32c _ _ _ _ hjournal
    obtain ⟨worker, _, hsystem⟩ := except_bind_eq_ok.mp hjournal
    obtain rfl := Except.ok.inj hsystem
    exact ⟨⟨[], hengine⟩, ⟨nofun, nofun⟩, .start hcoherent, by simp, by simp [Journal.JournalStatus.new]⟩
  obtain ⟨answers, system, hrun, hsound⟩ := hsound.executes sha256 hd hpos actions
  rw [List.nil_append] at hsound
  refine ⟨answers, system, hrun, ?_, ?_⟩
  · intro snapshot system' hsnapshot
    obtain ⟨reply, system₁, hstep, hsound', hcut, _⟩ := hsound.step sha256 hd hpos .snapshot
    rw [hsnapshot] at hstep
    obtain ⟨rfl, rfl⟩ := Prod.mk.inj (Except.ok.inj hstep)
    have hcut := hcut snapshot rfl
    refine ⟨hcut, ?_, fun later ↦ ?_⟩
    · have hreturned := hsound'.complete.mpr hcut.complete
      simpa using hreturned
    · have hhalted : EngineSystem.Halted system'.engine system'.engine := by
        refine ⟨⟨rfl, rfl, rfl, rfl⟩, ?_⟩
        obtain ⟨_, hengine'⟩ := hsound'.engine
        have hidle := hengine'.idle_of_closed hcut.running hcut.closed
        rw [hidle]
        exact .inr (.inl hcut.closed)
      exact hsound'.executes_halted sha256 hd hpos hhalted hcut.closed later
  · intro hloading hrunning hstopped hreturned later
    exact hsound.executes_quiet sha256 hd hpos (hsound.quiet hrunning hloading hstopped hreturned) later

/-- An order is journaled and applied, admission stops, and the worker shuts down; four of the five words
of the status are loaded. -/
def CheckpointSystem.sampleActions : List CheckpointAction :=
  ([.call (.command Gateway.sampleOrder), .advance, .advance, .advance, .advance, .stopAdmission,
    .persist ⟨.shutdown, rfl⟩, .persist .advance, .persist .advance, .persist (.write (.count 64 0)),
    .persist .advance, .persist .advance, .persist (.flush true), .persist .advance,
    .persist .advance] : List EngineAction).map .engine ++ List.replicate 4 .snapshot

def CheckpointAnswer.snapshot? : CheckpointAnswer → Option Snapshot
  | .captured (.ok snapshot) => some snapshot
  | _ => none

set_option maxRecDepth 4000 in
theorem CheckpointSystem.sampleActions_capture :
    (((execute (step (fun _ ↦ 0) EngineConfig.sampleDigest 1 1 1)
      (⟨EngineSystem.fresh 3 EngineBuilder.sampleBuilder .onShutdown, .idle⟩ : CheckpointSystem 1 1 1 1 3)
      sampleActions).toOption.bind fun outcome ↦
        (outcome.2.step (fun _ ↦ 0) EngineConfig.sampleDigest 1 1 1 .snapshot).toOption).bind fun last ↦
          last.1.bind CheckpointAnswer.snapshot?).map Snapshot.appliedSequence = some 1 := by
  decide

theorem checkpoint_cut_sample :
    ∃ (system : CheckpointSystem 1 1 1 1 3) (snapshot : Snapshot), snapshot.appliedSequence = 1 ∧
      CheckpointSystem.Cut (fun _ ↦ 0) EngineConfig.sampleDigest 1 EngineBuilder.sampleBuilder.gateway system
        snapshot := by
  obtain ⟨answers, system, hrun, htaken, _⟩ := checkpoint_cut (fun _ ↦ 0) EngineConfig.sampleDigest
    ⟨by decide, by decide, by decide⟩ (.new EngineBuilder.sampleBuilder_new)
    (EngineSystem.fresh_starts (by decide) (show 1 + 2 ≤ 3 by decide) one_ne_zero EngineBuilder.sampleBuilder
      .onShutdown) 1 CheckpointSystem.sampleActions
  have hcapture := CheckpointSystem.sampleActions_capture
  rw [hrun] at hcapture
  obtain ⟨snapshot, hsnapshot, happlied⟩ := Option.map_eq_some_iff.mp hcapture
  obtain ⟨⟨answer, system'⟩, hstep, hanswer⟩ := Option.bind_eq_some_iff.mp hsnapshot
  obtain ⟨captured, rfl, hcaptured⟩ := Option.bind_eq_some_iff.mp hanswer
  have hanswered : captured = .captured (.ok snapshot) := by
    unfold CheckpointAnswer.snapshot? at hcaptured
    split at hcaptured
    · rw [Option.some.inj hcaptured]
    · cases hcaptured
  subst hanswered
  have hstep' : (system.step (fun _ ↦ 0) EngineConfig.sampleDigest 1 1 1 .snapshot).toOption = some _ := hstep
  cases hlast : system.step (fun _ ↦ 0) EngineConfig.sampleDigest 1 1 1 .snapshot with
  | error fault =>
    rw [hlast] at hstep'
    cases hstep'
  | ok outcome =>
    rw [hlast] at hstep'
    obtain rfl := Option.some.inj hstep'
    exact ⟨system', snapshot, happlied, (htaken snapshot system' hlast).1⟩

end DeterministicExchange
