import DeterministicExchange.Journal.Watch

/-!
# Completed shutdowns

The status is poisoned only by a worker that has failed or that is gone. Once a
shutdown has completed there is nothing left to read, write or flush, so that
nothing the worker can still do poisons the status.
-/

namespace DeterministicExchange.Journal

open Machine Codec

/-- The worker after a completed shutdown. -/
structure Finished (system : System) : Prop where
  unpoisoned : system.channel.status.poisoned = false
  running : system.worker.poisoned = false
  returned : system.worker.stopping = false
  resting : system.worker.phase = .idle ∨ system.worker.phase = .reading [] ∨ system.worker.phase = .gone

/-- What the flags of the status tell of the worker. -/
structure Guarded (system : System) : Prop where
  poisoned : system.channel.status.poisoned = true → system.worker.poisoned = true ∨
    system.worker.phase = .gone
  complete : system.channel.status.shutdownComplete = true → Finished system

theorem Finished.guarded {system : System} (h : Finished system) : Guarded system :=
  ⟨fun hpoisoned ↦ absurd (h.unpoisoned.symm.trans hpoisoned) Bool.false_ne_true, fun _ ↦ h⟩

namespace System

variable {crc32c : Bytes → U32} {BATCH : ℕ} {system system' : System} {event : Event}

/-- The flags of the status stay as they are, or the worker has failed. -/
structure KeepsFlags (system system' : System) : Prop where
  complete : system'.channel.status.shutdownComplete = system.channel.status.shutdownComplete
  poisoned : system'.channel.status.poisoned = system.channel.status.poisoned ∨ system'.worker.poisoned = true

theorem KeepsFlags.after {system₁ : System} (h : system₁.KeepsFlags system')
    (hcomplete : system₁.channel.status.shutdownComplete = system.channel.status.shutdownComplete)
    (hpoisoned : system₁.channel.status.poisoned = system.channel.status.poisoned) :
    system.KeepsFlags system' :=
  ⟨h.complete.trans hcomplete, h.poisoned.imp_left fun hsame ↦ hsame.trans hpoisoned⟩

theorem keepsFlags_fail (system : System) (error : PersistError) : system.KeepsFlags (system.fail error).2 :=
  ⟨rfl, .inr rfl⟩

theorem keepsFlags_of_channel (h : system'.channel.status = system.channel.status) :
    system.KeepsFlags system' := by
  constructor
  · rw [h]
  · rw [h]
    exact .inl rfl

theorem keepsFlags_finishBatch (system : System) (count : ℕ) :
    system.KeepsFlags (system.finishBatch count).2 :=
  keepsFlags_of_channel (congrArg JournalChannel.status (finishBatch_channel system count))

theorem keepsFlags_startWriting (system : System) (batch : List RecordBytes) :
    system.KeepsFlags (system.startWriting batch).2 :=
  keepsFlags_of_channel (congrArg JournalChannel.status (startWriting_channel system batch))

/-- Reading leaves the status, or ends with the failure of the worker. -/
theorem keepsFlags_readNext (system : System) (batch : List RecordBytes) :
    system.KeepsFlags (system.readNext crc32c BATCH batch).2 := by
  have hcomplete : (system.readNext crc32c BATCH batch).2.channel.status.shutdownComplete =
      system.channel.status.shutdownComplete := readNext_complete system batch
  refine ⟨hcomplete, ?_⟩
  unfold readNext JournalReader.read
  split
  swap
  · exact (keepsFlags_startWriting system batch).poisoned
  by_cases hpoisoned : system.worker.reader.poisoned = true
  · rw [if_pos hpoisoned]
    exact .inr rfl
  rw [if_neg hpoisoned]
  cases hqueue : BoundedQueue.tryPop system.channel.queue with
  | mk record queue =>
    cases record with
    | none => exact (keepsFlags_startWriting _ batch).poisoned
    | some record =>
      dsimp only
      by_cases hverify : record.verify crc32c = false
      · rw [if_pos hverify]
        exact .inr rfl
      rw [if_neg hverify]
      by_cases hsequence : record.sequence ≠ system.worker.reader.expectedSequence
      · rw [if_pos hsequence]
        exact .inr rfl
      rw [if_neg hsequence]
      cases Unsigned.checkedAdd system.worker.reader.expectedSequence 1 with
      | none => exact .inr rfl
      | some expected => exact .inl rfl

end System

section Turns

variable {crc32c : Bytes → U32} {BATCH first : ℕ} {records : List JournalRecord} {system system' : System}
  {event : Event} {popped written durable : ℕ}

/-- A step that keeps the flags of a running worker on its way to a completion. -/
theorem Coherent.guarded_of_keepsFlags (h : Coherent crc32c first records system popped written durable)
    (hguarded : Guarded system) (hidle : system.worker.phase ≠ .idle) (hgone : system.worker.phase ≠ .gone)
    (hcomplete : system.channel.status.shutdownComplete ≠ true) (hkept : system.KeepsFlags system') :
    Guarded system' := by
  have hrunning := h.running_of_phase hidle hgone
  constructor
  · intro hpoisoned
    rcases hkept.poisoned with hsame | hfailed
    · rcases hguarded.poisoned (hsame ▸ hpoisoned) with hfailed | hphase
      · exact absurd (hrunning.symm.trans hfailed) Bool.false_ne_true
      · exact absurd hphase hgone
    · exact .inl hfailed
  · intro hcomplete'
    exact absurd (hkept.complete ▸ hcomplete') hcomplete

/-- After a completion the worker finds nothing to do. -/
theorem Coherent.finished_step (hbatch : 0 < BATCH)
    (h : Coherent crc32c first records system popped written durable)
    (hcomplete : system.channel.status.shutdownComplete = true) (hfinished : Finished system) {turn : Turn}
    (hstep : system.step crc32c BATCH turn = some (event, system')) : Finished system' := by
  obtain ⟨hunpoisoned, hrunning, hreturned, hresting⟩ := hfinished
  have hreader : system.worker.reader.shutdownComplete = true := h.store.guard.trans hcomplete
  have hretire : Finished system.retire := by
    refine ⟨?_, hrunning, hreturned, .inr (.inr rfl)⟩
    unfold System.retire
    rw [if_pos hreader]
    exact hunpoisoned
  cases turn with
  | enqueue payload | close | dropWriter =>
    obtain ⟨writer, _, heq⟩ := Option.map_eq_some_iff.mp hstep
    obtain ⟨_, rfl⟩ := Prod.ext_iff.mp heq
    exact ⟨hunpoisoned, hrunning, hreturned, hresting⟩
  | drainBatch =>
    simp only [System.step, System.drainBatch] at hstep
    split at hstep
    · rw [if_neg (by simp [hrunning])] at hstep
      obtain ⟨_, rfl⟩ := Prod.mk.inj (Option.some.inj hstep)
      exact ⟨hunpoisoned, hrunning, hreturned, .inr (.inl rfl)⟩
    · simp at hstep
  | shutdown =>
    simp only [System.step, System.shutdown] at hstep
    split at hstep
    · rw [if_neg (by simp [hrunning]), if_pos hreader] at hstep
      obtain ⟨_, rfl⟩ := Prod.mk.inj (Option.some.inj hstep)
      exact ⟨hunpoisoned, hrunning, hreturned, hresting⟩
    · simp at hstep
  | intoSink =>
    simp only [System.step, System.intoSink] at hstep
    split at hstep
    · obtain ⟨_, rfl⟩ := Prod.mk.inj (Option.some.inj hstep)
      exact hretire
    · simp at hstep
  | dropWorker =>
    simp only [System.step, System.dropWorker] at hstep
    split at hstep
    · obtain ⟨_, rfl⟩ := Prod.mk.inj (Option.some.inj hstep)
      exact hretire
    · simp at hstep
  | write outcome =>
    rcases hresting with hphase | hphase | hphase
    all_goals simp [System.step, System.write, hphase] at hstep
  | flush succeeds =>
    rcases hresting with hphase | hphase | hphase
    all_goals simp [System.step, System.flush, hphase] at hstep
  | advance =>
    rcases hresting with hphase | hphase | hphase
    · simp [System.step, System.advance, hphase] at hstep
    · have hqueue := h.log.queue
      rw [(h.store.complete hcomplete).2.1, List.drop_length] at hqueue
      have hread : system.worker.reader.read crc32c system.channel =
          (.error .empty, system.worker.reader, system.channel) :=
        JournalReader.read_of_empty h.log.sound hqueue
      have hnext : system.readNext crc32c BATCH [] = (.drained (.ok 0), system.withPhase .idle) := by
        unfold System.readNext
        rw [List.length_nil, if_pos hbatch, hread]
        unfold System.startWriting System.finishBatch
        dsimp only
        rw [if_neg (by simp [hreturned])]
      simp only [System.step, System.advance, hphase, hnext] at hstep
      obtain ⟨_, rfl⟩ := Prod.mk.inj (Option.some.inj hstep)
      exact ⟨hunpoisoned, hrunning, hreturned, .inl rfl⟩
    · simp [System.step, System.advance, hphase] at hstep

/-- The step of a worker inside a call, short of the publication of a completion. -/
theorem System.keepsFlags_of_active {turn : WorkerTurn}
    (hstep : system.step crc32c BATCH turn = some (event, system')) (hidle : system.worker.phase ≠ .idle)
    (hcomplete : system.worker.phase ≠ .complete) : system.KeepsFlags system' := by
  have hkept {outcome : Event × System} (heq : some outcome = some (event, system'))
      (houtcome : system.KeepsFlags outcome.2) : system.KeepsFlags system' := by
    obtain rfl := Option.some.inj heq
    exact houtcome
  obtain ⟨turn, hworker⟩ := turn
  cases turn with
  | enqueue _ | close | dropWriter => simp [Turn.ofWorker] at hworker
  | drainBatch | shutdown | intoSink | dropWorker =>
    simp [System.step, System.drainBatch, System.shutdown, System.intoSink, System.dropWorker] at hstep
  | advance =>
    simp only [System.step, System.advance] at hstep
    split at hstep
    · exact hkept hstep (System.keepsFlags_readNext system _)
    · split at hstep
      · exact hkept hstep ⟨rfl, .inl rfl⟩
      · exact hkept hstep ((System.keepsFlags_finishBatch _ _).after rfl rfl)
    · exact hkept hstep ((System.keepsFlags_finishBatch _ _).after rfl rfl)
    · exact hkept hstep ⟨rfl, .inl rfl⟩
    · next hphase => exact absurd hphase hcomplete
    · simp at hstep
  | write outcome =>
    simp only [System.step, System.write] at hstep
    split at hstep
    swap
    · simp at hstep
    split at hstep
    · split at hstep
      · exact hkept hstep ((System.keepsFlags_fail _ _).after rfl rfl)
      split at hstep
      · exact hkept hstep ⟨rfl, .inl rfl⟩
      · exact hkept hstep ((System.keepsFlags_fail _ _).after rfl rfl)
    · exact hkept hstep ⟨rfl, .inl rfl⟩
    · exact hkept hstep ((System.keepsFlags_fail _ _).after rfl rfl)
  | flush succeeds =>
    simp only [System.step, System.flush] at hstep
    split at hstep
    · split at hstep
      · exact hkept hstep ⟨rfl, .inl rfl⟩
      · exact hkept hstep ((System.keepsFlags_fail _ _).after rfl rfl)
    · split at hstep
      · exact hkept hstep ⟨rfl, .inl rfl⟩
      · exact hkept hstep ((System.keepsFlags_fail _ _).after rfl rfl)
    · simp at hstep

/-- Between its calls the worker refuses one, begins one, or goes. -/
theorem System.step_of_idle (hidle : system.worker.phase = .idle) {turn : WorkerTurn}
    (hstep : system.step crc32c BATCH turn = some (event, system')) :
    system' = system ∨ system' = system.retire ∨
      ∃ worker, worker.poisoned = system.worker.poisoned ∧ system' = { system with worker := worker } := by
  obtain ⟨turn, hworker⟩ := turn
  cases turn with
  | enqueue _ | close | dropWriter => simp [Turn.ofWorker] at hworker
  | advance | write outcome | flush succeeds =>
    simp [System.step, System.advance, System.write, System.flush, hidle] at hstep
  | drainBatch =>
    simp only [System.step, System.drainBatch, hidle] at hstep
    split at hstep
    · exact .inl (Prod.mk.inj (Option.some.inj hstep)).2.symm
    · refine .inr (.inr ⟨{ system.worker with phase := .reading [] }, rfl, ?_⟩)
      exact (Prod.mk.inj (Option.some.inj hstep)).2.symm
  | shutdown =>
    simp only [System.step, System.shutdown, hidle] at hstep
    split at hstep
    · exact .inl (Prod.mk.inj (Option.some.inj hstep)).2.symm
    split at hstep
    · exact .inl (Prod.mk.inj (Option.some.inj hstep)).2.symm
    split at hstep
    · exact .inl (Prod.mk.inj (Option.some.inj hstep)).2.symm
    · refine .inr (.inr ⟨{ system.worker with stopping := true, phase := .reading [] }, rfl, ?_⟩)
      exact (Prod.mk.inj (Option.some.inj hstep)).2.symm
  | intoSink | dropWorker =>
    simp only [System.step, System.intoSink, System.dropWorker, hidle] at hstep
    exact .inr (.inl (Prod.mk.inj (Option.some.inj hstep)).2.symm)

/-- The publication of a completion is the return of a shutdown. -/
theorem System.step_of_complete (hphase : system.worker.phase = .complete) {turn : WorkerTurn}
    (hstep : system.step crc32c BATCH turn = some (event, system')) :
    event = .stopped (.ok ()) ∧ system' = { system with
      channel := { system.channel with status := { system.channel.status with shutdownComplete := true } }
      worker := { system.worker with
        reader := { system.worker.reader with shutdownComplete := true }
        stopping := false
        phase := .idle } } := by
  obtain ⟨turn, hworker⟩ := turn
  cases turn with
  | enqueue _ | close | dropWriter => simp [Turn.ofWorker] at hworker
  | drainBatch | shutdown | intoSink | dropWorker | write outcome | flush succeeds =>
    simp [System.step, System.drainBatch, System.shutdown, System.intoSink, System.dropWorker, System.write,
      System.flush, hphase] at hstep
  | advance =>
    simp only [System.step, System.advance, hphase] at hstep
    obtain ⟨rfl, rfl⟩ := Prod.mk.inj (Option.some.inj hstep)
    exact ⟨rfl, rfl⟩

theorem Coherent.finished_of_complete (h : Coherent crc32c first records system popped written durable)
    (hguarded : Guarded system) (hphase : system.worker.phase = .complete) {turn : WorkerTurn}
    (hstep : system.step crc32c BATCH turn = some (event, system')) : Finished system' := by
  have hrunning := h.running_of_phase (by rw [hphase]; simp) (by rw [hphase]; simp)
  have hunpoisoned : system.channel.status.poisoned = false := by
    by_contra hpoisoned
    rcases hguarded.poisoned (by simpa using hpoisoned) with hfailed | hgone
    · exact absurd (hrunning.symm.trans hfailed) Bool.false_ne_true
    · rw [hphase] at hgone
      cases hgone
  obtain ⟨_, rfl⟩ := System.step_of_complete hphase hstep
  exact ⟨hunpoisoned, hrunning, rfl, .inl rfl⟩

theorem Guarded.of_idle (hguarded : Guarded system) (hidle : system.worker.phase = .idle)
    (hcomplete : system.channel.status.shutdownComplete ≠ true) {turn : WorkerTurn}
    (hstep : system.step crc32c BATCH turn = some (event, system')) : Guarded system' := by
  rcases System.step_of_idle hidle hstep with rfl | rfl | ⟨worker, hworker, rfl⟩
  · exact hguarded
  · exact ⟨fun _ ↦ .inr rfl, fun hcomplete' ↦ absurd (System.retire_complete system ▸ hcomplete') hcomplete⟩
  · refine ⟨fun hpoisoned ↦ ?_, fun hcomplete' ↦ absurd hcomplete' hcomplete⟩
    rcases hguarded.poisoned hpoisoned with hfailed | hgone
    · exact .inl (hworker.trans hfailed)
    · rw [hidle] at hgone
      cases hgone

/-- No turn lets the flags tell anything wrong about the worker. -/
theorem Coherent.guarded_step (hbatch : 0 < BATCH)
    (h : Coherent crc32c first records system popped written durable) (hguarded : Guarded system)
    {turn : Turn}
    (hstep : system.step crc32c BATCH turn = some (event, system')) : Guarded system' := by
  by_cases hcomplete : system.channel.status.shutdownComplete = true
  · exact (h.finished_step hbatch hcomplete (hguarded.complete hcomplete) hstep).guarded
  by_cases hworker : turn.ofWorker = true
  swap
  · cases turn with
    | enqueue payload | close | dropWriter =>
      obtain ⟨writer, _, heq⟩ := Option.map_eq_some_iff.mp hstep
      obtain ⟨_, rfl⟩ := Prod.ext_iff.mp heq
      exact ⟨hguarded.poisoned, fun hcomplete' ↦ absurd hcomplete' hcomplete⟩
    | drainBatch | shutdown | intoSink | dropWorker | advance | write outcome | flush succeeds =>
      exact absurd rfl hworker
  have hturn : system.step crc32c BATCH (⟨turn, hworker⟩ : WorkerTurn) = some (event, system') := hstep
  by_cases hidle : system.worker.phase = .idle
  · exact hguarded.of_idle hidle hcomplete hturn
  by_cases hphase : system.worker.phase = .complete
  · exact (h.finished_of_complete hguarded hphase hturn).guarded
  have hgone : system.worker.phase ≠ .gone := by
    intro hgone
    cases turn with
    | enqueue _ | close | dropWriter => simp [Turn.ofWorker] at hworker
    | drainBatch | shutdown | intoSink | dropWorker | advance | write outcome | flush succeeds =>
      simp [System.step, System.drainBatch, System.shutdown, System.intoSink,
        System.dropWorker, System.advance,
        System.write, System.flush, hgone] at hstep
  exact h.guarded_of_keepsFlags hguarded hidle hgone hcomplete
    (System.keepsFlags_of_active hturn hidle hphase)

end Turns

/-! ## Returned shutdowns -/

section Returned

variable {crc32c : Bytes → U32} {BATCH first : ℕ} {records : List JournalRecord} {system system' : System}
  {popped written durable : ℕ}

theorem System.fail_ne_stopped (system : System) (error : PersistError) :
    (system.fail error).1 ≠ .stopped (.ok ()) := by
  unfold System.fail
  dsimp only
  split <;> simp

theorem System.finishBatch_ne_stopped (system : System) (count : ℕ) :
    (system.finishBatch count).1 ≠ .stopped (.ok ()) := by
  unfold System.finishBatch
  split
  · split <;> simp
  · simp

theorem System.readNext_ne_stopped (system : System) (batch : List RecordBytes) :
    (system.readNext crc32c BATCH batch).1 ≠ .stopped (.ok ()) := by
  have hwriting (system : System) : (system.startWriting batch).1 ≠ .stopped (.ok ()) := by
    cases batch with
    | nil => exact System.finishBatch_ne_stopped system 0
    | cons record rest => exact nofun
  unfold System.readNext
  split
  · split
    · exact nofun
    · exact hwriting _
    · exact System.fail_ne_stopped _ _
  · exact hwriting _

/-- A shutdown that returns without an error has published its completion. -/
theorem Coherent.complete_of_stopped (h : Coherent crc32c first records system popped written durable)
    {turn : Turn} (hstep : system.step crc32c BATCH turn = some (.stopped (.ok ()), system')) :
    system'.channel.status.shutdownComplete = true := by
  have hnot {outcome : Event × System} (heq : some outcome = some (.stopped (.ok ()), system'))
      (hother : outcome.1 ≠ .stopped (.ok ())) : system'.channel.status.shutdownComplete = true :=
    absurd (congrArg Prod.fst (Option.some.inj heq)) hother
  cases turn with
  | enqueue payload | close | dropWriter =>
    obtain ⟨writer, _, heq⟩ := Option.map_eq_some_iff.mp hstep
    cases heq
  | drainBatch =>
    simp only [System.step, System.drainBatch] at hstep
    split at hstep
    · split at hstep
      · exact hnot hstep (by rintro ⟨⟩)
      · exact hnot hstep (by rintro ⟨⟩)
    · simp at hstep
  | shutdown =>
    simp only [System.step, System.shutdown] at hstep
    split at hstep
    · split at hstep
      · exact hnot hstep (by rintro ⟨⟩)
      split at hstep
      · next hreader =>
        obtain ⟨_, rfl⟩ := Prod.mk.inj (Option.some.inj hstep)
        exact h.store.guard.symm.trans hreader
      split at hstep
      · exact hnot hstep (by rintro ⟨⟩)
      · exact hnot hstep (by rintro ⟨⟩)
    · simp at hstep
  | intoSink | dropWorker =>
    simp only [System.step, System.intoSink, System.dropWorker] at hstep
    split at hstep
    · exact hnot hstep (by rintro ⟨⟩)
    · simp at hstep
  | advance =>
    simp only [System.step, System.advance] at hstep
    split at hstep
    · exact hnot hstep (System.readNext_ne_stopped system _)
    · split at hstep
      · exact hnot hstep (by rintro ⟨⟩)
      · exact hnot hstep (System.finishBatch_ne_stopped _ _)
    · exact hnot hstep (System.finishBatch_ne_stopped _ _)
    · exact hnot hstep (by rintro ⟨⟩)
    · obtain ⟨_, rfl⟩ := Prod.mk.inj (Option.some.inj hstep)
      rfl
    · simp at hstep
  | write outcome =>
    simp only [System.step, System.write] at hstep
    split at hstep
    swap
    · simp at hstep
    split at hstep
    · split at hstep
      · exact hnot hstep (System.fail_ne_stopped _ _)
      split at hstep
      · exact hnot hstep (by rintro ⟨⟩)
      · exact hnot hstep (System.fail_ne_stopped _ _)
    · exact hnot hstep (by rintro ⟨⟩)
    · exact hnot hstep (System.fail_ne_stopped _ _)
  | flush succeeds =>
    simp only [System.step, System.flush] at hstep
    split at hstep
    · split at hstep
      · exact hnot hstep (by rintro ⟨⟩)
      · exact hnot hstep (System.fail_ne_stopped _ _)
    · split at hstep
      · exact hnot hstep (by rintro ⟨⟩)
      · exact hnot hstep (System.fail_ne_stopped _ _)
    · simp at hstep

/-- Only a shutdown that returns without an error publishes a completion. -/
theorem System.stopped_of_complete {event : Event} {turn : Turn}
    (hstep : system.step crc32c BATCH turn = some (event, system'))
    (hcomplete : system'.channel.status.shutdownComplete = true) :
    system.channel.status.shutdownComplete = true ∨ event = .stopped (.ok ()) := by
  by_cases hworker : turn.ofWorker = true
  swap
  · cases turn with
    | enqueue payload | close | dropWriter =>
      obtain ⟨writer, _, heq⟩ := Option.map_eq_some_iff.mp hstep
      obtain ⟨_, rfl⟩ := Prod.ext_iff.mp heq
      exact .inl hcomplete
    | drainBatch | shutdown | intoSink | dropWorker | advance | write outcome | flush succeeds =>
      exact absurd rfl hworker
  have hturn : system.step crc32c BATCH (⟨turn, hworker⟩ : WorkerTurn) = some (event, system') := hstep
  by_cases hidle : system.worker.phase = .idle
  · refine .inl ?_
    rcases System.step_of_idle hidle hturn with rfl | rfl | ⟨worker, _, rfl⟩
    · exact hcomplete
    · exact (System.retire_complete system).symm.trans hcomplete
    · exact hcomplete
  by_cases hphase : system.worker.phase = .complete
  · exact .inr (System.step_of_complete hphase hturn).1
  · exact .inl ((System.keepsFlags_of_active hturn hidle hphase).complete.symm.trans hcomplete)

end Returned

end DeterministicExchange.Journal
