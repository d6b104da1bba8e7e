import DeterministicExchange.Journal.Completion

/-!
# Progress of the worker

Every call of the worker returns, provided that the sink goes on accepting: a
write that is not interrupted takes at least one byte, and a flush succeeds.
Each turn that is not an interrupted write lowers the number of turns that the
call can still take, whatever the writer does meanwhile.
-/

namespace DeterministicExchange.Journal

open Machine Codec

/-- The bytes that the next write is given. -/
def Phase.slice : Phase → Bytes
  | .writing current _ _ => current
  | _ => []

/-- A sink that accepts something, or is interrupted. -/
def WriteOutcome.Accepts (slice : Bytes) : WriteOutcome → Prop
  | .count written _ => 0 < written ∧ written ≤ slice.length
  | .interrupted => True
  | .failed _ => False

def Turn.Accepts (slice : Bytes) : Turn → Prop
  | .write outcome => outcome.Accepts slice
  | .flush succeeds => succeeds = true
  | _ => True

/-- The turns inside a call that are counted: all but the interrupted writes. -/
def Turn.effort : Turn → ℕ
  | .advance | .write (.count _ _) | .write (.failed _) | .flush _ => 1
  | _ => 0

/-- A worker inside one of its calls. -/
def Phase.Busy (phase : Phase) : Prop := phase ≠ .idle ∧ phase ≠ .gone

def Event.returns : Event → Bool
  | .drained _ | .stopped _ | .sinkTaken _ | .workerDropped => true
  | _ => false

/-! ## Turns that are left -/

/-- Turns for a record that is not read yet. It is read, its bytes are written, and it may be the first one of
its batch. -/
def recordTurns : ℕ := recordSize + 5

/-- Turns for what is read already, and for the end of the call. -/
def Phase.turns : Phase → ℕ
  | .reading [] => 4
  | .reading (_ :: rest) => recordSize * (rest.length + 1) + 8
  | .writing current rest _ => current.length + recordSize * rest.length + 7
  | .publishWritten _ => 7
  | .flushBatch _ => 6
  | .publishDurable _ => 5
  | .finalFlush => 3
  | .finalDurable => 2
  | .complete => 1
  | .idle | .gone => 0

/-- The records that the call can still read: a shutdown reads all, a batch is bounded. -/
def System.unread (BATCH : ℕ) (system : System) : ℕ :=
  if system.worker.stopping then system.channel.queue.length
  else
    match system.worker.phase with
    | .reading batch => BATCH - batch.length
    | _ => 0

def System.turnsLeft (BATCH : ℕ) (system : System) : ℕ :=
  recordTurns * system.unread BATCH + system.worker.phase.turns

/-- The records of the current batch that are published as written. -/
def Phase.published : Phase → ℕ
  | .flushBatch count | .publishDurable count => count
  | _ => 0

/-- The watermark of what is written, before the current batch. -/
def System.MarkedAt (system : System) (mark : ℕ) : Prop :=
  system.channel.status.nextWrittenSequence.val = mark + system.worker.phase.published

/-- A call goes on: `effort` of its turns are used up. -/
structure System.Proceeds (BATCH effort : ℕ) (system system' : System) : Prop where
  turns : system'.turnsLeft BATCH + effort ≤ system.turnsLeft BATCH
  busy : system'.worker.phase.Busy
  stopping : system'.worker.stopping = system.worker.stopping
  marked : system.worker.stopping = false → ∀ mark, system.MarkedAt mark → system'.MarkedAt mark

/-- A worker at rest serves no shutdown, and only a shutdown flushes at its end. -/
def PersistenceWorker.Ordered (worker : PersistenceWorker) : Prop :=
  match worker.phase with
  | .idle | .gone => worker.stopping = false
  | .finalFlush | .finalDurable | .complete => worker.stopping = true
  | _ => True

/-! ## One turn -/

section Turns

variable {crc32c : Bytes → U32} {BATCH first : ℕ} {records : List JournalRecord} {system system' : System}
  {event : Event} {turn : Turn} {popped written durable : ℕ}

theorem System.unread_of_draining (h : system.worker.stopping = false)
    (hphase : ∀ batch, system.worker.phase ≠ .reading batch) : system.unread BATCH = 0 := by
  unfold System.unread
  rw [h, if_neg Bool.false_ne_true]
  split
  · next batch heq => exact absurd heq (hphase batch)
  · rfl

theorem System.unread_of_stopping (h : system.worker.stopping = true) :
    system.unread BATCH = system.channel.queue.length := by
  unfold System.unread
  rw [if_pos h]

/-- Beyond the read loop a call reads no more than it could before. -/
theorem System.unread_le (hstopping : system'.worker.stopping = system.worker.stopping)
    (hqueue : system'.channel.queue = system.channel.queue)
    (hphase : system.worker.stopping = false → ∀ batch, system'.worker.phase ≠ .reading batch) :
    system'.unread BATCH ≤ system.unread BATCH := by
  cases hmode : system.worker.stopping with
  | false =>
    rw [System.unread_of_draining (hstopping.trans hmode) (hphase hmode)]
    exact Nat.zero_le _
  | true =>
    rw [System.unread_of_stopping (hstopping.trans hmode), System.unread_of_stopping hmode, hqueue]

/-- The next phase of a call, short of the read loop or on behalf of a shutdown. -/
theorem System.Proceeds.of_phase {effort : ℕ}
    (hqueue : system'.channel.queue = system.channel.queue)
    (hstopping : system'.worker.stopping = system.worker.stopping) (hbusy : system'.worker.phase.Busy)
    (hturns : system'.worker.phase.turns + effort ≤ system.worker.phase.turns)
    (hphase : system.worker.stopping = false → ∀ batch, system'.worker.phase ≠ .reading batch)
    (hmarked : system.worker.stopping = false → ∀ mark, system.MarkedAt mark → system'.MarkedAt mark) :
    system.Proceeds BATCH effort system' := by
  refine ⟨?_, hbusy, hstopping, hmarked⟩
  have hunread : recordTurns * system'.unread BATCH ≤ recordTurns * system.unread BATCH :=
    Nat.mul_le_mul_left _ (System.unread_le hstopping hqueue hphase)
  unfold System.turnsLeft
  omega

/-- The next phase of a call that has published nothing in between. -/
theorem System.Proceeds.withPhase {effort : ℕ} {phase : Phase} (hbusy : phase.Busy)
    (hturns : phase.turns + effort ≤ system.worker.phase.turns)
    (hphase : system.worker.stopping = false → ∀ batch, phase ≠ .reading batch)
    (hpublished : phase.published = system.worker.phase.published) :
    system.Proceeds BATCH effort (system.withPhase phase) := by
  refine System.Proceeds.of_phase rfl rfl hbusy hturns hphase fun _ mark hmark ↦ ?_
  unfold System.MarkedAt at hmark ⊢
  rw [← hpublished] at hmark
  exact hmark

end Turns

/-! ## The order of the phases -/

section Phases

variable {crc32c : Bytes → U32} {BATCH : ℕ} {system system' : System} {event : Event} {turn : Turn}

theorem System.ordered_fail (system : System) (error : PersistError) :
    (system.fail error).2.worker.Ordered := rfl

theorem System.ordered_finishBatch (system : System) (count : ℕ) :
    (system.finishBatch count).2.worker.Ordered := by
  unfold System.finishBatch
  cases hmode : system.worker.stopping with
  | false =>
    rw [if_neg Bool.false_ne_true]
    exact hmode
  | true =>
    rw [if_pos rfl]
    split
    · exact hmode
    · trivial

theorem System.ordered_startWriting (system : System) (batch : List RecordBytes) :
    (system.startWriting batch).2.worker.Ordered := by
  cases batch with
  | nil => exact System.ordered_finishBatch system 0
  | cons record rest => trivial

theorem System.ordered_readNext (system : System) (batch : List RecordBytes) :
    (system.readNext crc32c BATCH batch).2.worker.Ordered := by
  unfold System.readNext
  split
  · split
    · trivial
    · exact System.ordered_startWriting _ batch
    · exact System.ordered_fail _ _
  · exact System.ordered_startWriting system batch

theorem System.ordered_nextWrite (system : System) (current : Bytes) (rest : List RecordBytes)
    (count written : ℕ) :
    (system.withPhase (System.nextWrite current rest count written)).worker.Ordered := by
  unfold System.nextWrite
  split
  · cases rest with
    | nil => trivial
    | cons record rest => trivial
  · trivial

theorem System.ordered_step (h : system.worker.Ordered)
    (hstep : system.step crc32c BATCH turn = some (event, system')) : system'.worker.Ordered := by
  have hkept {outcome : Event × System} (heq : some outcome = some (event, system'))
      (houtcome : outcome.2.worker.Ordered) : system'.worker.Ordered := by
    obtain rfl := Option.some.inj heq
    exact houtcome
  cases turn with
  | enqueue payload | close | dropWriter =>
    obtain ⟨writer, _, heq⟩ := Option.map_eq_some_iff.mp hstep
    exact hkept (congrArg some heq) h
  | drainBatch =>
    simp only [System.step, System.drainBatch] at hstep
    split at hstep
    · split at hstep
      · exact hkept hstep h
      · exact hkept hstep trivial
    · simp at hstep
  | shutdown =>
    simp only [System.step, System.shutdown] at hstep
    split at hstep
    · split at hstep
      · exact hkept hstep h
      split at hstep
      · exact hkept hstep h
      split at hstep
      · exact hkept hstep h
      · exact hkept hstep trivial
    · simp at hstep
  | intoSink | dropWorker =>
    simp only [System.step, System.intoSink, System.dropWorker] at hstep
    split at hstep
    · next hphase =>
      unfold PersistenceWorker.Ordered at h
      rw [hphase] at h
      exact hkept hstep h
    · simp at hstep
  | advance =>
    simp only [System.step, System.advance] at hstep
    split at hstep
    · exact hkept hstep (System.ordered_readNext system _)
    · split at hstep
      · exact hkept hstep trivial
      · exact hkept hstep (System.ordered_finishBatch _ _)
    · exact hkept hstep (System.ordered_finishBatch _ _)
    · next hphase =>
      unfold PersistenceWorker.Ordered at h
      rw [hphase] at h
      exact hkept hstep h
    · exact hkept hstep rfl
    · simp at hstep
  | write outcome =>
    simp only [System.step, System.write] at hstep
    split at hstep
    swap
    · simp at hstep
    split at hstep
    · split at hstep
      · exact hkept hstep (System.ordered_fail _ _)
      split at hstep
      · exact hkept hstep (System.ordered_nextWrite _ _ _ _ _)
      · exact hkept hstep (System.ordered_fail _ _)
    · exact hkept hstep h
    · exact hkept hstep (System.ordered_fail _ _)
  | flush succeeds =>
    simp only [System.step, System.flush] at hstep
    split at hstep
    · split at hstep
      · exact hkept hstep trivial
      · exact hkept hstep (System.ordered_fail _ _)
    · next hphase =>
      unfold PersistenceWorker.Ordered at h
      rw [hphase] at h
      split at hstep
      · exact hkept hstep h
      · exact hkept hstep (System.ordered_fail _ _)
    · simp at hstep

theorem System.Reaches.ordered {start : System} {events : List Event} (hstart : start.worker.Ordered)
    (h : System.Reaches crc32c BATCH start events system) : system.worker.Ordered := by
  induction h with
  | start => exact hstart
  | step _ turn hstep ih => exact System.ordered_step ih hstep

end Phases

/-! ## Calls -/

section Calls

variable {crc32c : Bytes → U32} {BATCH first : ℕ} {records : List JournalRecord}
  {before system system' now : System} {event : Event} {call turn : Turn} {effort : ℕ}
  {popped written durable : ℕ}

theorem System.Proceeds.trans {effort' : ℕ} (h : system.Proceeds BATCH effort system')
    (h' : system'.Proceeds BATCH effort' now) : system.Proceeds BATCH (effort + effort') now := by
  refine ⟨?_, h'.busy, h'.stopping.trans h.stopping, fun hdraining mark hmark ↦ ?_⟩
  · have hfirst := h.turns
    have hsecond := h'.turns
    omega
  · exact h'.marked (h.stopping.trans hdraining) mark (h.marked hdraining mark hmark)

end Calls

end DeterministicExchange.Journal
