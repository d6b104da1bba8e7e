import DeterministicExchange.Journal.Persistence

/-!
# Turns of the worker

A turn of the persistence worker takes nothing from the writer: it accepts no
record, does not close the journal, and a poisoned status stays poisoned.
-/

namespace DeterministicExchange.Journal

open Machine Codec

def Turn.ofWorker : Turn → Bool
  | .enqueue _ | .close | .dropWriter => false
  | _ => true

abbrev WorkerTurn := {turn : Turn // turn.ofWorker = true}

def WorkerTurn.drainBatch : WorkerTurn := ⟨.drainBatch, rfl⟩

def WorkerTurn.advance : WorkerTurn := ⟨.advance, rfl⟩

def WorkerTurn.write (outcome : WriteOutcome) : WorkerTurn := ⟨.write outcome, rfl⟩

def WorkerTurn.flush (succeeds : Bool) : WorkerTurn := ⟨.flush succeeds, rfl⟩

/-- The writer and what it sees of the status. -/
structure System.KeepsWriter (system system' : System) : Prop where
  writer : system'.writer = system.writer
  closed : system'.channel.status.producerClosed = system.channel.status.producerClosed
  poisoned : system.channel.status.poisoned = true → system'.channel.status.poisoned = true

namespace System

variable {crc32c : Bytes → U32} {BATCH : ℕ} {system system' : System} {event : Event}

theorem KeepsWriter.trans {system'' : System} (h : system.KeepsWriter system')
    (h' : system'.KeepsWriter system'') : system.KeepsWriter system'' :=
  ⟨h'.writer.trans h.writer, h'.closed.trans h.closed, fun hpoisoned ↦ h'.poisoned (h.poisoned hpoisoned)⟩

/-- A turn that accepts no record and keeps the writer. -/
def Bystands (crc32c : Bytes → U32) (system : System) (outcome : Event × System) : Prop :=
  outcome.1.record? crc32c = none ∧ system.KeepsWriter outcome.2

theorem Bystands.after {outcome : Event × System} (h : Bystands crc32c system' outcome)
    (hkept : system.KeepsWriter system') : Bystands crc32c system outcome :=
  ⟨h.1, hkept.trans h.2⟩

theorem bystands_withPhase (system : System) (phase : Phase) :
    Bystands crc32c system (.silent, system.withPhase phase) := ⟨rfl, rfl, rfl, id⟩

theorem bystands_fail (system : System) (error : PersistError) :
    Bystands crc32c system (system.fail error) := by
  refine ⟨?_, rfl, rfl, fun _ ↦ rfl⟩
  unfold fail
  dsimp only
  split <;> rfl

theorem bystands_finishBatch (system : System) (count : ℕ) :
    Bystands crc32c system (system.finishBatch count) := by
  unfold finishBatch
  split
  · split
    · exact bystands_withPhase system _
    · exact bystands_withPhase system _
  · exact ⟨rfl, rfl, rfl, id⟩

theorem bystands_startWriting (system : System) (batch : List RecordBytes) :
    Bystands crc32c system (system.startWriting batch) := by
  cases batch with
  | nil => exact bystands_finishBatch system 0
  | cons record rest => exact bystands_withPhase system _

theorem keepsWriter_retire (system : System) : system.KeepsWriter system.retire := by
  unfold retire
  refine ⟨rfl, ?_, ?_⟩
  · dsimp only
    split <;> rfl
  · intro hpoisoned
    dsimp only
    split
    · exact hpoisoned
    · rfl

/-- Reading changes the queue; a record that does not verify poisons the channel. -/
theorem read_status (reader : JournalReader) (channel : JournalChannel) :
    (reader.read crc32c channel).2.2.status = channel.status ∨
      (reader.read crc32c channel).2.2.status = channel.poison.status := by
  unfold JournalReader.read
  split
  · exact .inl rfl
  split
  · exact .inl rfl
  dsimp only
  split
  · exact .inr rfl
  split
  · exact .inr rfl
  split
  · exact .inr rfl
  · exact .inl rfl

theorem keepsWriter_read {result : Except ReadError JournalRecord} {reader : JournalReader}
    {channel : JournalChannel}
    (heq : system.worker.reader.read crc32c system.channel = (result, reader, channel))
    (worker : PersistenceWorker) :
    system.KeepsWriter { system with channel := channel, worker := worker } := by
  have hread := @read_status crc32c system.worker.reader system.channel
  rw [heq] at hread
  rcases hread with hstatus | hstatus
  · have hstatus' : channel.status = system.channel.status := hstatus
    refine ⟨rfl, ?_, ?_⟩
    · rw [hstatus']
    · rw [hstatus']
      exact id
  · have hstatus' : channel.status = system.channel.poison.status := hstatus
    refine ⟨rfl, ?_, ?_⟩
    · rw [hstatus']
      rfl
    · rw [hstatus']
      exact fun _ ↦ rfl

theorem bystands_readNext (system : System) (batch : List RecordBytes) :
    Bystands crc32c system (system.readNext crc32c BATCH batch) := by
  unfold readNext
  split
  · split
    · next heq => exact ⟨rfl, keepsWriter_read heq _⟩
    · next heq => exact (bystands_startWriting _ batch).after (keepsWriter_read heq _)
    · next heq => exact (bystands_fail _ _).after (keepsWriter_read heq _)
  · exact bystands_startWriting system batch

theorem bystands_advance (hstep : system.advance crc32c BATCH = some (event, system')) :
    Bystands crc32c system (event, system') := by
  unfold advance at hstep
  dsimp only at hstep
  split at hstep
  · rw [← Option.some.inj hstep]
    exact bystands_readNext system _
  · split at hstep
    · rw [← Option.some.inj hstep]
      exact ⟨rfl, rfl, rfl, id⟩
    · rw [← Option.some.inj hstep]
      exact (bystands_finishBatch _ _).after ⟨rfl, rfl, id⟩
  · rw [← Option.some.inj hstep]
    exact (bystands_finishBatch _ _).after ⟨rfl, rfl, id⟩
  · rw [← Option.some.inj hstep]
    exact ⟨rfl, rfl, rfl, id⟩
  · rw [← Option.some.inj hstep]
    exact ⟨rfl, rfl, rfl, id⟩
  · simp at hstep

theorem bystands_write {outcome : WriteOutcome} (hstep : system.write outcome = some (event, system')) :
    Bystands crc32c system (event, system') := by
  unfold write at hstep
  split at hstep
  swap
  · simp at hstep
  dsimp only at hstep
  split at hstep
  · split at hstep
    · rw [← Option.some.inj hstep]
      exact (bystands_fail _ _).after ⟨rfl, rfl, id⟩
    split at hstep
    · rw [← Option.some.inj hstep]
      exact ⟨rfl, rfl, rfl, id⟩
    · rw [← Option.some.inj hstep]
      exact (bystands_fail _ _).after ⟨rfl, rfl, id⟩
  · rw [← Option.some.inj hstep]
    exact ⟨rfl, rfl, rfl, id⟩
  · rw [← Option.some.inj hstep]
    exact (bystands_fail _ _).after ⟨rfl, rfl, id⟩

theorem bystands_flush {succeeds : Bool} (hstep : system.flush succeeds = some (event, system')) :
    Bystands crc32c system (event, system') := by
  unfold flush at hstep
  dsimp only at hstep
  split at hstep
  · split at hstep
    · rw [← Option.some.inj hstep]
      exact ⟨rfl, rfl, rfl, id⟩
    · rw [← Option.some.inj hstep]
      exact bystands_fail _ _
  · split at hstep
    · rw [← Option.some.inj hstep]
      exact ⟨rfl, rfl, rfl, id⟩
    · rw [← Option.some.inj hstep]
      exact bystands_fail _ _
  · simp at hstep

/-- A worker never touches what belongs to the writer. -/
theorem bystands_step (turn : WorkerTurn) (hstep : system.step crc32c BATCH turn = some (event, system')) :
    Bystands crc32c system (event, system') := by
  obtain ⟨turn, hworker⟩ := turn
  cases turn with
  | enqueue _ | close | dropWriter => simp [Turn.ofWorker] at hworker
  | advance => exact bystands_advance hstep
  | write outcome => exact bystands_write hstep
  | flush succeeds => exact bystands_flush hstep
  | drainBatch =>
    have hdrain : system.drainBatch = some (event, system') := hstep
    unfold drainBatch at hdrain
    split at hdrain
    · split at hdrain
      · obtain ⟨rfl, rfl⟩ := Prod.mk.inj (Option.some.inj hdrain)
        exact ⟨rfl, rfl, rfl, id⟩
      · obtain ⟨rfl, rfl⟩ := Prod.mk.inj (Option.some.inj hdrain)
        exact bystands_withPhase system _
    · simp at hdrain
  | shutdown =>
    have hshutdown : system.shutdown = some (event, system') := hstep
    unfold shutdown at hshutdown
    split at hshutdown
    · split at hshutdown
      · obtain ⟨rfl, rfl⟩ := Prod.mk.inj (Option.some.inj hshutdown)
        exact ⟨rfl, rfl, rfl, id⟩
      split at hshutdown
      · obtain ⟨rfl, rfl⟩ := Prod.mk.inj (Option.some.inj hshutdown)
        exact ⟨rfl, rfl, rfl, id⟩
      split at hshutdown
      · obtain ⟨rfl, rfl⟩ := Prod.mk.inj (Option.some.inj hshutdown)
        exact ⟨rfl, rfl, rfl, id⟩
      · obtain ⟨rfl, rfl⟩ := Prod.mk.inj (Option.some.inj hshutdown)
        exact ⟨rfl, rfl, rfl, id⟩
    · simp at hshutdown
  | intoSink =>
    have htaken : system.intoSink = some (event, system') := hstep
    unfold intoSink at htaken
    split at htaken
    · obtain ⟨rfl, rfl⟩ := Prod.mk.inj (Option.some.inj htaken)
      exact ⟨rfl, keepsWriter_retire system⟩
    · simp at htaken
  | dropWorker =>
    have hdropped : system.dropWorker = some (event, system') := hstep
    unfold dropWorker at hdropped
    split at hdropped
    · obtain ⟨rfl, rfl⟩ := Prod.mk.inj (Option.some.inj hdropped)
      exact ⟨rfl, keepsWriter_retire system⟩
    · simp at hdropped

end System

end DeterministicExchange.Journal
