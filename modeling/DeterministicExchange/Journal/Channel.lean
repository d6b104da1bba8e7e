import DeterministicExchange.Container.BoundedQueue
import DeterministicExchange.Journal.Record

/-!
# Journal channel

The handoff of `hft-journal` between one writer and one reader: a bounded queue
of records and the published status. The writer numbers the records, the reader
checks the numbers again.
-/

namespace DeterministicExchange.Journal

open Machine Codec

def ringCapacity : ℕ := 1024

/-- The published progress; watermarks start at the first sequence. -/
structure JournalStatus where
  nextWrittenSequence : U64
  nextDurableSequence : U64
  producerClosed : Bool
  poisoned : Bool
  shutdownComplete : Bool
  deriving DecidableEq

structure JournalChannel where
  queue : List JournalRecord
  status : JournalStatus

structure JournalWriter where
  nextSequence : U64
  deriving DecidableEq

/-- `shutdownComplete` is the private flag of the status guard. -/
structure JournalReader where
  expectedSequence : U64
  poisoned : Bool
  shutdownComplete : Bool

inductive ReadError where
  | empty
  | checksumMismatch (sequence : SequenceNumber)
  | sequenceMismatch (expected received : SequenceNumber)
  | poisoned
  deriving DecidableEq

def JournalStatus.new (firstSequence : U64) : JournalStatus :=
  ⟨firstSequence, firstSequence, false, false, false⟩

namespace JournalChannel

def new : JournalChannel := ⟨[], JournalStatus.new 0⟩

def split (channel : JournalChannel) (firstSequence : U64) : JournalWriter × JournalReader × JournalChannel :=
  (⟨firstSequence⟩, ⟨firstSequence, false, false⟩, { channel with status := JournalStatus.new firstSequence })

def poison (channel : JournalChannel) : JournalChannel :=
  { channel with status := { channel.status with poisoned := true } }

end JournalChannel

variable (crc32c : Bytes → U32)

/-- Builds and publishes one record; an error changes neither the writer nor the queue. -/
def JournalWriter.enqueue (writer : JournalWriter) (queue : List JournalRecord) (payload : Bytes) :
    Except JournalError SequenceNumber × JournalWriter × List JournalRecord :=
  match Unsigned.checkedAdd writer.nextSequence 1 with
  | none => (.error .sequenceOverflow, writer, queue)
  | some next =>
    match JournalRecord.new crc32c writer.nextSequence payload with
    | .error error => (.error error, writer, queue)
    | .ok record =>
      match BoundedQueue.tryPush ringCapacity queue record with
      | (.error _, queue) => (.error .saturated, writer, queue)
      | (.ok (), queue) => (.ok writer.nextSequence, ⟨next⟩, queue)

/-- Reads one ordered record; a validation failure poisons the reader and the channel. -/
def JournalReader.read (reader : JournalReader) (channel : JournalChannel) :
    Except ReadError JournalRecord × JournalReader × JournalChannel :=
  if reader.poisoned then (.error .poisoned, reader, channel)
  else
    match BoundedQueue.tryPop channel.queue with
    | (none, _) => (.error .empty, reader, channel)
    | (some record, queue) =>
      let channel := { channel with queue := queue }
      if record.verify crc32c = false then
        (.error (.checksumMismatch record.sequence), { reader with poisoned := true }, channel.poison)
      else if record.sequence ≠ reader.expectedSequence then
        (.error (.sequenceMismatch reader.expectedSequence record.sequence),
          { reader with poisoned := true }, channel.poison)
      else
        match Unsigned.checkedAdd reader.expectedSequence 1 with
        | none => (.error .poisoned, { reader with poisoned := true }, channel.poison)
        | some expected => (.ok record, { reader with expectedSequence := expected }, channel)

variable {crc32c}

/-- What a successful enqueue has published. -/
theorem JournalWriter.enqueue_eq_ok {writer writer' : JournalWriter} {queue queue' : List JournalRecord}
    {payload : Bytes} {sequence : SequenceNumber}
    (h : writer.enqueue crc32c queue payload = (.ok sequence, writer', queue')) :
    sequence = writer.nextSequence ∧ writer'.nextSequence.val = writer.nextSequence.val + 1 ∧
      queue.length < ringCapacity ∧ payload.length ≤ maxPayload ∧
      ∃ record, JournalRecord.new crc32c sequence payload = .ok record ∧ queue' = queue ++ [record] := by
  unfold enqueue at h
  split at h
  · simp at h
  next next hnext =>
  rw [Unsigned.checkedAdd_eq_some] at hnext
  split at h
  · simp at h
  next record hrecord =>
  have hpayload : payload.length ≤ maxPayload := by
    by_contra hlt
    rw [JournalRecord.new_of_lt crc32c writer.nextSequence (Nat.lt_of_not_le hlt)] at hrecord
    simp at hrecord
  unfold BoundedQueue.tryPush at h
  by_cases hroom : queue.length < ringCapacity
  · simp only [hroom, if_true, Prod.mk.injEq, Except.ok.injEq] at h
    obtain ⟨rfl, rfl, rfl⟩ := h
    exact ⟨rfl, hnext.symm, hroom, hpayload, record, hrecord, rfl⟩
  · simp [hroom] at h

theorem JournalWriter.enqueue_eq_error {writer writer' : JournalWriter}
    {queue queue' : List JournalRecord} {payload : Bytes} {error : JournalError}
    (h : writer.enqueue crc32c queue payload = (.error error, writer', queue')) :
    writer' = writer ∧ queue' = queue := by
  unfold enqueue at h
  split at h
  · simp only [Prod.mk.injEq] at h
    exact ⟨h.2.1.symm, h.2.2.symm⟩
  split at h
  · simp only [Prod.mk.injEq] at h
    exact ⟨h.2.1.symm, h.2.2.symm⟩
  unfold BoundedQueue.tryPush at h
  by_cases hroom : queue.length < ringCapacity
  · simp [hroom] at h
  · simp only [hroom, if_false, Prod.mk.injEq] at h
    exact ⟨h.2.1.symm, h.2.2.symm⟩

/-- A reader that expects the record at the head of the queue gets it. -/
theorem JournalReader.read_of_expected {reader : JournalReader} {channel : JournalChannel}
    {record : JournalRecord} {queue : List JournalRecord} (hpoisoned : reader.poisoned = false)
    (hqueue : channel.queue = record :: queue) (hverify : record.verify crc32c = true)
    (hsequence : record.sequence = reader.expectedSequence)
    (hnext : reader.expectedSequence.val + 1 < 2 ^ 64) :
    ∃ expected : U64, expected.val = reader.expectedSequence.val + 1 ∧
      reader.read crc32c channel =
        (.ok record, { reader with expectedSequence := expected }, { channel with queue := queue }) := by
  have hone : reader.expectedSequence.val + (1 : U64).val < 2 ^ 64 := hnext
  obtain ⟨expected, hadd, hval⟩ := Unsigned.checkedAdd_of_lt hone
  refine ⟨expected, hval, ?_⟩
  unfold read
  simp only [hpoisoned, hqueue, BoundedQueue.tryPop, hverify, hsequence, hadd, Bool.false_eq_true,
    if_false, ne_eq, not_true_eq_false, Bool.true_eq_false]

theorem JournalReader.read_of_empty {reader : JournalReader} {channel : JournalChannel}
    (hpoisoned : reader.poisoned = false) (hqueue : channel.queue = []) :
    reader.read crc32c channel = (.error .empty, reader, channel) := by
  unfold read
  simp only [hpoisoned, hqueue, BoundedQueue.tryPop, Bool.false_eq_true, if_false]

end DeterministicExchange.Journal
