import DeterministicExchange.Journal.Channel

/-!
# Persistence worker

The worker of `hft-journal` drains records in batches into a sink. A call is a
walk through the phases below; between two phases the writer may take a step.
What the sink does with a write or a flush is part of the step: a sink that
reports a count within the slice has appended exactly that prefix, an
interruption appends nothing, and any other outcome appends some prefix.
-/

namespace DeterministicExchange.Journal

open Machine Codec

inductive FlushPolicy where
  | everyBatch
  | onShutdown
  deriving DecidableEq

inductive IoError where
  | invalidInput (message : String)
  | writeZero (message : String)
  | invalidData (message : String)
  | interrupted
  | failed
  deriving DecidableEq

inductive PersistError where
  | read (error : ReadError)
  | io (error : IoError)
  | producerOpen
  | poisoned
  deriving DecidableEq

/-- The outcome of one `write`: a returned count, or an error; `stray` bounds what a write outside
its contract has appended. -/
inductive WriteOutcome where
  | count (written stray : ℕ)
  | interrupted
  | failed (stray : ℕ)

/-- The bytes that a write of `slice` appends. -/
def WriteOutcome.appended (slice : Bytes) : WriteOutcome → Bytes
  | .count written stray => if written ≤ slice.length then slice.take written else slice.take stray
  | .interrupted => []
  | .failed stray => slice.take stray

/-- The bytes of the sink, and how many of them its last successful flush has covered. -/
structure Sink where
  bytes : Bytes
  flushed : ℕ

/-- Where the worker is in `drain_batch` or `shutdown`; `count` is the size of the batch. -/
inductive Phase where
  | idle
  | reading (batch : List RecordBytes)
  | writing (current : Bytes) (rest : List RecordBytes) (count : ℕ)
  | publishWritten (count : ℕ)
  | flushBatch (count : ℕ)
  | publishDurable (count : ℕ)
  | finalFlush
  | finalDurable
  | complete
  | gone

/-- `stopping` tells that a batch is drained on behalf of `shutdown`. -/
structure PersistenceWorker where
  reader : JournalReader
  policy : FlushPolicy
  poisoned : Bool
  stopping : Bool
  phase : Phase

/-- The writer is gone once it was closed or dropped. -/
structure System where
  writer : Option JournalWriter
  channel : JournalChannel
  worker : PersistenceWorker
  sink : Sink

/-- Calls of the writer, calls of the worker, and the next step inside a call of the worker. -/
inductive Turn where
  | enqueue (payload : Bytes)
  | close
  | dropWriter
  | drainBatch
  | shutdown
  | intoSink
  | dropWorker
  | advance
  | write (outcome : WriteOutcome)
  | flush (succeeds : Bool)

/-- Returns of calls. -/
inductive Event where
  | enqueued (payload : Bytes) (result : Except JournalError SequenceNumber)
  | closed
  | writerDropped
  | drained (result : Except PersistError ℕ)
  | stopped (result : Except PersistError Unit)
  | sinkTaken (result : Except PersistError Unit)
  | workerDropped
  | silent

variable (crc32c : Bytes → U32) (BATCH : ℕ)

def PersistenceWorker.new (reader : JournalReader) (status : JournalStatus) (policy : FlushPolicy) :
    Except IoError PersistenceWorker :=
  if BATCH = 0 then .error (.invalidInput "journal batch must be nonzero")
  else if reader.poisoned || reader.expectedSequence ≠ status.nextWrittenSequence then
    .error (.invalidInput "journal reader consumed records before persistence")
  else .ok ⟨reader, policy, false, false, .idle⟩

namespace System

/-- A fresh channel, split at `firstSequence`, with a worker on an empty sink. -/
def start (policy : FlushPolicy) (firstSequence : U64) : Except IoError System := do
  let (writer, reader, channel) := JournalChannel.new.split firstSequence
  let worker ← PersistenceWorker.new BATCH reader channel.status policy
  return ⟨some writer, channel, worker, ⟨[], 0⟩⟩

/-! ## Returns of the worker -/

def withPhase (system : System) (phase : Phase) : System :=
  { system with worker := { system.worker with phase := phase } }

/-- `fail`: terminal for the worker, and published. -/
def fail (system : System) (error : PersistError) : Event × System :=
  (if system.worker.stopping then .stopped (.error error) else .drained (.error error),
    { system with
      channel := system.channel.poison
      worker := { system.worker with poisoned := true, stopping := false, phase := .idle } })

/-- `drain_batch` has returned `count`: to the caller, or to the loop of `shutdown`. -/
def finishBatch (system : System) (count : ℕ) : Event × System :=
  if system.worker.stopping then
    if count = 0 then (.silent, system.withPhase .finalFlush)
    else (.silent, system.withPhase (.reading []))
  else (.drained (.ok count), system.withPhase .idle)

/-- The read loop is over. -/
def startWriting (system : System) : List RecordBytes → Event × System
  | [] => system.finishBatch 0
  | record :: rest => (.silent, system.withPhase (.writing record.val rest (rest.length + 1)))

/-! ## Steps -/

def enqueue (system : System) (payload : Bytes) : Option (Event × System) :=
  system.writer.map fun writer ↦
    let (result, writer, queue) := writer.enqueue crc32c system.channel.queue payload
    (.enqueued payload result,
      { system with writer := some writer, channel := { system.channel with queue := queue } })

def close (system : System) : Option (Event × System) :=
  system.writer.map fun _ ↦
    (.closed, { system with
      writer := none
      channel := { system.channel with status := { system.channel.status with producerClosed := true } } })

def dropWriter (system : System) : Option (Event × System) :=
  system.writer.map fun _ ↦ (.writerDropped, { system with writer := none })

def drainBatch (system : System) : Option (Event × System) :=
  match system.worker.phase with
  | .idle =>
    if system.worker.poisoned then some (.drained (.error .poisoned), system)
    else some (.silent, system.withPhase (.reading []))
  | _ => none

def shutdown (system : System) : Option (Event × System) :=
  match system.worker.phase with
  | .idle =>
    if system.worker.poisoned then some (.stopped (.error .poisoned), system)
    else if system.worker.reader.shutdownComplete then some (.stopped (.ok ()), system)
    else if !system.channel.status.producerClosed then some (.stopped (.error .producerOpen), system)
    else some (.silent, { system with
      worker := { system.worker with stopping := true, phase := .reading [] } })
  | _ => none

/-- Dropping the reader poisons the channel unless the shutdown is complete. -/
def retire (system : System) : System :=
  { system with
    channel := if system.worker.reader.shutdownComplete then system.channel else system.channel.poison
    worker := { system.worker with phase := .gone } }

def intoSink (system : System) : Option (Event × System) :=
  match system.worker.phase with
  | .idle =>
    some (.sinkTaken (if system.worker.poisoned then .error .poisoned else .ok ()), system.retire)
  | _ => none

def dropWorker (system : System) : Option (Event × System) :=
  match system.worker.phase with
  | .idle => some (.workerDropped, system.retire)
  | _ => none

/-- One iteration of the read loop. -/
def readNext (system : System) (batch : List RecordBytes) : Event × System :=
  if batch.length < BATCH then
    match system.worker.reader.read crc32c system.channel with
    | (.ok record, reader, channel) =>
      (.silent, { system with
        channel := channel
        worker := { system.worker with reader := reader, phase := .reading (batch ++ [record.encode]) } })
    | (.error .empty, reader, channel) =>
      { system with channel := channel, worker := { system.worker with reader := reader } }.startWriting batch
    | (.error error, reader, channel) =>
      { system with channel := channel, worker := { system.worker with reader := reader } }.fail (.read error)
  else system.startWriting batch

/-- The next access of the worker to the channel. -/
def advance (system : System) : Option (Event × System) :=
  let status := system.channel.status
  let expected := system.worker.reader.expectedSequence
  match system.worker.phase with
  | .reading batch => some (system.readNext crc32c BATCH batch)
  | .publishWritten count =>
    let system := { system with
      channel := { system.channel with status := { status with nextWrittenSequence := expected } } }
    match system.worker.policy with
    | .everyBatch => some (.silent, system.withPhase (.flushBatch count))
    | .onShutdown => some (system.finishBatch count)
  | .publishDurable count =>
    some ({ system with
      channel := { system.channel with status := { status with nextDurableSequence := expected } }
      }.finishBatch count)
  | .finalDurable =>
    some (.silent, { system with
      channel := { system.channel with status := { status with nextDurableSequence := expected } }
      worker := { system.worker with phase := .complete } })
  | .complete =>
    some (.stopped (.ok ()), { system with
      channel := { system.channel with status := { status with shutdownComplete := true } }
      worker := { system.worker with
        reader := { system.worker.reader with shutdownComplete := true }
        stopping := false
        phase := .idle } })
  | _ => none

/-- What is left to write after `written` bytes of the current record. -/
def nextWrite (current : Bytes) (rest : List RecordBytes) (count written : ℕ) : Phase :=
  if current.length ≤ written then
    match rest with
    | [] => .publishWritten count
    | record :: rest => .writing record.val rest count
  else .writing (current.drop written) rest count

/-- One iteration of `write_all`. -/
def write (system : System) (outcome : WriteOutcome) : Option (Event × System) :=
  match system.worker.phase with
  | .writing current rest count =>
    let system := { system with
      sink := { system.sink with bytes := system.sink.bytes ++ outcome.appended current } }
    match outcome with
    | .count written _ =>
      if written = 0 then some (system.fail (.io (.writeZero "journal write returned zero")))
      else if written ≤ current.length then
        some (.silent, system.withPhase (nextWrite current rest count written))
      else some (system.fail (.io (.invalidData "journal sink returned an invalid write count")))
    | .interrupted => some (.silent, system)
    | .failed _ => some (system.fail (.io .failed))
  | _ => none

def flush (system : System) (succeeds : Bool) : Option (Event × System) :=
  let flushed := { system with sink := { system.sink with flushed := system.sink.bytes.length } }
  match system.worker.phase with
  | .flushBatch count =>
    if succeeds then some (.silent, flushed.withPhase (.publishDurable count))
    else some (system.fail (.io .failed))
  | .finalFlush =>
    if succeeds then some (.silent, flushed.withPhase .finalDurable)
    else some (system.fail (.io .failed))
  | _ => none

def step (system : System) : Turn → Option (Event × System)
  | .enqueue payload => system.enqueue crc32c payload
  | .close => system.close
  | .dropWriter => system.dropWriter
  | .drainBatch => system.drainBatch
  | .shutdown => system.shutdown
  | .intoSink => system.intoSink
  | .dropWorker => system.dropWorker
  | .advance => system.advance crc32c BATCH
  | .write outcome => system.write outcome
  | .flush succeeds => system.flush succeeds

/-- A system reached with these events, under any interleaving. -/
inductive Reaches (start : System) : List Event → System → Prop where
  | start : Reaches start [] start
  | step {events : List Event} {system system' : System} {event : Event}
      (h : Reaches start events system) (turn : Turn)
      (hstep : system.step crc32c BATCH turn = some (event, system')) :
      Reaches start (events ++ [event]) system'

end System

/-! ## Accepted records -/

/-- The record that an event has put into the journal. -/
def Event.record? : Event → Option JournalRecord
  | .enqueued payload (.ok sequence) => (JournalRecord.new crc32c sequence payload).toOption
  | _ => none

def recordsOf (events : List Event) : List JournalRecord := events.filterMap (Event.record? crc32c)

/-- The records as they are on disk. -/
def journalBytes (records : List JournalRecord) : Bytes :=
  (records.map fun record ↦ record.encode.val).flatten

end DeterministicExchange.Journal
