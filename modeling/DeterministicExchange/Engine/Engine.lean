import DeterministicExchange.Engine.Builder
import DeterministicExchange.Events.Stream
import DeterministicExchange.Journal.Turns

/-!
# The journaled engine

The only admission path of `hft-engine`: a command is checked, journaled, applied
to the gateway and published, in this order. Consumer and persistence worker may
take steps of their own between any two accesses to what they share with it.
-/

namespace DeterministicExchange

open Machine Codec Events

inductive EngineError where
  | stopped
  | failed
  | persistenceFailed
  | unknownInstrument (instrument : InstrumentId)
  | parse (error : Wire.ParseError)
  | admission (error : EventEngineError)
  | journal (error : Journal.JournalError)
  | sequenceInvariant
  | apply (error : EventEngineError)
  deriving DecidableEq

inductive EngineState where
  | running
  | stopping
  | stopped
  | failed
  deriving DecidableEq, Repr

structure Health where
  state : EngineState
  nextSequence : SequenceNumber
  journal : Journal.JournalStatus
  deriving DecidableEq

/-! ## Calls -/

namespace Engine

variable {ACCOUNTS RISK_ORDERS LEVELS ORDERS BATCH : ℕ}

def instrument (engine : Engine ACCOUNTS RISK_ORDERS LEVELS ORDERS BATCH) : InstrumentId :=
  engine.events.gateway.book.instrument

def expectedSequence (engine : Engine ACCOUNTS RISK_ORDERS LEVELS ORDERS BATCH) : SequenceNumber :=
  engine.events.gateway.expectedSequence

/-- Closes the journal, once. -/
def stopAdmission (engine : Engine ACCOUNTS RISK_ORDERS LEVELS ORDERS BATCH)
    (channel : Journal.JournalChannel) :
    Engine ACCOUNTS RISK_ORDERS LEVELS ORDERS BATCH × Journal.JournalChannel :=
  match engine.journal with
  | none => (engine, channel)
  | some _ => ({ engine with journal := none },
      { channel with status := { channel.status with producerClosed := true } })

def fail (engine : Engine ACCOUNTS RISK_ORDERS LEVELS ORDERS BATCH) (channel : Journal.JournalChannel) :
    Engine ACCOUNTS RISK_ORDERS LEVELS ORDERS BATCH × Journal.JournalChannel :=
  { engine with failed := true }.stopAdmission channel

def health (engine : Engine ACCOUNTS RISK_ORDERS LEVELS ORDERS BATCH) (status : Journal.JournalStatus) :
    Health :=
  ⟨if engine.failed || status.poisoned then .failed
    else if engine.journal.isSome then .running
    else if status.shutdownComplete then .stopped
    else .stopping,
    engine.expectedSequence, status⟩

variable (crc32c : Bytes → U32) (REPORTS EVENTS : ℕ)

/-- Journals `payload`, applies the command and publishes its batch. -/
def applyJournaled (engine : Engine ACCOUNTS RISK_ORDERS LEVELS ORDERS BATCH)
    (channel : Journal.JournalChannel) (command : Command) (payload : Bytes) :
    Run (Except EngineError Unit × Engine ACCOUNTS RISK_ORDERS LEVELS ORDERS BATCH ×
      Journal.JournalChannel) :=
  if engine.failed then .ok (.error .failed, engine, channel)
  else if channel.status.poisoned then .ok (.error .persistenceFailed, engine.fail channel)
  else
    match engine.journal with
    | none => .ok (.error .stopped, engine, channel)
    | some writer =>
      if command.instrumentId ≠ engine.instrument then
        .ok (.error (.unknownInstrument command.instrumentId), engine, channel)
      else if writer.nextSequence ≠ engine.expectedSequence then
        .ok (.error .sequenceInvariant, engine.fail channel)
      else
        match engine.events.admitCommand EVENTS command with
        | .error (.gateway (.riskState error)) =>
          .ok (.error (.admission (.gateway (.riskState error))), engine.fail channel)
        | .error error => .ok (.error (.admission error), engine, channel)
        | .ok () =>
          match writer.enqueue crc32c channel.queue payload with
          | (.error error, writer, queue) =>
            .ok (.error (.journal error), { engine with journal := some writer },
              { channel with queue := queue })
          | (.ok _, writer, queue) => do
            let channel := { channel with queue := queue }
            let engine := { engine with journal := some writer }
            match ← engine.events.applyAdmittedCommand REPORTS EVENTS command with
            | (.error error, events) =>
              return (.error (.apply error), { engine with events := events }.fail channel)
            | (.ok _, events) => return (.ok (), { engine with events := events }, channel)

def processCommand (engine : Engine ACCOUNTS RISK_ORDERS LEVELS ORDERS BATCH)
    (channel : Journal.JournalChannel) (command : Command) :
    Run (Except EngineError Unit × Engine ACCOUNTS RISK_ORDERS LEVELS ORDERS BATCH ×
      Journal.JournalChannel) :=
  engine.applyJournaled crc32c REPORTS EVENTS channel command (Wire.encodeCommand command)

/-- Journals the bytes of the frame as they came. -/
def processFrame (engine : Engine ACCOUNTS RISK_ORDERS LEVELS ORDERS BATCH)
    (channel : Journal.JournalChannel) (frame : Bytes) :
    Run (Except EngineError Unit × Engine ACCOUNTS RISK_ORDERS LEVELS ORDERS BATCH ×
      Journal.JournalChannel) := do
  match ← Wire.parseMessage frame with
  | .error error => return (.error (.parse error), engine, channel)
  | .ok message => engine.applyJournaled crc32c REPORTS EVENTS channel (← message.toCommand) frame

def process (engine : Engine ACCOUNTS RISK_ORDERS LEVELS ORDERS BATCH) (channel : Journal.JournalChannel) :
    Request → Run (Except EngineError Unit × Engine ACCOUNTS RISK_ORDERS LEVELS ORDERS BATCH ×
      Journal.JournalChannel)
  | .command command => engine.processCommand crc32c REPORTS EVENTS channel command
  | .frame bytes => engine.processFrame crc32c REPORTS EVENTS channel bytes

end Engine

/-! ## Steps of engine, consumer and worker -/

/-- Where the call that is going on has got to; `closing` is a failure that closes the journal. -/
inductive EngineCall where
  | idle
  | admitting (command : Command) (payload : Bytes)
  | enqueueing (command : Command) (payload : Bytes)
  | applying (command : Command)
  | closing (error : EngineError)

/-- The engine with its queues, its consumer and its worker. `accepted` and `applied` collect the
records that the journal has taken and the commands that the gateway has processed. -/
structure EngineSystem (ACCOUNTS RISK_ORDERS LEVELS ORDERS BATCH : ℕ) where
  events : EventSystem ACCOUNTS RISK_ORDERS LEVELS ORDERS BATCH
  journal : Journal.System
  failed : Bool
  configuration : EngineConfig
  call : EngineCall
  accepted : List Journal.JournalRecord
  applied : List Command

/-- Calls of the engine, the next step inside a call, and steps of the consumer and of the worker. -/
inductive EngineAction where
  | call (request : Request)
  | stopAdmission
  | advance
  | pop
  | persist (turn : Journal.WorkerTurn)

namespace EngineSystem

variable {ACCOUNTS RISK_ORDERS LEVELS ORDERS BATCH : ℕ}

/-- What a request asks to apply and to journal. -/
def resolve : Request → Run (Except Wire.ParseError (Command × Bytes))
  | .command command => .ok (.ok (command, Wire.encodeCommand command))
  | .frame bytes => do
    match ← Wire.parseMessage bytes with
    | .error error => return .error error
    | .ok message => return .ok (← message.toCommand, bytes)

/-- The parts of a build, with a persistence worker on an empty sink. -/
def start (JOURNAL_BATCH : ℕ) (policy : Journal.FlushPolicy)
    (parts : EngineParts ACCOUNTS RISK_ORDERS LEVELS ORDERS BATCH) (channel : Journal.JournalChannel) :
    Except Journal.IoError (EngineSystem ACCOUNTS RISK_ORDERS LEVELS ORDERS BATCH) := do
  let worker ← Journal.PersistenceWorker.new JOURNAL_BATCH parts.journal channel.status policy
  return ⟨EventSystem.start parts.engine.events, ⟨parts.engine.journal, channel, worker, ⟨[], 0⟩⟩,
    parts.engine.failed, parts.engine.configuration, .idle, [], []⟩

def engine (system : EngineSystem ACCOUNTS RISK_ORDERS LEVELS ORDERS BATCH) :
    Engine ACCOUNTS RISK_ORDERS LEVELS ORDERS BATCH :=
  ⟨system.events.engine, system.journal.writer, system.failed, system.configuration⟩

/-- The first part of a call, up to the admission. -/
def begin (system : EngineSystem ACCOUNTS RISK_ORDERS LEVELS ORDERS BATCH) (command : Command)
    (payload : Bytes) :
    Option (Except EngineError Unit) × EngineSystem ACCOUNTS RISK_ORDERS LEVELS ORDERS BATCH :=
  if system.failed then (some (.error .failed), system)
  else if system.journal.channel.status.poisoned then
    (none, { system with failed := true, call := .closing .persistenceFailed })
  else
    match system.journal.writer with
    | none => (some (.error .stopped), system)
    | some writer =>
      if command.instrumentId ≠ system.engine.instrument then
        (some (.error (.unknownInstrument command.instrumentId)), system)
      else if writer.nextSequence ≠ system.engine.expectedSequence then
        (none, { system with failed := true, call := .closing .sequenceInvariant })
      else (none, { system with call := .admitting command payload })

/-- What a call does with the answer of the event engine to its command. -/
def admitted (system : EngineSystem ACCOUNTS RISK_ORDERS LEVELS ORDERS BATCH) (command : Command)
    (payload : Bytes) : Option (Except EventEngineError Unit) →
      Option (Except EngineError Unit) × EngineSystem ACCOUNTS RISK_ORDERS LEVELS ORDERS BATCH
  | some (.error (.gateway (.riskState error))) =>
    (none, { system with failed := true, call := .closing (.admission (.gateway (.riskState error))) })
  | some (.error error) => (some (.error (.admission error)), { system with call := .idle })
  | _ => (none, { system with call := .enqueueing command payload })

/-- What a call does with the answer of the journal; a refusal drops the admission. -/
def enqueued (system : EngineSystem ACCOUNTS RISK_ORDERS LEVELS ORDERS BATCH) (crc32c : Bytes → U32)
    (command : Command) : Option (Journal.Event × Journal.System) →
      Option (Except EngineError Unit) × EngineSystem ACCOUNTS RISK_ORDERS LEVELS ORDERS BATCH
  | some (.enqueued _ (.error error), journal) =>
    (some (.error (.journal error)), { system with
      events := { system.events with phase := .idle }
      journal := journal
      call := .idle })
  | some (event, journal) =>
    (none, { system with
      journal := journal
      call := .applying command
      accepted := system.accepted ++ (event.record? crc32c).toList })
  | none => (some (.error .stopped), { system with call := .idle })

/-- What a call does after a step of the event engine on the admitted command. -/
def processed (system : EngineSystem ACCOUNTS RISK_ORDERS LEVELS ORDERS BATCH) (command : Command)
    (events : EventSystem ACCOUNTS RISK_ORDERS LEVELS ORDERS BATCH) :
    Option (Except EventEngineError Unit) →
      Option (Except EngineError Unit) × EngineSystem ACCOUNTS RISK_ORDERS LEVELS ORDERS BATCH
  | none => (none, { system with events := events, applied := system.applied ++ [command] })
  | some (.error error) =>
    (none, { system with events := events, failed := true, call := .closing (.apply error) })
  | some (.ok ()) => (some (.ok ()), { system with events := events, call := .idle })

/-- Takes the writer of the journal, if it is still there, and closes it. -/
def closeJournal (system : EngineSystem ACCOUNTS RISK_ORDERS LEVELS ORDERS BATCH) :
    EngineSystem ACCOUNTS RISK_ORDERS LEVELS ORDERS BATCH :=
  match system.journal.close with
  | none => system
  | some (_, journal) => { system with journal := journal }

variable (crc32c : Bytes → U32) (REPORTS EVENTS JOURNAL_BATCH : ℕ)

/-- The next access of the call going on to what it shares. -/
def advance (system : EngineSystem ACCOUNTS RISK_ORDERS LEVELS ORDERS BATCH) :
    Run (Option (Except EngineError Unit) × EngineSystem ACCOUNTS RISK_ORDERS LEVELS ORDERS BATCH) :=
  match system.call with
  | .idle => .ok (none, system)
  | .admitting command payload => do
    let (reply, events) ← system.events.step REPORTS EVENTS (.call (.command command))
    return { system with events := events }.admitted command payload reply
  | .enqueueing command payload =>
    .ok (system.enqueued crc32c command (system.journal.enqueue crc32c payload))
  | .applying command => do
    let (reply, events) ← system.events.step REPORTS EVENTS .advance
    return system.processed command events reply
  | .closing error => .ok (some (.error error), { system.closeJournal with call := .idle })

/-- A call begins when none is going on. -/
def request (system : EngineSystem ACCOUNTS RISK_ORDERS LEVELS ORDERS BATCH) (request : Request) :
    Run (Option (Except EngineError Unit) × EngineSystem ACCOUNTS RISK_ORDERS LEVELS ORDERS BATCH) :=
  match system.call with
  | .idle => do
    match ← resolve request with
    | .error error => return (some (.error (.parse error)), system)
    | .ok (command, payload) => return system.begin command payload
  | _ => .ok (none, system)

def stopAdmission (system : EngineSystem ACCOUNTS RISK_ORDERS LEVELS ORDERS BATCH) :
    EngineSystem ACCOUNTS RISK_ORDERS LEVELS ORDERS BATCH :=
  match system.call with
  | .idle => system.closeJournal
  | _ => system

/-- A turn of the worker, if it can take it. -/
def persist (system : EngineSystem ACCOUNTS RISK_ORDERS LEVELS ORDERS BATCH) (turn : Journal.WorkerTurn) :
    EngineSystem ACCOUNTS RISK_ORDERS LEVELS ORDERS BATCH :=
  match system.journal.step crc32c JOURNAL_BATCH turn with
  | none => system
  | some (_, journal) => { system with journal := journal }

/-- One step, and the answer of a call that ends with it. -/
def step (system : EngineSystem ACCOUNTS RISK_ORDERS LEVELS ORDERS BATCH) :
    EngineAction →
      Run (Option (Except EngineError Unit) × EngineSystem ACCOUNTS RISK_ORDERS LEVELS ORDERS BATCH)
  | .call request => system.request request
  | .stopAdmission => .ok (none, system.stopAdmission)
  | .advance => system.advance crc32c REPORTS EVENTS
  | .pop => do
    let (_, events) ← system.events.step REPORTS EVENTS .pop
    return (none, { system with events := events })
  | .persist turn => .ok (none, system.persist crc32c JOURNAL_BATCH turn)

/-! ## Uninterrupted calls -/

/-- Between calls there is nothing to advance. -/
theorem execute_advance {system : EngineSystem ACCOUNTS RISK_ORDERS LEVELS ORDERS BATCH}
    (hcall : system.call = .idle) (steps : ℕ) :
    execute (step crc32c REPORTS EVENTS JOURNAL_BATCH) system (List.replicate steps .advance) =
      .ok (List.replicate steps none, system) := by
  have hstep : system.step crc32c REPORTS EVENTS JOURNAL_BATCH .advance = .ok (none, system) := by
    simp only [step, advance, hcall]
  induction steps with
  | zero => rfl
  | succ steps ih =>
    rw [List.replicate_succ, execute_cons hstep, ih]
    rfl

theorem reduceOption_replicate_none {α : Type} (count : ℕ) :
    (List.replicate count (none : Option α)).reduceOption = [] := by
  induction count with
  | zero => rfl
  | succ count ih => exact ih

/-- The answers of a run, and the engine and channel that it leaves. -/
def observed (run : Run (List (Option (Except EngineError Unit)) ×
      EngineSystem ACCOUNTS RISK_ORDERS LEVELS ORDERS BATCH)) :
    Run (List (Except EngineError Unit) × Engine ACCOUNTS RISK_ORDERS LEVELS ORDERS BATCH ×
      Journal.JournalChannel) :=
  run.map fun outcome ↦ (outcome.1.reduceOption, outcome.2.engine, outcome.2.journal.channel)

section Observed

variable {crc32c REPORTS EVENTS JOURNAL_BATCH}
  {system system' : EngineSystem ACCOUNTS RISK_ORDERS LEVELS ORDERS BATCH} {action : EngineAction}

theorem observed_of_returned {result : Except EngineError Unit}
    (hstep : system.step crc32c REPORTS EVENTS JOURNAL_BATCH action = .ok (some result, system'))
    (hcall : system'.call = .idle) (steps : ℕ) :
    observed (execute (step crc32c REPORTS EVENTS JOURNAL_BATCH) system
      (action :: List.replicate steps .advance)) =
      .ok ([result], system'.engine, system'.journal.channel) := by
  rw [execute_cons hstep, execute_advance crc32c REPORTS EVENTS JOURNAL_BATCH hcall]
  show Except.ok (result :: (List.replicate steps none).reduceOption, _, _) = _
  rw [reduceOption_replicate_none]

theorem observed_of_silent
    (hstep : system.step crc32c REPORTS EVENTS JOURNAL_BATCH action = .ok (none, system')) (steps : ℕ) :
    observed (execute (step crc32c REPORTS EVENTS JOURNAL_BATCH) system
      (action :: List.replicate (steps + 1) .advance)) =
      observed (execute (step crc32c REPORTS EVENTS JOURNAL_BATCH) system'
        (.advance :: List.replicate steps .advance)) := by
  rw [execute_cons hstep, List.replicate_succ]
  cases execute (step crc32c REPORTS EVENTS JOURNAL_BATCH) system'
    (.advance :: List.replicate steps .advance) <;> rfl

theorem observed_of_fault {fault : Fault}
    (hstep : system.step crc32c REPORTS EVENTS JOURNAL_BATCH action = .error fault) (steps : ℕ) :
    observed (execute (step crc32c REPORTS EVENTS JOURNAL_BATCH) system
      (action :: List.replicate steps .advance)) = .error fault := by
  rw [execute, hstep]
  rfl

/-- A failure ends with the answer, the latch, and the journal closed. -/
theorem observed_of_closing {error : EngineError} (hcall : system.call = .closing error)
    (hfailed : system.failed = true) (steps : ℕ) :
    observed (execute (step crc32c REPORTS EVENTS JOURNAL_BATCH) system
      (.advance :: List.replicate steps .advance)) =
      .ok ([.error error], system.engine.fail system.journal.channel) := by
  have hstep : system.step crc32c REPORTS EVENTS JOURNAL_BATCH .advance =
      .ok (some (.error error), { system.closeJournal with call := .idle }) := by
    simp only [step, advance, hcall]
  rw [observed_of_returned hstep rfl]
  obtain ⟨events, ⟨writer, channel, worker, sink⟩, failed, configuration, call, accepted, applied⟩ := system
  obtain rfl : failed = true := hfailed
  cases writer <;> rfl

end Observed

section Call

variable {crc32c REPORTS EVENTS JOURNAL_BATCH}
  {events : BoundedEventEngine ACCOUNTS RISK_ORDERS LEVELS ORDERS BATCH}
  {received : List (EventBatch BATCH)} {journal : Journal.System} {failed : Bool}
  {configuration : EngineConfig} {accepted : List Journal.JournalRecord} {applied : List Command}

/-- The admitted command is applied and published. -/
theorem observed_applying (command : Command) :
    observed (execute (step crc32c REPORTS EVENTS JOURNAL_BATCH)
      ⟨⟨events, .admitted (.fromCommand command) command.sequence (.command command), received⟩, journal,
        failed, configuration, .applying command, accepted, applied⟩
      (.advance :: List.replicate 2 .advance)) =
      (events.applyAdmittedCommand REPORTS EVENTS command).map fun outcome ↦
        match outcome with
        | (.error error, events) => ([.error (.apply error)],
            Engine.fail ⟨events, journal.writer, failed, configuration⟩ journal.channel)
        | (.ok _, events) =>
          ([.ok ()], ⟨events, journal.writer, failed, configuration⟩, journal.channel) := by
  unfold BoundedEventEngine.applyAdmittedCommand
  cases hrun : events.gateway.processCommand command (ReportBuffer.new REPORTS) with
  | error fault =>
    apply observed_of_fault
    simp only [step, advance, EventSystem.step, BoundedEventEngine.mutate, hrun]
    rfl
  | ok outcome =>
    obtain ⟨result, gateway, reports⟩ := outcome
    have hmutate : step crc32c REPORTS EVENTS JOURNAL_BATCH
        ⟨⟨events, .admitted (.fromCommand command) command.sequence (.command command), received⟩, journal,
          failed, configuration, .applying command, accepted, applied⟩ .advance =
        .ok (none, ⟨⟨{ events with gateway := gateway },
          .processed (.fromCommand command) command.sequence (BoundedEventEngine.tops events.gateway)
            (BoundedEventEngine.tops gateway) reports.entries result, received⟩, journal, failed,
          configuration, .applying command, accepted, applied ++ [command]⟩) := by
      simp only [step, advance, EventSystem.step, BoundedEventEngine.mutate, hrun]
      rfl
    rw [observed_of_silent hmutate]
    simp only [Run.ok_bind]
    cases hpublish : { events with gateway := gateway }.publishResult EVENTS (.fromCommand command)
        command.sequence (BoundedEventEngine.tops events.gateway) (BoundedEventEngine.tops gateway)
        reports.entries result with
    | error fault =>
      apply observed_of_fault
      simp only [step, advance, EventSystem.step, hpublish]
      rfl
    | ok published =>
      obtain ⟨published, events'⟩ := published
      have hanswer : step crc32c REPORTS EVENTS JOURNAL_BATCH
          ⟨⟨{ events with gateway := gateway },
            .processed (.fromCommand command) command.sequence (BoundedEventEngine.tops events.gateway)
              (BoundedEventEngine.tops gateway) reports.entries result, received⟩, journal, failed,
            configuration, .applying command, accepted, applied ++ [command]⟩ .advance =
          .ok (processed ⟨⟨{ events with gateway := gateway },
            .processed (.fromCommand command) command.sequence (BoundedEventEngine.tops events.gateway)
              (BoundedEventEngine.tops gateway) reports.entries result, received⟩, journal, failed,
            configuration, .applying command, accepted, applied ++ [command]⟩ command
            ⟨events', .idle, received⟩ (some (published.map fun _ ↦ ()))) := by
        simp only [step, advance, EventSystem.step, hpublish]
        rfl
      cases published with
      | error error =>
        rw [observed_of_silent hanswer, observed_of_closing rfl rfl]
        rfl
      | ok batch =>
        rw [observed_of_returned hanswer rfl]
        rfl

/-- The admitted command is journaled, applied and published. -/
theorem observed_enqueueing {writer : Journal.JournalWriter} (hwriter : journal.writer = some writer)
    (command : Command) (payload : Bytes) :
    observed (execute (step crc32c REPORTS EVENTS JOURNAL_BATCH)
      ⟨⟨events, .admitted (.fromCommand command) command.sequence (.command command), received⟩, journal,
        failed, configuration, .enqueueing command payload, accepted, applied⟩
      (.advance :: List.replicate 3 .advance)) =
      match writer.enqueue crc32c journal.channel.queue payload with
      | (.error error, writer, queue) => .ok ([.error (.journal error)],
          ⟨events, some writer, failed, configuration⟩, { journal.channel with queue := queue })
      | (.ok _, writer, queue) =>
        (events.applyAdmittedCommand REPORTS EVENTS command).map fun outcome ↦
          match outcome with
          | (.error error, events) => ([.error (.apply error)],
              Engine.fail ⟨events, some writer, failed, configuration⟩
                { journal.channel with queue := queue })
          | (.ok _, events) => ([.ok ()], ⟨events, some writer, failed, configuration⟩,
              { journal.channel with queue := queue }) := by
  rcases henqueue : writer.enqueue crc32c journal.channel.queue payload with ⟨result, writer', queue⟩
  have hstep : step crc32c REPORTS EVENTS JOURNAL_BATCH
      ⟨⟨events, .admitted (.fromCommand command) command.sequence (.command command), received⟩, journal,
        failed, configuration, .enqueueing command payload, accepted, applied⟩ .advance =
      .ok (enqueued ⟨⟨events, .admitted (.fromCommand command) command.sequence (.command command), received⟩,
        journal, failed, configuration, .enqueueing command payload, accepted, applied⟩ crc32c command
        (some (.enqueued payload result, { journal with
          writer := some writer'
          channel := { journal.channel with queue := queue } }))) := by
    simp only [step, advance, Journal.System.enqueue, hwriter, Option.map_some, henqueue]
  cases result with
  | error error =>
    rw [observed_of_returned hstep rfl]
    rfl
  | ok sequence =>
    rw [observed_of_silent hstep]
    exact observed_applying command

theorem observed_call {request : Request} {command : Command} {payload : Bytes}
    (hresolve : resolve request = .ok (.ok (command, payload))) :
    observed (execute (step crc32c REPORTS EVENTS JOURNAL_BATCH)
      ⟨⟨events, .idle, received⟩, journal, failed, configuration, .idle, accepted, applied⟩
      (.call request :: List.replicate 5 .advance)) =
      (Engine.applyJournaled crc32c REPORTS EVENTS ⟨events, journal.writer, failed, configuration⟩
        journal.channel command payload).map fun outcome ↦ ([outcome.1], outcome.2) := by
  have hbegin : step crc32c REPORTS EVENTS JOURNAL_BATCH
      ⟨⟨events, .idle, received⟩, journal, failed, configuration, .idle, accepted, applied⟩ (.call request) =
      .ok (begin ⟨⟨events, .idle, received⟩, journal, failed, configuration, .idle, accepted, applied⟩
        command payload) := by
    simp only [step, EngineSystem.request, hresolve]
    rfl
  unfold Engine.applyJournaled
  cases failed with
  | true =>
    rw [observed_of_returned hbegin rfl]
    rfl
  | false =>
  cases hpoisoned : journal.channel.status.poisoned with
  | true =>
    simp only [begin, hpoisoned, if_true, if_neg Bool.false_ne_true] at hbegin
    rw [observed_of_silent hbegin, observed_of_closing rfl rfl]
    rfl
  | false =>
  cases hwriter : journal.writer with
  | none =>
    simp only [begin, hpoisoned, hwriter, if_neg Bool.false_ne_true] at hbegin
    rw [observed_of_returned hbegin rfl]
    simp only [if_neg Bool.false_ne_true, engine, hwriter]
    rfl
  | some writer =>
  have hunpoisoned : ¬ journal.channel.status.poisoned = true := by simp [hpoisoned]
  unfold begin at hbegin
  rw [if_neg Bool.false_ne_true, if_neg hunpoisoned] at hbegin
  simp only [hwriter] at hbegin
  simp only [if_neg Bool.false_ne_true]
  by_cases hinstrument : command.instrumentId ≠ Engine.instrument ⟨events, some writer, false, configuration⟩
  · rw [if_pos hinstrument]
    have hinstrument' : command.instrumentId ≠ (engine ⟨⟨events, .idle, received⟩, journal, false,
      configuration, .idle, accepted, applied⟩).instrument := hinstrument
    rw [if_pos hinstrument'] at hbegin
    rw [observed_of_returned hbegin rfl]
    simp only [engine, hwriter]
    rfl
  have hinstrument' : ¬ command.instrumentId ≠ (engine ⟨⟨events, .idle, received⟩, journal, false,
    configuration, .idle, accepted, applied⟩).instrument := hinstrument
  rw [if_neg hinstrument'] at hbegin
  rw [if_neg hinstrument]
  by_cases hsequence :
    writer.nextSequence ≠ Engine.expectedSequence ⟨events, some writer, false, configuration⟩
  · rw [if_pos hsequence]
    have hsequence' : writer.nextSequence ≠ (engine ⟨⟨events, .idle, received⟩, journal, false,
      configuration, .idle, accepted, applied⟩).expectedSequence := hsequence
    rw [if_pos hsequence'] at hbegin
    rw [observed_of_silent hbegin, observed_of_closing rfl rfl]
    simp only [engine, hwriter]
    rfl
  have hsequence' : ¬ writer.nextSequence ≠ (engine ⟨⟨events, .idle, received⟩, journal, false,
    configuration, .idle, accepted, applied⟩).expectedSequence := hsequence
  rw [if_neg hsequence'] at hbegin
  rw [observed_of_silent hbegin, if_neg hsequence]
  cases hadmit : events.admitCommand EVENTS command with
  | error error =>
    have hadmitted : step crc32c REPORTS EVENTS JOURNAL_BATCH
        ⟨⟨events, .idle, received⟩, journal, false, configuration, .admitting command payload, accepted,
          applied⟩ .advance =
        .ok (admitted ⟨⟨events, .idle, received⟩, journal, false, configuration,
          .admitting command payload, accepted, applied⟩ command payload (some (.error error))) := by
      simp only [step, advance, EventSystem.step, BoundedEventEngine.prepare, hadmit]
      rfl
    cases error with
    | backpressured | eventCapacityInvariant | publicationInvariant =>
      rw [observed_of_returned hadmitted rfl]
      simp only [engine, hwriter]
      rfl
    | gateway error =>
      cases error with
      | riskState error =>
        rw [observed_of_silent hadmitted, observed_of_closing rfl rfl]
        simp only [engine, hwriter]
        rfl
      | parse _ | sequence _ _ | risk _ | book _ =>
        rw [observed_of_returned hadmitted rfl]
        simp only [engine, hwriter]
        rfl
  | ok _ =>
    have hadmitted : step crc32c REPORTS EVENTS JOURNAL_BATCH
        ⟨⟨events, .idle, received⟩, journal, false, configuration, .admitting command payload, accepted,
          applied⟩ .advance =
        .ok (none, ⟨⟨events, .admitted (.fromCommand command) command.sequence (.command command), received⟩,
          journal, false, configuration, .enqueueing command payload, accepted, applied⟩) := by
      simp only [step, advance, EventSystem.step, BoundedEventEngine.prepare, hadmit]
      rfl
    rw [observed_of_silent hadmitted, observed_enqueueing hwriter]
    rcases writer.enqueue crc32c journal.channel.queue payload with ⟨result, writer', queue⟩
    cases result with
    | error error => rfl
    | ok sequence =>
      simp only
      cases events.applyAdmittedCommand REPORTS EVENTS command with
      | error fault => rfl
      | ok outcome =>
        obtain ⟨published, events'⟩ := outcome
        cases published <;> rfl

end Call

/-- A call that nothing interrupts is a call of the engine. -/
theorem execute_call (events : BoundedEventEngine ACCOUNTS RISK_ORDERS LEVELS ORDERS BATCH)
    (received : List (EventBatch BATCH)) (journal : Journal.System) (failed : Bool)
    (configuration : EngineConfig) (accepted : List Journal.JournalRecord) (applied : List Command)
    (request : Request) :
    observed (execute (step crc32c REPORTS EVENTS JOURNAL_BATCH)
      ⟨⟨events, .idle, received⟩, journal, failed, configuration, .idle, accepted, applied⟩
      (.call request :: List.replicate 5 .advance)) =
      (Engine.process crc32c REPORTS EVENTS ⟨events, journal.writer, failed, configuration⟩ journal.channel
        request).map fun outcome ↦ ([outcome.1], outcome.2) := by
  cases request with
  | command command => exact observed_call rfl
  | frame bytes =>
    have hprocess : Engine.process crc32c REPORTS EVENTS ⟨events, journal.writer, failed, configuration⟩
        journal.channel (.frame bytes) = Engine.processFrame crc32c REPORTS EVENTS
          ⟨events, journal.writer, failed, configuration⟩ journal.channel bytes := rfl
    rw [hprocess]
    unfold Engine.processFrame
    cases hparse : Wire.parseMessage bytes with
    | error fault =>
      apply observed_of_fault
      simp only [step, EngineSystem.request, resolve, hparse]
      rfl
    | ok parsed =>
      cases parsed with
      | error error =>
        have hstep : step crc32c REPORTS EVENTS JOURNAL_BATCH
            ⟨⟨events, .idle, received⟩, journal, failed, configuration, .idle, accepted, applied⟩
            (.call (.frame bytes)) = .ok (some (.error (.parse error)),
              ⟨⟨events, .idle, received⟩, journal, failed, configuration, .idle, accepted, applied⟩) := by
          simp only [step, EngineSystem.request, resolve, hparse]
          rfl
        rw [observed_of_returned hstep rfl]
        rfl
      | ok message =>
        simp only [Run.ok_bind]
        cases hcommand : message.toCommand with
        | error fault =>
          apply observed_of_fault
          simp only [step, EngineSystem.request, resolve, hparse, Run.ok_bind, hcommand]
          rfl
        | ok command =>
          apply observed_call
          simp only [resolve, hparse, Run.ok_bind, hcommand]
          rfl

end EngineSystem

end DeterministicExchange
