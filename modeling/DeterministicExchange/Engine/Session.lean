import DeterministicExchange.Engine.Routed
import DeterministicExchange.Session.Session

/-!
# Session engine

Session sequencing and routed application behind one admission boundary. A
command is staged in a copy of the session, served by the engine it is routed
to, and the copy becomes the session when the engine has applied it. Consumers
and workers of all shards may take steps of their own between any two accesses.
-/

namespace DeterministicExchange

open Machine Codec Router Session

inductive SessionAdmissionError where
  | session (error : SessionError)
  | routed (error : RoutedEngineError)
  | commandEventRequiresAdmission
  deriving DecidableEq

/-- What the calls return. -/
inductive SessionAnswer where
  | transition (result : Except SessionAdmissionError Transition)
  | command (result : Except SessionAdmissionError ShardId)
  | admissionStopped
  deriving DecidableEq

/-- Where the call that is going on has got to: the health of the shards of the routes in `rest` is still
to be read, an engine serves the command, its health is read after an error, or the journals of the
shards in `rest` are still to be closed. -/
inductive SessionCall (SHARDS : ℕ) where
  | idle
  | scanning (rest : List InstrumentRoute) (sequence : SequenceNumber) (command : Command) (now : U64)
  | serving (shard : ShardId) (staged : SessionStateMachine) (now : U64)
  | checking (shard : ShardId) (error : EngineError) (now : U64)
  | stopping (rest : List (Fin SHARDS)) (answer : SessionAnswer)

structure SessionSystem (SHARDS ACCOUNTS RISK_ORDERS LEVELS ORDERS BATCH : ℕ) where
  session : SessionStateMachine
  routed : RoutedSystem SHARDS ACCOUNTS RISK_ORDERS LEVELS ORDERS BATCH
  call : SessionCall SHARDS

/-- Calls of the session engine, the next step inside a call, and steps of the consumers and workers. -/
inductive SessionAction (SHARDS : ℕ) where
  | handleSession (event : SessionEvent) (now : U64)
  | tick (now : U64)
  | process (sequence : SequenceNumber) (request : Events.Request) (now : U64)
  | stopAdmission
  | advance
  | pop (shard : Fin SHARDS)
  | persist (shard : Fin SHARDS) (turn : Journal.WorkerTurn)

namespace SessionSystem

variable {SHARDS ACCOUNTS RISK_ORDERS LEVELS ORDERS BATCH : ℕ}

def new (config : SessionConfig) (routed : RoutedSystem SHARDS ACCOUNTS RISK_ORDERS LEVELS ORDERS BATCH) :
    SessionSystem SHARDS ACCOUNTS RISK_ORDERS LEVELS ORDERS BATCH :=
  ⟨.new config, routed, .idle⟩

/-- Closes the journals of all shards before the call returns. -/
def stop (system : SessionSystem SHARDS ACCOUNTS RISK_ORDERS LEVELS ORDERS BATCH) (answer : SessionAnswer) :
    SessionSystem SHARDS ACCOUNTS RISK_ORDERS LEVELS ORDERS BATCH :=
  { system with call := .stopping (List.finRange SHARDS) answer }

/-- Takes over a staged session; a failed one ends the admission. -/
def adopt (system : SessionSystem SHARDS ACCOUNTS RISK_ORDERS LEVELS ORDERS BATCH) :
    Except SessionError Transition × SessionStateMachine →
      Option SessionAnswer × SessionSystem SHARDS ACCOUNTS RISK_ORDERS LEVELS ORDERS BATCH
  | (.error error, _) => (some (.transition (.error (.session error))), system)
  | (.ok transition, staged) =>
    let system := { system with session := staged }
    if transition.state = .failed then (none, system.stop (.transition (.ok transition)))
    else (some (.transition (.ok transition)), system)

def handleSession (system : SessionSystem SHARDS ACCOUNTS RISK_ORDERS LEVELS ORDERS BATCH)
    (event : SessionEvent) (now : U64) :
    Option SessionAnswer × SessionSystem SHARDS ACCOUNTS RISK_ORDERS LEVELS ORDERS BATCH :=
  match event with
  | .command _ => (some (.transition (.error .commandEventRequiresAdmission)), system)
  | event => system.adopt (system.session.handle event now)

def tick (system : SessionSystem SHARDS ACCOUNTS RISK_ORDERS LEVELS ORDERS BATCH) (now : U64) :
    Run (Option SessionAnswer × SessionSystem SHARDS ACCOUNTS RISK_ORDERS LEVELS ORDERS BATCH) := do
  return system.adopt (← system.session.tick now)

def processCommand (system : SessionSystem SHARDS ACCOUNTS RISK_ORDERS LEVELS ORDERS BATCH)
    (sequence : SequenceNumber) (command : Command) (now : U64) :
    SessionSystem SHARDS ACCOUNTS RISK_ORDERS LEVELS ORDERS BATCH :=
  { system with call := .scanning system.routed.routes.byInstrument.toList sequence command now }

def processFrame (system : SessionSystem SHARDS ACCOUNTS RISK_ORDERS LEVELS ORDERS BATCH)
    (sequence : SequenceNumber) (frame : Bytes) (now : U64) :
    Run (Option SessionAnswer × SessionSystem SHARDS ACCOUNTS RISK_ORDERS LEVELS ORDERS BATCH) := do
  match ← Wire.parseMessage frame with
  | .error error => return (some (.command (.error (.routed (.parse error)))), system)
  | .ok message => return (none, system.processCommand sequence (← message.toCommand) now)

def process (system : SessionSystem SHARDS ACCOUNTS RISK_ORDERS LEVELS ORDERS BATCH)
    (sequence : SequenceNumber) (request : Events.Request) (now : U64) :
    Run (Option SessionAnswer × SessionSystem SHARDS ACCOUNTS RISK_ORDERS LEVELS ORDERS BATCH) :=
  match request with
  | .command command => .ok (none, system.processCommand sequence command now)
  | .frame bytes => system.processFrame sequence bytes now

/-- Fails the session with the engine that has failed. -/
def fail (system : SessionSystem SHARDS ACCOUNTS RISK_ORDERS LEVELS ORDERS BATCH) (error : RoutedEngineError)
    (now : U64) : SessionSystem SHARDS ACCOUNTS RISK_ORDERS LEVELS ORDERS BATCH :=
  { system with session := (system.session.handle .fail now).2 }.stop (.command (.error (.routed error)))

/-- What a call does with the answer of the engine that serves its command. -/
def served (system : SessionSystem SHARDS ACCOUNTS RISK_ORDERS LEVELS ORDERS BATCH) (shard : ShardId)
    (staged : SessionStateMachine) (now : U64) : Option (Except EngineError Unit) →
      Option SessionAnswer × SessionSystem SHARDS ACCOUNTS RISK_ORDERS LEVELS ORDERS BATCH
  | none => (none, { system with call := .serving shard staged now })
  | some (.ok ()) => (some (.command (.ok shard)), { system with session := staged, call := .idle })
  | some (.error error) => (none, { system with call := .checking shard error now })

variable (crc32c : Bytes → U32) (REPORTS EVENTS : ℕ) (JOURNAL_BATCH : ℕ → ℕ)

/-- With all shards in health, stages the command in a copy of the session and hands it to its engine. -/
def stage (system : SessionSystem SHARDS ACCOUNTS RISK_ORDERS LEVELS ORDERS BATCH)
    (sequence : SequenceNumber) (command : Command) (now : U64) :
    Run (Option SessionAnswer × SessionSystem SHARDS ACCOUNTS RISK_ORDERS LEVELS ORDERS BATCH) :=
  match system.session.handle (.command sequence) now with
  | (.error error, _) => .ok (some (.command (.error (.session error))), { system with call := .idle })
  | (.ok _, staged) => do
    match ← system.routed.processCommand crc32c REPORTS EVENTS JOURNAL_BATCH command with
    | .error error => return (some (.command (.error (.routed error))), { system with call := .idle })
    | .ok (shard, reply, routed) => return { system with routed := routed }.served shard staged now reply

/-- The next access of the call going on to what it shares. -/
def advance (system : SessionSystem SHARDS ACCOUNTS RISK_ORDERS LEVELS ORDERS BATCH) :
    Run (Option SessionAnswer × SessionSystem SHARDS ACCOUNTS RISK_ORDERS LEVELS ORDERS BATCH) :=
  match system.call with
  | .idle => .ok (none, system)
  | .scanning (route :: rest) sequence command now =>
    if system.routed.hasFailed route.shardId then
      .ok (none, system.fail (.engine route.shardId .persistenceFailed) now)
    else .ok (none, { system with call := .scanning rest sequence command now })
  | .scanning [] sequence command now => system.stage crc32c REPORTS EVENTS JOURNAL_BATCH sequence command now
  | .serving shard staged now => do
    let (reply, routed) ← system.routed.step crc32c REPORTS EVENTS JOURNAL_BATCH shard.val .advance
    return { system with routed := routed }.served shard staged now reply
  | .checking shard error now =>
    if system.routed.hasFailed shard then .ok (none, system.fail (.engine shard error) now)
    else .ok (some (.command (.error (.routed (.engine shard error)))), { system with call := .idle })
  | .stopping (shard :: rest) answer => do
    let (_, routed) ← system.routed.step crc32c REPORTS EVENTS JOURNAL_BATCH shard.val .stopAdmission
    return (none, { system with routed := routed, call := .stopping rest answer })
  | .stopping [] answer => .ok (some answer, { system with call := .idle })

/-- A step of the consumer or the worker of a shard. -/
def aside (system : SessionSystem SHARDS ACCOUNTS RISK_ORDERS LEVELS ORDERS BATCH) (shard : Fin SHARDS)
    (action : EngineAction) :
    Run (Option SessionAnswer × SessionSystem SHARDS ACCOUNTS RISK_ORDERS LEVELS ORDERS BATCH) := do
  let (_, routed) ← system.routed.step crc32c REPORTS EVENTS JOURNAL_BATCH shard.val action
  return (none, { system with routed := routed })

/-- Calls begin when none is going on. -/
def step (system : SessionSystem SHARDS ACCOUNTS RISK_ORDERS LEVELS ORDERS BATCH)
    (action : SessionAction SHARDS) :
    Run (Option SessionAnswer × SessionSystem SHARDS ACCOUNTS RISK_ORDERS LEVELS ORDERS BATCH) :=
  match system.call, action with
  | _, .advance => system.advance crc32c REPORTS EVENTS JOURNAL_BATCH
  | _, .pop shard => system.aside crc32c REPORTS EVENTS JOURNAL_BATCH shard .pop
  | _, .persist shard turn => system.aside crc32c REPORTS EVENTS JOURNAL_BATCH shard (.persist turn)
  | .idle, .handleSession event now => .ok (system.handleSession event now)
  | .idle, .tick now => system.tick now
  | .idle, .process sequence request now => system.process sequence request now
  | .idle, .stopAdmission => .ok (none, system.stop .admissionStopped)
  | _, _ => .ok (none, system)

end SessionSystem

end DeterministicExchange
