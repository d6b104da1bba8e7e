import DeterministicExchange.Events.Stream
import DeterministicExchange.Router.RouteTable

/-!
# Router and matching shards

The router of `hft-router` publishes each command to the queue of the shard that
its instrument is routed to. A matching shard takes its commands one by one,
processes them with its own event engine, and holds back a command that the
event queue has no room for.
-/

namespace DeterministicExchange.Router

open Machine Events

inductive RouterError where
  | parse (error : Wire.ParseError)
  | unknownInstrument (instrument : InstrumentId)
  | unknownShard (shard : ShardId)
  | commandBackpressured (shard : ShardId)
  deriving DecidableEq, Repr

inductive ShardConfigError where
  | instrumentMismatch (route gateway : InstrumentId)
  | events (error : EventEngineConfigError)
  deriving DecidableEq, Repr

inductive ShardStep where
  | idle
  | processed (sequence : SequenceNumber)
  deriving DecidableEq, Repr

inductive ShardError where
  | misrouted (expected received : InstrumentId)
  | eventBackpressured
  | engine (error : EventEngineError)
  deriving DecidableEq, Repr

/-! ## Matching shards -/

structure MatchingShard (ACCOUNTS RISK_ORDERS LEVELS ORDERS_PER_LEVEL BATCH : ℕ) where
  route : InstrumentRoute
  engine : BoundedEventEngine ACCOUNTS RISK_ORDERS LEVELS ORDERS_PER_LEVEL BATCH
  pending : Option Command

/-- What a shard reports of the answer of its engine. -/
def shardResult (command : Command) : Except EventEngineError Unit → Except ShardError ShardStep
  | .ok () => .ok (.processed command.sequence)
  | .error .backpressured => .error .eventBackpressured
  | .error error => .error (.engine error)

namespace MatchingShard

variable {ACCOUNTS RISK_ORDERS LEVELS ORDERS_PER_LEVEL BATCH : ℕ}
  (REPORTS EVENT_QUEUE : ℕ)

/-- A shard on empty queues, for a gateway that trades the instrument of the route. -/
def tryNew (BATCH : ℕ) (route : InstrumentRoute)
    (gateway : Gateway ACCOUNTS RISK_ORDERS LEVELS ORDERS_PER_LEVEL) :
    Except ShardConfigError (MatchingShard ACCOUNTS RISK_ORDERS LEVELS ORDERS_PER_LEVEL BATCH) :=
  if route.instrumentId ≠ gateway.book.instrument then
    .error (.instrumentMismatch route.instrumentId gateway.book.instrument)
  else
    match BoundedEventEngine.tryNew REPORTS BATCH gateway with
    | .error error => .error (.events error)
    | .ok engine => .ok ⟨route, engine, none⟩

/-- Processes the command held back, or else the oldest of the queue; returns the rest of the queue. -/
def tryProcessOne (shard : MatchingShard ACCOUNTS RISK_ORDERS LEVELS ORDERS_PER_LEVEL BATCH)
    (commands : List Command) :
    Run (Except ShardError ShardStep ×
      MatchingShard ACCOUNTS RISK_ORDERS LEVELS ORDERS_PER_LEVEL BATCH × List Command) :=
  let (taken, commands) := match shard.pending with
    | some command => (some command, commands)
    | none => BoundedQueue.tryPop commands
  let shard := { shard with pending := none }
  match taken with
  | none => .ok (.ok .idle, shard, commands)
  | some command =>
    if command.instrumentId ≠ shard.route.instrumentId then
      .ok (.error (.misrouted shard.route.instrumentId command.instrumentId), shard, commands)
    else do
      let (result, engine) ← shard.engine.processCommand REPORTS EVENT_QUEUE command
      let shard := { shard with engine := engine }
      match shardResult command (result.map fun _ ↦ ()) with
      | .error .eventBackpressured =>
        return (.error .eventBackpressured, { shard with pending := some command }, commands)
      | result => return (result, shard, commands)

end MatchingShard

/-! ## Shards at work -/

/-- The capacities of one shard. -/
structure ShardShape where
  accounts : ℕ
  riskOrders : ℕ
  levels : ℕ
  ordersPerLevel : ℕ
  reports : ℕ

abbrev ShardShape.Shard (shape : ShardShape) (BATCH : ℕ) :=
  MatchingShard shape.accounts shape.riskOrders shape.levels shape.ordersPerLevel BATCH

abbrev ShardShape.Gateway (shape : ShardShape) :=
  DeterministicExchange.Gateway shape.accounts shape.riskOrders shape.levels shape.ordersPerLevel

/-- How far the call of a shard has got: it has taken a command, or its engine is processing it. -/
inductive Worker where
  | idle
  | holding (command : Command)
  | serving (command : Command)
  deriving DecidableEq

/-- A shard between its two queues, with the call that is going on and the batches popped so far. -/
structure Lane (shape : ShardShape) (BATCH : ℕ) where
  route : InstrumentRoute
  commands : List Command
  pending : Option Command
  worker : Worker
  events : EventSystem shape.accounts shape.riskOrders shape.levels shape.ordersPerLevel BATCH

namespace Lane

variable {shape : ShardShape} {BATCH : ℕ}

def start (shard : shape.Shard BATCH) : Lane shape BATCH :=
  ⟨shard.route, [], shard.pending, .idle, EventSystem.start shard.engine⟩

/-- The command that the call going on has taken. -/
def inHand (lane : Lane shape BATCH) : Option Command :=
  match lane.worker with
  | .idle => none
  | .holding command | .serving command => some command

/-- `try_process_one` takes a command. -/
def take (lane : Lane shape BATCH) :
    Option (Option Command × Except ShardError ShardStep) × Lane shape BATCH :=
  match lane.worker with
  | .idle =>
    match lane.pending with
    | some command => (none, { lane with worker := .holding command, pending := none })
    | none =>
      match BoundedQueue.tryPop lane.commands with
      | (none, _) => (some (none, .ok .idle), lane)
      | (some command, commands) =>
        (none, { lane with worker := .holding command, commands := commands })
  | _ => (none, lane)

/-- What becomes of the call for a command after a step of the engine. -/
def settle (lane : Lane shape BATCH) (command : Command) :
    Option (Except EventEngineError Unit) →
      Option (Option Command × Except ShardError ShardStep) × Lane shape BATCH
  | none => (none, { lane with worker := .serving command })
  | some result =>
    match shardResult command result with
    | .error .eventBackpressured => (some (some command, .error .eventBackpressured),
        { lane with worker := .idle, pending := some command })
    | result => (some (some command, result), { lane with worker := .idle })

/-- The next step of the call going on. -/
def advance (EVENT_QUEUE : ℕ) (lane : Lane shape BATCH) :
    Run (Option (Option Command × Except ShardError ShardStep) × Lane shape BATCH) :=
  match lane.worker with
  | .idle => .ok (none, lane)
  | .holding command =>
    if command.instrumentId ≠ lane.route.instrumentId then
      .ok (some (some command, .error (.misrouted lane.route.instrumentId command.instrumentId)),
        { lane with worker := .idle })
    else do
      let (reply, events) ← lane.events.step shape.reports EVENT_QUEUE (.call (.command command))
      return { lane with events := events }.settle command reply
  | .serving command => do
    let (reply, events) ← lane.events.step shape.reports EVENT_QUEUE .advance
    return { lane with events := events }.settle command reply

/-- The start of a call, or its next step. -/
inductive Step where
  | take
  | advance

def step (EVENT_QUEUE : ℕ) (lane : Lane shape BATCH) :
    Step → Run (Option (Option Command × Except ShardError ShardStep) × Lane shape BATCH)
  | .take => .ok lane.take
  | .advance => lane.advance EVENT_QUEUE

end Lane

/-! ## The router and its shards -/

structure RoutedSystem (SHARDS : ℕ) (shape : Fin SHARDS → ShardShape) (BATCH : ℕ) where
  routes : RouteTable SHARDS
  lanes : (i : Fin SHARDS) → Lane (shape i) BATCH

inductive Action (SHARDS : ℕ) where
  | routeFrame (frame : Codec.Bytes)
  | routeCommand (command : Command)
  | tryProcessOne (shard : Fin SHARDS)
  | advance (shard : Fin SHARDS)
  | tryEvent (shard : ShardId)

/-- What a step has returned, and the command it was about. -/
inductive Answer (SHARDS BATCH : ℕ) where
  | routed (command : Option Command) (result : Except RouterError ShardId)
  | working
  | returned (shard : Fin SHARDS) (command : Option Command) (result : Except ShardError ShardStep)
  | popped (result : Except RouterError (Option (EventBatch BATCH)))

namespace RoutedSystem

variable {SHARDS : ℕ} {shape : Fin SHARDS → ShardShape} {BATCH : ℕ}

def start (routes : RouteTable SHARDS) (shards : (i : Fin SHARDS) → (shape i).Shard BATCH) :
    RoutedSystem SHARDS shape BATCH := ⟨routes, fun i ↦ Lane.start (shards i)⟩

def setLane (system : RoutedSystem SHARDS shape BATCH) (i : Fin SHARDS) (lane : Lane (shape i) BATCH) :
    RoutedSystem SHARDS shape BATCH := { system with lanes := Function.update system.lanes i lane }

/-- Publishes one command to the queue of its shard. -/
def routeCommand (COMMAND_QUEUE : ℕ) (system : RoutedSystem SHARDS shape BATCH) (command : Command) :
    Run (Except RouterError ShardId × RoutedSystem SHARDS shape BATCH) := do
  match ← system.routes.shardFor command.instrumentId with
  | none => return (.error (.unknownInstrument command.instrumentId), system)
  | some shard =>
    if h : shard.val < SHARDS then
      let lane := system.lanes ⟨shard.val, h⟩
      match BoundedQueue.tryPush COMMAND_QUEUE lane.commands command with
      | (.error _, commands) => return (.error (.commandBackpressured shard),
          system.setLane ⟨shard.val, h⟩ { lane with commands := commands })
      | (.ok (), commands) =>
        return (.ok shard, system.setLane ⟨shard.val, h⟩ { lane with commands := commands })
    else return (.error (.unknownShard shard), system)

/-- Parses a frame and publishes its command; returns the command that it stands for. -/
def routeFrame (COMMAND_QUEUE : ℕ) (system : RoutedSystem SHARDS shape BATCH) (frame : Codec.Bytes) :
    Run (Option Command × Except RouterError ShardId × RoutedSystem SHARDS shape BATCH) := do
  match ← Wire.parseMessage frame with
  | .error error => return (none, .error (.parse error), system)
  | .ok message =>
    let command ← message.toCommand
    return (some command, ← system.routeCommand COMMAND_QUEUE command)

/-- Pops the next batch of one shard. -/
def tryEvent (system : RoutedSystem SHARDS shape BATCH) (shard : ShardId) :
    Except RouterError (Option (EventBatch BATCH)) × RoutedSystem SHARDS shape BATCH :=
  if h : shard.val < SHARDS then
    let lane := system.lanes ⟨shard.val, h⟩
    match BoundedQueue.tryPop lane.events.engine.queue with
    | (none, _) => (.ok none, system)
    | (some batch, queue) => (.ok (some batch), system.setLane ⟨shard.val, h⟩ { lane with
        events := { lane.events with
          engine := { lane.events.engine with queue := queue }
          received := lane.events.received ++ [batch] } })
  else (.error (.unknownShard shard), system)

/-- A step of shard `i` and its answer. -/
def stepLane (system : RoutedSystem SHARDS shape BATCH) (i : Fin SHARDS) :
    Option (Option Command × Except ShardError ShardStep) × Lane (shape i) BATCH →
      Answer SHARDS BATCH × RoutedSystem SHARDS shape BATCH
  | (none, lane) => (.working, system.setLane i lane)
  | (some (command, result), lane) => (.returned i command result, system.setLane i lane)

/-- One call of the router, or one step of a shard. -/
def step (COMMAND_QUEUE EVENT_QUEUE : ℕ) (system : RoutedSystem SHARDS shape BATCH) :
    Action SHARDS → Run (Answer SHARDS BATCH × RoutedSystem SHARDS shape BATCH)
  | .routeFrame frame => do
    let (command, result, system) ← system.routeFrame COMMAND_QUEUE frame
    return (.routed command result, system)
  | .routeCommand command => do
    let (result, system) ← system.routeCommand COMMAND_QUEUE command
    return (.routed (some command) result, system)
  | .tryProcessOne i => .ok (system.stepLane i (system.lanes i).take)
  | .advance i => do return system.stepLane i (← (system.lanes i).advance EVENT_QUEUE)
  | .tryEvent shard =>
    let (result, system) := system.tryEvent shard
    .ok (.popped result, system)

end RoutedSystem

end DeterministicExchange.Router
