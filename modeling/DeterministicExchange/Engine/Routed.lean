import DeterministicExchange.Engine.WriteAhead
import DeterministicExchange.Router.RouteTable

/-!
# Routed engines

Fixed routes over journaled engines, one for each shard. Every engine keeps its
queues, its consumer and its worker to itself, and a step of one shard leaves the
others as they were.
-/

namespace DeterministicExchange

open Machine Codec Router

inductive RoutedEngineBuildError where
  | instrumentMismatch (shard : ShardId) (route engine : InstrumentId)
  deriving DecidableEq

inductive RoutedEngineError where
  | parse (error : Wire.ParseError)
  | unknownInstrument (instrument : InstrumentId)
  | engine (shard : ShardId) (error : EngineError)
  deriving DecidableEq

/-- The engines are indexed by shard. -/
structure RoutedSystem (SHARDS ACCOUNTS RISK_ORDERS LEVELS ORDERS BATCH : ℕ) where
  routes : RouteTable SHARDS
  engines : Vector (EngineSystem ACCOUNTS RISK_ORDERS LEVELS ORDERS BATCH) SHARDS

namespace RoutedSystem

variable {SHARDS ACCOUNTS RISK_ORDERS LEVELS ORDERS BATCH : ℕ}

/-- Every engine trades the instrument of its route. -/
def checkEngines (engines : Vector (EngineSystem ACCOUNTS RISK_ORDERS LEVELS ORDERS BATCH) SHARDS) :
    List InstrumentRoute → Run (Except RoutedEngineBuildError Unit)
  | [] => .ok (.ok ())
  | route :: routes => do
    let system ← Run.read engines route.shardId.val
    if system.engine.instrument ≠ route.instrumentId then
      return .error (.instrumentMismatch route.shardId route.instrumentId system.engine.instrument)
    else checkEngines engines routes

def tryNew (routes : RouteTable SHARDS)
    (engines : Vector (EngineSystem ACCOUNTS RISK_ORDERS LEVELS ORDERS BATCH) SHARDS) :
    Run (Except RoutedEngineBuildError (RoutedSystem SHARDS ACCOUNTS RISK_ORDERS LEVELS ORDERS BATCH)) := do
  match ← checkEngines engines routes.byInstrument.toList with
  | .error error => return .error error
  | .ok () => return .ok ⟨routes, engines⟩

def health (routed : RoutedSystem SHARDS ACCOUNTS RISK_ORDERS LEVELS ORDERS BATCH) (shard : ShardId) :
    Option Health :=
  routed.engines[shard.val]?.map fun system ↦ system.engine.health system.journal.channel.status

/-- The health of the shard reads as failed. -/
def hasFailed (routed : RoutedSystem SHARDS ACCOUNTS RISK_ORDERS LEVELS ORDERS BATCH) (shard : ShardId) :
    Bool :=
  (routed.health shard).any fun health ↦ health.state = .failed

def engine (routed : RoutedSystem SHARDS ACCOUNTS RISK_ORDERS LEVELS ORDERS BATCH) (shard : Fin SHARDS) :
    EngineSystem ACCOUNTS RISK_ORDERS LEVELS ORDERS BATCH := routed.engines[shard.val]

variable (crc32c : Bytes → U32) (REPORTS EVENTS : ℕ) (JOURNAL_BATCH : ℕ → ℕ)

/-- A step of the engine of one shard, of its consumer or of its worker. -/
def step (routed : RoutedSystem SHARDS ACCOUNTS RISK_ORDERS LEVELS ORDERS BATCH) (shard : ℕ)
    (action : EngineAction) :
    Run (Option (Except EngineError Unit) ×
      RoutedSystem SHARDS ACCOUNTS RISK_ORDERS LEVELS ORDERS BATCH) := do
  let system ← Run.read routed.engines shard
  let (reply, system) ← system.step crc32c REPORTS EVENTS (JOURNAL_BATCH shard) action
  return (reply, { routed with engines := ← Run.write routed.engines shard system })

/-- Begins the call of the engine that the command is routed to. -/
def processCommand (routed : RoutedSystem SHARDS ACCOUNTS RISK_ORDERS LEVELS ORDERS BATCH)
    (command : Command) :
    Run (Except RoutedEngineError (ShardId × Option (Except EngineError Unit) ×
      RoutedSystem SHARDS ACCOUNTS RISK_ORDERS LEVELS ORDERS BATCH)) := do
  match ← routed.routes.shardFor command.instrumentId with
  | none => return .error (.unknownInstrument command.instrumentId)
  | some shard =>
    return .ok (shard, ← routed.step crc32c REPORTS EVENTS JOURNAL_BATCH shard.val (.call (.command command)))

/-- The routed engines with another state of one shard. -/
def place (routed : RoutedSystem SHARDS ACCOUNTS RISK_ORDERS LEVELS ORDERS BATCH) (shard : Fin SHARDS)
    (system : EngineSystem ACCOUNTS RISK_ORDERS LEVELS ORDERS BATCH) :
    RoutedSystem SHARDS ACCOUNTS RISK_ORDERS LEVELS ORDERS BATCH :=
  { routed with engines := routed.engines.setIfInBounds shard.val system }

section Place

variable {routed : RoutedSystem SHARDS ACCOUNTS RISK_ORDERS LEVELS ORDERS BATCH} {shard : Fin SHARDS}
  {system : EngineSystem ACCOUNTS RISK_ORDERS LEVELS ORDERS BATCH}

@[simp] theorem routes_place : (routed.place shard system).routes = routed.routes := rfl

@[simp] theorem engine_place_self : (routed.place shard system).engine shard = system := by
  simp [place, engine]

theorem engine_place_of_ne {other : Fin SHARDS} (h : other ≠ shard) :
    (routed.place shard system).engine other = routed.engine other := by
  have hne : shard.val ≠ other.val := fun heq ↦ h (Fin.ext heq.symm)
  simp [place, engine, hne]

/-- What holds of the new state of one shard and of the other shards holds of all. -/
theorem forall_place (property : Fin SHARDS → EngineSystem ACCOUNTS RISK_ORDERS LEVELS ORDERS BATCH → Prop)
    (hself : property shard system)
    (hothers : ∀ other, other ≠ shard → property other (routed.engine other)) (other : Fin SHARDS) :
    property other ((routed.place shard system).engine other) := by
  by_cases heq : other = shard
  · subst heq
    rwa [engine_place_self]
  · rw [engine_place_of_ne heq]
    exact hothers other heq

theorem getElem?_engines (routed : RoutedSystem SHARDS ACCOUNTS RISK_ORDERS LEVELS ORDERS BATCH)
    (shard : Fin SHARDS) : routed.engines[shard.val]? = some (routed.engine shard) := by
  simp [engine]

variable {crc32c REPORTS EVENTS JOURNAL_BATCH}

theorem step_eq_place {action : EngineAction} {reply : Option (Except EngineError Unit)}
    (h : (routed.engine shard).step crc32c REPORTS EVENTS (JOURNAL_BATCH shard.val) action =
      .ok (reply, system)) :
    routed.step crc32c REPORTS EVENTS JOURNAL_BATCH shard.val action =
      .ok (reply, routed.place shard system) := by
  unfold RoutedSystem.step
  simp only [Run.read_eq_ok.mpr (routed.getElem?_engines shard), Run.ok_bind, h,
    Run.write_of_lt _ _ shard.isLt]
  rfl

/-- A shard reads as failed exactly if its engine has failed or its persistence is poisoned. -/
theorem hasFailed_iff {id : ShardId} (hid : shard.val = id.val) :
    routed.hasFailed id = true ↔ (routed.engine shard).failed = true ∨
      (routed.engine shard).journal.channel.status.poisoned = true := by
  unfold hasFailed health
  rw [← hid, getElem?_engines, Option.map_some, Option.any_some]
  unfold Engine.health EngineSystem.engine
  cases (routed.engine shard).failed <;>
    cases (routed.engine shard).journal.channel.status.poisoned <;>
    cases (routed.engine shard).journal.writer <;>
    cases (routed.engine shard).journal.channel.status.shutdownComplete <;> simp

end Place

end RoutedSystem

end DeterministicExchange
