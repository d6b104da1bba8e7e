import DeterministicExchange.Machine.Cursor

/-!
# Single-producer single-consumer ring

The ring of `hft-spsc` as a system of two parties. Between two shared accesses
(a cursor load, a slot access, a cursor store) a party only uses its private
cursor and its copy of the peer cursor, so an operation is a walk through the
phases below and the parties take turns at phase boundaries. Cursors wrap.
-/

namespace DeterministicExchange.Spsc

open Machine

/-- A slot is `none` while it is uninitialised or its value has been moved out. -/
structure SpscQueue (T : Type) (N : ℕ) where
  head : U64
  tail : U64
  slots : Vector (Option T) N

inductive QueueConfigError where
  | capacityMustBePowerOfTwo
  deriving DecidableEq, Repr

/-- Where the producer is in `push_impl` or `has_capacity`. -/
inductive ProducerPhase (T : Type) where
  | idle
  | loadHead (value : T)
  | writeSlot (value : T)
  | storeTail
  | loadCapacity

structure Producer (T : Type) where
  tail : U64
  cachedHead : U64
  phase : ProducerPhase T

/-- Where the consumer is in `pop_impl`. -/
inductive ConsumerPhase (T : Type) where
  | idle
  | loadTail
  | readSlot
  | storeHead (value : T)

structure Consumer (T : Type) where
  head : U64
  cachedTail : U64
  phase : ConsumerPhase T

structure System (T : Type) (N : ℕ) where
  queue : SpscQueue T N
  producer : Producer T
  consumer : Consumer T

variable {T : Type} {N : ℕ}

namespace SpscQueue

/-- An empty ring whose cursors stand at `position`. -/
def startingAt (T : Type) (N : ℕ) (position : U64) : SpscQueue T N :=
  ⟨position, position, Vector.replicate N none⟩

def tryNew (T : Type) (N : ℕ) : Except QueueConfigError (SpscQueue T N) :=
  if ¬ N.isPowerOfTwo then .error .capacityMustBePowerOfTwo else .ok (startingAt T N 0)

theorem tryNew_eq_ok {queue : SpscQueue T N} :
    tryNew T N = .ok queue ↔ N.isPowerOfTwo ∧ queue = startingAt T N 0 := by
  unfold tryNew
  split
  · next hnot => simp [hnot]
  · next hpower => simp [not_not.mp hpower, eq_comm]

def split (queue : SpscQueue T N) : System T N :=
  ⟨queue, ⟨queue.tail, queue.head, .idle⟩, ⟨queue.head, queue.tail, .idle⟩⟩

/-- Moves the values out of the slots from `position` to `tail`; `none` is a slot without a value. -/
def drain (slots : Vector (Option T) N) (position tail : U64) : Option (List T) :=
  if position = tail then some []
  else
    match slots[position.val &&& (N - 1)]? with
    | some (some value) =>
      (drain (slots.setIfInBounds (position.val &&& (N - 1)) none) (wrappingSucc position) tail).map
        (value :: ·)
    | _ => none
termination_by (wrappingSub tail position).val
decreasing_by exact wrappingSub_wrappingSucc_lt (by assumption)

def intoInner (queue : SpscQueue T N) : Option (List T) := drain queue.slots queue.head queue.tail

end SpscQueue

/-! ## Steps -/

/-- What a step shows to the outside: calls and returns of the producer, answers of `has_capacity`,
slot accesses with the content that they find, and results of `try_pop`. -/
inductive Event (T : Type) where
  | called (value : T)
  | returned (result : Except T Unit)
  | capacity (free : Bool)
  | wrote (found : Option T)
  | read (found : Option T)
  | took (result : Option T)
  | silent
  | panicked

/-- Who takes the next step: a new operation of an idle party, or the next access of a busy one. -/
inductive Turn (T : Type) where
  | tryPush (value : T)
  | hasCapacity
  | producer
  | tryPop
  | consumer
  | split

namespace System

/-- `tail.wrapping_sub(cached_head) == N`. -/
def full (N : ℕ) (producer : Producer T) : Bool :=
  (wrappingSub producer.tail producer.cachedHead).val = N

def tryPush (system : System T N) (value : T) : Option (Event T × System T N) :=
  match system.producer.phase with
  | .idle =>
    let phase := if full N system.producer then .loadHead value else .writeSlot value
    some (.called value, { system with producer := { system.producer with phase := phase } })
  | _ => none

def hasCapacity (system : System T N) : Option (Event T × System T N) :=
  match system.producer.phase with
  | .idle =>
    if full N system.producer then
      some (.silent, { system with producer := { system.producer with phase := .loadCapacity } })
    else some (.capacity true, system)
  | _ => none

/-- The next shared access of a producer inside `push_impl` or `has_capacity`. -/
def stepProducer (system : System T N) : Option (Event T × System T N) :=
  let producer := system.producer
  match producer.phase with
  | .idle => none
  | .loadHead value =>
    let producer := { producer with cachedHead := system.queue.head }
    if full N producer then
      some (.returned (.error value), { system with producer := { producer with phase := .idle } })
    else some (.silent, { system with producer := { producer with phase := .writeSlot value } })
  | .writeSlot value =>
    let index := producer.tail.val &&& (N - 1)
    match system.queue.slots[index]? with
    | none => some (.panicked, system)
    | some found =>
      some (.wrote found, { system with
        queue := { system.queue with slots := system.queue.slots.setIfInBounds index (some value) }
        producer := { producer with tail := wrappingSucc producer.tail, phase := .storeTail } })
  | .storeTail =>
    some (.returned (.ok ()), { system with
      queue := { system.queue with tail := producer.tail }
      producer := { producer with phase := .idle } })
  | .loadCapacity =>
    let producer := { producer with cachedHead := system.queue.head, phase := .idle }
    some (.capacity (!full N producer), { system with producer := producer })

def tryPop (system : System T N) : Option (Event T × System T N) :=
  match system.consumer.phase with
  | .idle =>
    let phase := if system.consumer.head = system.consumer.cachedTail then .loadTail else .readSlot
    some (.silent, { system with consumer := { system.consumer with phase := phase } })
  | _ => none

/-- The next shared access of a consumer inside `pop_impl`. -/
def stepConsumer (system : System T N) : Option (Event T × System T N) :=
  let consumer := system.consumer
  match consumer.phase with
  | .idle => none
  | .loadTail =>
    let consumer := { consumer with cachedTail := system.queue.tail }
    if consumer.head = consumer.cachedTail then
      some (.took none, { system with consumer := { consumer with phase := .idle } })
    else some (.silent, { system with consumer := { consumer with phase := .readSlot } })
  | .readSlot =>
    let index := consumer.head.val &&& (N - 1)
    match system.queue.slots[index]? with
    | none => some (.panicked, system)
    | some none => some (.read none, system)
    | some (some value) =>
      some (.read (some value), { system with
        queue := { system.queue with slots := system.queue.slots.setIfInBounds index none }
        consumer := { consumer with head := wrappingSucc consumer.head, phase := .storeHead value } })
  | .storeHead value =>
    some (.took (some value), { system with
      queue := { system.queue with head := consumer.head }
      consumer := { consumer with phase := .idle } })

/-- Both endpoints have returned, so that the owner may split or drain the ring again. -/
def quiet (system : System T N) : Bool :=
  match system.producer.phase, system.consumer.phase with
  | .idle, .idle => true
  | _, _ => false

def step (system : System T N) : Turn T → Option (Event T × System T N)
  | .tryPush value => system.tryPush value
  | .hasCapacity => system.hasCapacity
  | .producer => system.stepProducer
  | .tryPop => system.tryPop
  | .consumer => system.stepConsumer
  | .split => if system.quiet then some (.silent, system.queue.split) else none

/-- A system reached with these events, under any interleaving. -/
inductive Reaches (start : System T N) : List (Event T) → System T N → Prop where
  | start : Reaches start [] start
  | step {events : List (Event T)} {system system' : System T N} {event : Event T}
      (h : Reaches start events system) (turn : Turn T) (hstep : system.step turn = some (event, system')) :
      Reaches start (events ++ [event]) system'

end System

/-! ## Histories -/

/-- What the events so far amount to: the argument of an open `try_push`, whether a slot was written
since it was called, whether `has_capacity` has answered `true` since the last `try_push` returned,
the values whose push returned `Ok`, and the values popped. -/
structure History (T : Type) where
  pending : Option T
  written : Bool
  promised : Bool
  pushed : List T
  popped : List T

namespace History

def record (history : History T) : Event T → History T
  | .called value => { history with pending := some value, written := false }
  | .wrote _ => { history with written := true }
  | .capacity free => { history with promised := free || history.promised }
  | .returned (.ok ()) =>
    { history with
      pending := none
      promised := false
      pushed := history.pushed ++ history.pending.toList }
  | .returned (.error _) => { history with pending := none, promised := false }
  | .took (some value) => { history with popped := history.popped ++ [value] }
  | _ => history

def of (events : List (Event T)) : History T := events.foldl record ⟨none, false, false, [], []⟩

theorem of_append (events : List (Event T)) (event : Event T) :
    of (events ++ [event]) = (of events).record event := by
  simp [of]

end History

end DeterministicExchange.Spsc
