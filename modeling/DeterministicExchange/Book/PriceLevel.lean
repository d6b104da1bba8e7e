import DeterministicExchange.Types
import DeterministicExchange.Container.LinkedSlots

/-!
# Price levels

A price level is a linked queue of resting orders with a maintained quantity
total. The links of a resting order are those of its queue node; the price of
an order belongs to its level.
-/

namespace DeterministicExchange.Book

open Machine LinkedSlots

structure RestingOrder where
  id : OrderId
  accountId : AccountId
  indexSlot : U32
  quantity : Quantity
  sequence : SequenceNumber
  deriving DecidableEq, Repr

structure PriceLevel (ORDERS : ℕ) where
  price : PriceTicks
  aggregateQuantity : ℕ
  queue : Queue RestingOrder ORDERS
  deriving DecidableEq

namespace PriceLevel

variable {ORDERS : ℕ}

def new (ORDERS : ℕ) (price : PriceTicks) : PriceLevel ORDERS :=
  ⟨price, 0, Queue.empty _ ORDERS⟩

def len (level : PriceLevel ORDERS) : ℕ := level.queue.len

def getLive (level : PriceLevel ORDERS) (slot : ℕ) : Option RestingOrder := level.queue.get? slot

/-- Appends at the tail and returns the slot handle, or `none` when the level is full. -/
def pushTail (level : PriceLevel ORDERS) (order : RestingOrder) :
    Run (Option (ℕ × PriceLevel ORDERS)) :=
  match level.queue.pushTail order with
  | none => .ok none
  | some (slot, queue) => do
    let aggregateQuantity ← Run.add 128 level.aggregateQuantity order.quantity.val
    return some (slot, { level with queue, aggregateQuantity })

/-- Detaches a live slot; stale handles change nothing. -/
def unlink (level : PriceLevel ORDERS) (slot : ℕ) :
    Run (Option (RestingOrder × PriceLevel ORDERS)) := do
  match ← level.queue.unlink slot with
  | none => return none
  | some (order, queue) =>
    let aggregateQuantity ← Run.sub level.aggregateQuantity order.quantity.val
    return some (order, { level with queue, aggregateQuantity })

def reduceQuantity (level : PriceLevel ORDERS) (slot : ℕ) (quantity : Quantity) :
    Run (Option (PriceLevel ORDERS)) :=
  match level.getLive slot with
  | none => .ok none
  | some order =>
    match Unsigned.checkedSub order.quantity quantity with
    | none => .ok none
    | some remaining => do
      let aggregateQuantity ← Run.sub level.aggregateQuantity quantity.val
      return some { level with
        queue := level.queue.set slot { order with quantity := remaining }
        aggregateQuantity }

/-- Rewrites the stored index position of a live order. -/
def setIndexSlot (level : PriceLevel ORDERS) (slot : ℕ) (order : RestingOrder) (indexSlot : U32) :
    PriceLevel ORDERS :=
  { level with queue := level.queue.set slot { order with indexSlot } }

end PriceLevel

/-! ## Representation -/

/-- Total quantity of a queue. -/
def totalQuantity (nodes : List (ℕ × RestingOrder)) : ℕ :=
  (nodes.map fun node ↦ node.2.quantity.val).sum

/-- A level stores the queue `nodes`, with a positive quantity in every order. -/
structure PriceLevel.Rep {ORDERS : ℕ} (level : PriceLevel ORDERS) (nodes : List (ℕ × RestingOrder))
    (free : List ℕ) : Prop where
  queue : LinkedSlots.Rep level.queue nodes free
  aggregate : level.aggregateQuantity = totalQuantity nodes
  positive : ∀ node ∈ nodes, 0 < node.2.quantity.val

@[simp] theorem totalQuantity_nil : totalQuantity [] = 0 := rfl

@[simp] theorem totalQuantity_cons (node : ℕ × RestingOrder) (nodes : List (ℕ × RestingOrder)) :
    totalQuantity (node :: nodes) = node.2.quantity.val + totalQuantity nodes := by
  simp [totalQuantity]

@[simp] theorem totalQuantity_append (xs ys : List (ℕ × RestingOrder)) :
    totalQuantity (xs ++ ys) = totalQuantity xs + totalQuantity ys := by
  simp [totalQuantity]

theorem totalQuantity_le (nodes : List (ℕ × RestingOrder)) :
    totalQuantity nodes ≤ nodes.length * (2 ^ 64 - 1) := by
  induction nodes with
  | nil => simp
  | cons node nodes ih =>
    have := node.2.quantity.isLt
    rw [totalQuantity_cons, List.length_cons, Nat.add_mul]
    omega

namespace PriceLevel.Rep

variable {ORDERS : ℕ} {level : PriceLevel ORDERS} {nodes : List (ℕ × RestingOrder)} {free : List ℕ}

theorem len_eq (h : level.Rep nodes free) : level.len = nodes.length := h.queue.len_eq

theorem getLive_eq_some (h : level.Rep nodes free) {slot : ℕ} {order : RestingOrder} :
    level.getLive slot = some order ↔ (slot, order) ∈ nodes := h.queue.get?_eq_some

theorem new (price : PriceTicks) : (PriceLevel.new ORDERS price).Rep [] (List.range ORDERS) where
  queue := LinkedSlots.Rep.empty
  aggregate := rfl
  positive := by simp

theorem slot_lt (h : level.Rep nodes free) {slot : ℕ} {order : RestingOrder}
    (hmem : (slot, order) ∈ nodes) : slot < ORDERS :=
  h.queue.lt_of_mem (List.mem_append_left _ (List.mem_map.mpr ⟨_, hmem, rfl⟩))

/-- Appending a positive order to a level with room. -/
theorem pushTail (hn : ORDERS ≤ 2 ^ 63) {slot : ℕ} (h : level.Rep nodes (slot :: free))
    {order : RestingOrder} (hpos : 0 < order.quantity.val) :
    ∃ level', level.pushTail order = .ok (some (slot, level')) ∧ level'.price = level.price ∧
      level'.Rep (nodes ++ [(slot, order)]) free := by
  obtain ⟨queue, hpush, hrep⟩ := h.queue.pushTail (by unfold LinkedSlots.nil; omega) order
  have hlen := h.queue.length_add
  have htotal := totalQuantity_le nodes
  have hbound : nodes.length * (2 ^ 64 - 1) ≤ 2 ^ 63 * (2 ^ 64 - 1) :=
    Nat.mul_le_mul_right _ (by omega)
  have hadd : level.aggregateQuantity + order.quantity.val < 2 ^ 128 := by
    have := order.quantity.isLt
    rw [h.aggregate]
    omega
  refine ⟨⟨level.price, level.aggregateQuantity + order.quantity.val, queue⟩, ?_, rfl, hrep, ?_, ?_⟩
  · unfold PriceLevel.pushTail
    rw [hpush]
    simp only [Run.add_of_lt hadd, Run.ok_bind]
    rfl
  · simp [h.aggregate]
  · intro node hnode
    rcases List.mem_append.mp hnode with hnode | hnode
    · exact h.positive node hnode
    · rw [List.mem_singleton.mp hnode]
      exact hpos

theorem unlink (hn : ORDERS ≤ 2 ^ 63) {slot : ℕ} {order : RestingOrder}
    {xs ys : List (ℕ × RestingOrder)} (h : level.Rep (xs ++ (slot, order) :: ys) free) :
    ∃ level', level.unlink slot = .ok (some (order, level')) ∧ level'.price = level.price ∧
      level'.Rep (xs ++ ys) (slot :: free) := by
  obtain ⟨queue, hunlink, hrep⟩ := h.queue.unlink (by unfold LinkedSlots.nil; omega)
  have hle : order.quantity.val ≤ level.aggregateQuantity := by
    rw [h.aggregate]
    simp only [totalQuantity_append, totalQuantity_cons]
    omega
  refine ⟨⟨level.price, level.aggregateQuantity - order.quantity.val, queue⟩, ?_, rfl, hrep, ?_, ?_⟩
  · unfold PriceLevel.unlink
    rw [hunlink]
    simp only [Run.ok_bind, Run.sub_of_le hle]
    rfl
  · rw [h.aggregate]
    simp only [totalQuantity_append, totalQuantity_cons]
    omega
  · intro node hnode
    refine h.positive node ?_
    simp only [List.mem_append, List.mem_cons] at hnode ⊢
    tauto

/-- Reducing an order below its quantity keeps its place. -/
theorem reduceQuantity {slot : ℕ} {order : RestingOrder} {xs ys : List (ℕ × RestingOrder)}
    (h : level.Rep (xs ++ (slot, order) :: ys) free) {quantity : Quantity}
    (hlt : quantity.val < order.quantity.val) :
    ∃ level', level.reduceQuantity slot quantity = .ok (some level') ∧
      level'.price = level.price ∧
      level'.Rep (xs ++ (slot, { order with quantity := Unsigned.monus order.quantity quantity }) :: ys)
        free := by
  have hlive : level.getLive slot = some order := h.getLive_eq_some.mpr (by simp)
  have hle : quantity.val ≤ level.aggregateQuantity := by
    rw [h.aggregate]
    simp only [totalQuantity_append, totalQuantity_cons]
    omega
  refine ⟨⟨level.price, level.aggregateQuantity - quantity.val,
    level.queue.set slot { order with quantity := Unsigned.monus order.quantity quantity }⟩,
    ?_, rfl, h.queue.set, ?_, ?_⟩
  · unfold PriceLevel.reduceQuantity
    rw [hlive]
    simp only [Unsigned.checkedSub_of_le hlt.le, Run.sub_of_le hle, Run.ok_bind]
    rfl
  · rw [h.aggregate]
    simp only [totalQuantity_append, totalQuantity_cons, Unsigned.monus_val]
    omega
  · intro node hnode
    simp only [List.mem_append, List.mem_cons] at hnode
    rcases hnode with hnode | rfl | hnode
    · exact h.positive node (by simp [hnode])
    · simp only [Unsigned.monus_val]
      omega
    · exact h.positive node (by simp [hnode])

theorem setIndexSlot {slot : ℕ} {order : RestingOrder} {xs ys : List (ℕ × RestingOrder)}
    (h : level.Rep (xs ++ (slot, order) :: ys) free) (indexSlot : U32) :
    (level.setIndexSlot slot order indexSlot).Rep (xs ++ (slot, { order with indexSlot }) :: ys)
      free := by
  refine ⟨h.queue.set, ?_, ?_⟩
  · show level.aggregateQuantity = _
    rw [h.aggregate]
    simp
  · intro node hnode
    simp only [List.mem_append, List.mem_cons] at hnode
    rcases hnode with hnode | rfl | hnode
    · exact h.positive node (by simp [hnode])
    · exact h.positive (slot, order) (by simp)
    · exact h.positive node (by simp [hnode])

end PriceLevel.Rep

end DeterministicExchange.Book
