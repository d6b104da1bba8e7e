import DeterministicExchange.Book.OrderBook
import DeterministicExchange.Container.Padded

/-!
# Exported book states

The exported state of a book holds its levels from best to worst and the
orders of each level in queue order, in fixed arrays with a count and canonical
padding. `OrderBook.fromState` checks an arbitrary state and rebuilds a book
from it; the errors are those of the source, in the order of its checks.
-/

namespace DeterministicExchange.Book

open Machine

structure BookOrderState where
  orderId : OrderId
  accountId : AccountId
  side : Side
  price : PriceTicks
  quantity : Quantity
  sequence : SequenceNumber
  deriving DecidableEq, Repr

def emptyBookOrderState : BookOrderState := ⟨0, 0, .buy, Signed.zero 64, 0, 0⟩

structure BookLevelState (ORDERS : ℕ) where
  side : Side
  price : PriceTicks
  orderCount : ℕ
  orders : Vector BookOrderState ORDERS
  deriving DecidableEq

def emptyBookLevelState (ORDERS : ℕ) : BookLevelState ORDERS :=
  ⟨.buy, Signed.zero 64, 0, pad ORDERS emptyBookOrderState []⟩

structure BookState (LEVELS ORDERS : ℕ) where
  instrument : InstrumentId
  bidLevelCount : ℕ
  bids : Vector (BookLevelState ORDERS) LEVELS
  askLevelCount : ℕ
  asks : Vector (BookLevelState ORDERS) LEVELS
  deriving DecidableEq

inductive BookStateError where
  | instrument
  | levelCapacity
  | orderCapacity
  | side
  | price
  | quantity
  | sequence
  | levelOrder
  | duplicateOrderId
  | crossed
  | nonCanonical
  deriving DecidableEq, Repr

variable {LEVELS ORDERS : ℕ}

namespace OrderBook

/-! ## Export -/

def exportOrder (side : Side) (price : PriceTicks) (destination : BookLevelState ORDERS)
    (order : RestingOrder) : Run (BookLevelState ORDERS) := do
  let orders ← Run.write destination.orders destination.orderCount
    ⟨order.id, order.accountId, side, price, order.quantity, order.sequence⟩
  return { destination with orders, orderCount := destination.orderCount + 1 }

def exportOrders (side : Side) (price : PriceTicks) :
    List RestingOrder → BookLevelState ORDERS → Run (BookLevelState ORDERS)
  | [], destination => .ok destination
  | order :: orders, destination => do
    let destination ← exportOrder side price destination order
    exportOrders side price orders destination

def exportSide (book : OrderBook LEVELS ORDERS) (side : Side) :
    List (PriceTicks × ℕ) → Vector (BookLevelState ORDERS) LEVELS → ℕ →
      Run (Vector (BookLevelState ORDERS) LEVELS × ℕ)
  | [], output, outputLen => .ok (output, outputLen)
  | (price, levelIndex) :: entries, output, outputLen => do
    match ← Run.read (book.sideLevels side) levelIndex with
    | none => book.exportSide side entries output outputLen
    | some level =>
      let destination ← Run.read output outputLen
      let orders ← level.queue.values
      let destination ← exportOrders side price orders { destination with side, price }
      let output ← Run.write output outputLen destination
      book.exportSide side entries output (outputLen + 1)

def exportState (book : OrderBook LEVELS ORDERS) : Run (BookState LEVELS ORDERS) := do
  let (bids, bidLevelCount) ← book.exportSide .buy book.bidLevels.entries
    (pad LEVELS (emptyBookLevelState ORDERS) []) 0
  let (asks, askLevelCount) ← book.exportSide .sell book.askLevels.entries
    (pad LEVELS (emptyBookLevelState ORDERS) []) 0
  return ⟨book.instrument, bidLevelCount, bids, askLevelCount, asks⟩

/-! ## Validation -/

/-- The check of one order against its level. -/
def orderStateError (side : Side) (price : PriceTicks) (order : BookOrderState) :
    Option BookStateError :=
  if order.side ≠ side then some .side
  else if order.price ≠ price then some .price
  else if order.quantity.val = 0 then some .quantity
  else if order.sequence.val = 0 then some .sequence
  else none

/-- Whether some order is followed by one with the same or a smaller sequence. -/
def outOfSequence : List BookOrderState → Bool
  | first :: second :: rest =>
    decide (second.sequence ≤ first.sequence) || outOfSequence (second :: rest)
  | _ => false

/-- Whether a level at `price` is out of order after `prior`. -/
def misplaced (side : Side) (prior : Option PriceTicks) (price : PriceTicks) : Bool :=
  prior.any fun prior ↦
    match side with
    | .buy => prior.val ≤ price.val
    | .sell => price.val ≤ prior.val

def validateSide (side : Side) :
    List (BookLevelState ORDERS) → Option PriceTicks → Run (Except BookStateError Unit)
  | [], _ => .ok (.ok ())
  | level :: levels, prior =>
    if level.side ≠ side then .ok (.error .side)
    else if level.price.val ≤ 0 then .ok (.error .price)
    else if level.orderCount = 0 ∨ ORDERS < level.orderCount then .ok (.error .orderCapacity)
    else if misplaced side prior level.price then .ok (.error .levelOrder)
    else
      match (level.orders.toList.take level.orderCount).findSome?
          (orderStateError side level.price) with
      | some error => .ok (.error error)
      | none => do
        let live ← Run.sliceTo level.orders level.orderCount
        if outOfSequence live then return .error .sequence
        else
          let unused ← Run.sliceFrom level.orders level.orderCount
          if unused.any (· ≠ emptyBookOrderState) then return .error .nonCanonical
          else validateSide side levels (some level.price)

/-- All orders of a state, bids first. -/
def stateOrders (state : BookState LEVELS ORDERS) : List BookOrderState :=
  (state.bids.toList.take state.bidLevelCount ++ state.asks.toList.take state.askLevelCount).flatMap
    fun level ↦ level.orders.toList.take level.orderCount

def validateUniqueIds (state : BookState LEVELS ORDERS) : Except BookStateError Unit :=
  match (stateOrders state).findSome? fun order ↦
      if (stateOrders state).countP (fun candidate ↦ candidate.orderId = order.orderId) ≠ 1 then
        some BookStateError.duplicateOrderId
      else if (stateOrders state).countP (fun candidate ↦ candidate.sequence = order.sequence) ≠ 1 then
        some .sequence
      else none with
  | some error => .error error
  | none => .ok ()

/-- Whether the best bid reaches the best ask. -/
def crossed (state : BookState LEVELS ORDERS) : Bool :=
  match state.bids[0]?.filter fun _ ↦ 0 < state.bidLevelCount,
    state.asks[0]?.filter fun _ ↦ 0 < state.askLevelCount with
  | some bid, some ask => ask.price.val ≤ bid.price.val
  | _, _ => false

def validateState (state : BookState LEVELS ORDERS) : Run (Except BookStateError Unit) :=
  if LEVELS < state.bidLevelCount ∨ LEVELS < state.askLevelCount then .ok (.error .levelCapacity)
  else do
    match ← validateSide .buy (state.bids.toList.take state.bidLevelCount) none with
    | .error error => return .error error
    | .ok () =>
      match ← validateSide .sell (state.asks.toList.take state.askLevelCount) none with
      | .error error => return .error error
      | .ok () =>
        let unusedBids ← Run.sliceFrom state.bids state.bidLevelCount
        let unusedAsks ← Run.sliceFrom state.asks state.askLevelCount
        if (unusedBids ++ unusedAsks).any (· ≠ emptyBookLevelState ORDERS) then
          return .error .nonCanonical
        else if crossed state then return .error .crossed
        else return validateUniqueIds state

/-! ## Restoring -/

def restoreOrder (book : OrderBook LEVELS ORDERS) (side : Side) (levelIndex : ℕ)
    (order : BookOrderState) : Run (Except BookStateError (OrderBook LEVELS ORDERS)) := do
  match ← Run.read (book.sideLevels side) levelIndex with
  | none => return .error .orderCapacity
  | some level =>
    match ← level.pushTail
        ⟨order.orderId, order.accountId, 0, order.quantity, order.sequence⟩ with
    | none => return .error .orderCapacity
    | some (slot, level) =>
      match book.index.insert order.orderId ⟨side, levelIndex, slot⟩ with
      | .error _ => return .error .duplicateOrderId
      | .ok (indexSlot, index) =>
        match level.getLive slot with
        | none => return .error .orderCapacity
        | some live =>
          return .ok { book.putLevel side levelIndex
            (some (level.setIndexSlot slot live indexSlot)) with index }

def restoreOrders (side : Side) (levelIndex : ℕ) :
    List BookOrderState → OrderBook LEVELS ORDERS →
      Run (Except BookStateError (OrderBook LEVELS ORDERS))
  | [], book => .ok (.ok book)
  | order :: orders, book => do
    match ← book.restoreOrder side levelIndex order with
    | .error error => return .error error
    | .ok book => restoreOrders side levelIndex orders book

def restoreLevel (book : OrderBook LEVELS ORDERS) (state : BookLevelState ORDERS) :
    Run (Except BookStateError (OrderBook LEVELS ORDERS)) := do
  match ← (book.sideIndex state.side).insert state.price (descending state.side) with
  | none => return .error .levelCapacity
  | some (levelIndex, sorted) =>
    let levels ← Run.write (book.sideLevels state.side) levelIndex
      (some (PriceLevel.new ORDERS state.price))
    restoreOrders state.side levelIndex (state.orders.toList.take state.orderCount)
      ((book.setSideIndex state.side sorted).setSideLevels state.side levels)

def restoreLevels : List (BookLevelState ORDERS) → OrderBook LEVELS ORDERS →
    Run (Except BookStateError (OrderBook LEVELS ORDERS))
  | [], book => .ok (.ok book)
  | level :: levels, book => do
    match ← book.restoreLevel level with
    | .error error => return .error error
    | .ok book => restoreLevels levels book

/-- Builds a book from an exported state. The returned book is either complete or absent. -/
def fromState (instrument : InstrumentId) (state : BookState LEVELS ORDERS) :
    Run (Except BookStateError (OrderBook LEVELS ORDERS)) :=
  if state.instrument ≠ instrument then .ok (.error .instrument)
  else do
    match ← validateState state with
    | .error error => return .error error
    | .ok () =>
      match ← restoreLevels (state.bids.toList.take state.bidLevelCount)
          (new LEVELS ORDERS instrument) with
      | .error error => return .error error
      | .ok book => restoreLevels (state.asks.toList.take state.askLevelCount) book

end OrderBook

end DeterministicExchange.Book
