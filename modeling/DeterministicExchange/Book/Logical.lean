import DeterministicExchange.Book.OrderBook

/-!
# Logical order book

What the order book stores, without handles: each side is a list of price
levels from best to worst, and a level is the queue of its orders. The
operations below are total functions of this state. They say what matching,
cancelling and replacing mean, and the capacities of the fixed-size book
appear in them as bounds only.

`Matched` describes a matching walk one fill at a time. Each fill trades
against the head order of the best level, so results about walks are proved
by induction over it.
-/

namespace DeterministicExchange.Logical

open Machine DeterministicExchange.Book

structure Order where
  id : OrderId
  accountId : AccountId
  quantity : Quantity
  sequence : SequenceNumber
  deriving DecidableEq, Repr

structure Level where
  price : PriceTicks
  orders : List Order
  deriving DecidableEq, Repr

structure Book where
  instrument : InstrumentId
  bids : List Level
  asks : List Level
  deriving DecidableEq, Repr

/-- A trade against one maker. -/
structure Fill where
  makerId : OrderId
  price : PriceTicks
  quantity : Quantity
  deriving DecidableEq, Repr

def Fill.report (order : NewOrder) (fill : Fill) : ExecutionReport :=
  OrderBook.report order fill.makerId fill.price fill.quantity

/-! ## Levels of one side -/

def findOrder (id : OrderId) (levels : List Level) : Option (PriceTicks × Order) :=
  levels.findSome? fun level ↦ (level.orders.find? fun order ↦ order.id = id).map (level.price, ·)

/-- The queue at a price. -/
def queueAt (price : PriceTicks) (levels : List Level) : Option (List Order) :=
  (levels.find? fun level ↦ level.price = price).map Level.orders

/-- Removes an order, and its level when it was alone there. -/
def eraseOrder (id : OrderId) (levels : List Level) : List Level :=
  (levels.map fun level ↦ { level with orders := level.orders.filter fun order ↦ order.id ≠ id }).filter
    fun level ↦ level.orders ≠ []

/-- Sets the quantity of an order in place. -/
def amendOrder (id : OrderId) (quantity : Quantity) (levels : List Level) : List Level :=
  levels.map fun level ↦
    { level with orders := level.orders.map fun order ↦
        if order.id = id then { order with quantity } else order }

/-- Appends an order to the queue at its price, opening a level in its place when there is none. -/
def appendOrder (descending : Bool) (price : PriceTicks) (order : Order) : List Level → List Level
  | [] => [⟨price, [order]⟩]
  | level :: levels =>
    if level.price = price then { level with orders := level.orders ++ [order] } :: levels
    else if SortedIndex.before descending price level.price then
      ⟨price, [order]⟩ :: level :: levels
    else level :: appendOrder descending price order levels

def matchOrders (price : PriceTicks) : List Order → Quantity → List Fill × List Order × Quantity
  | [], remaining => ([], [], remaining)
  | order :: orders, remaining =>
    if remaining.val = 0 then ([], order :: orders, remaining)
    else if remaining.val < order.quantity.val then
      ([⟨order.id, price, remaining⟩],
        { order with quantity := Unsigned.monus order.quantity remaining } :: orders, 0)
    else
      let (fills, rest, remaining) := matchOrders price orders (Unsigned.monus remaining order.quantity)
      (⟨order.id, price, order.quantity⟩ :: fills, rest, remaining)

/-- Trades a taker against the levels within its limit, best level first. -/
def matchLevels (side : Side) (limit : PriceTicks) :
    List Level → Quantity → List Fill × List Level × Quantity
  | [], remaining => ([], [], remaining)
  | level :: levels, remaining =>
    if remaining.val = 0 ∨ !crosses side limit level.price then ([], level :: levels, remaining)
    else
      match matchOrders level.price level.orders remaining with
      | (fills, [], remaining) =>
        let (more, rest, remaining) := matchLevels side limit levels remaining
        (fills ++ more, rest, remaining)
      | (fills, order :: orders, remaining) =>
        (fills, { level with orders := order :: orders } :: levels, remaining)

/-- The orders of one side, best level first, each with its side and price. -/
def entries (side : Side) (levels : List Level) : List (Side × PriceTicks × Order) :=
  levels.flatMap fun level ↦ level.orders.map fun order ↦ (side, level.price, order)

/-! ## The book -/

/-- All resting orders, bids first. -/
def Book.entries (book : Book) : List (Side × PriceTicks × Order) :=
  Logical.entries .buy book.bids ++ Logical.entries .sell book.asks

namespace Book

def empty (instrument : InstrumentId) : Book := ⟨instrument, [], []⟩

def side (book : Book) : Side → List Level
  | .buy => book.bids
  | .sell => book.asks

def setSide (book : Book) (side : Side) (levels : List Level) : Book :=
  match side with
  | .buy => { book with bids := levels }
  | .sell => { book with asks := levels }

def find (book : Book) (id : OrderId) : Option (Side × PriceTicks × Order) :=
  ((findOrder id book.bids).map (Side.buy, ·)).or ((findOrder id book.asks).map (Side.sell, ·))

/-- Whether the best opposing level satisfies a limit of a taker on `side`. -/
def wouldTrade (book : Book) (side : Side) (limit : PriceTicks) : Bool :=
  (book.side side.opposite).head?.any fun level ↦ crosses side limit level.price

def topLevel (book : Book) (side : Side) : Option TopLevel :=
  (book.side side).head?.map fun level ↦
    ⟨level.price, (level.orders.map fun order ↦ order.quantity.val).sum, level.orders.length⟩

/-- Why a remainder cannot rest, if it cannot. -/
def restingReject (LEVELS ORDERS : ℕ) (book : Book) (side : Side) (price : PriceTicks) :
    Option RejectReason :=
  match queueAt price (book.side side) with
  | some orders => if orders.length = ORDERS then some .priceLevelOrderCapacity else none
  | none => if (book.side side).length = LEVELS then some .priceLevelCapacity else none

def append (book : Book) (side : Side) (price : PriceTicks) (order : Order) : Book :=
  book.setSide side (appendOrder (descending side) price order (book.side side))

/-- Why an order is not admitted, if it is not. -/
def admissionReject (book : Book) (order : NewOrder) : Option RejectReason :=
  if order.instrumentId ≠ book.instrument then some .invalidInstrument
  else if order.price.val ≤ 0 then some .invalidPrice
  else if order.quantity.val = 0 then some .invalidQuantity
  else if (book.find order.orderId).isSome then some .duplicateOrderId
  else if order.timeInForce = .postOnly ∧ book.wouldTrade order.side order.price then
    some .postOnlyWouldTrade
  else none

/-- What becomes of the remainder of a walk: the quantities to rest and to discard. -/
def remainderOutcome (LEVELS ORDERS : ℕ) (book : Book) (order : NewOrder) (remaining : Quantity) :
    Except RejectReason (Quantity × Quantity) :=
  match order.timeInForce with
  | .fok => if 0 < remaining.val then .error .insufficientLiquidity else .ok (0, 0)
  | .ioc => .ok (0, remaining)
  | .gtc | .postOnly =>
    if 0 < remaining.val then
      match book.restingReject LEVELS ORDERS order.side order.price with
      | some reason => .error reason
      | none => .ok (remaining, 0)
    else .ok (0, 0)

def matchSummary (order : NewOrder) (resting discarded : Quantity) (reportCount : ℕ) : MatchSummary :=
  let filled := Unsigned.monus (Unsigned.monus order.quantity resting) discarded
  { state :=
      if filled = order.quantity then .filled
      else if filled.val = 0 then .accepted
      else .partiallyFilled
    filledQuantity := filled
    restingQuantity := resting
    discardedQuantity := discarded
    reportCount }

def restingOrder (order : NewOrder) (quantity : Quantity) : Order :=
  ⟨order.orderId, order.accountId, quantity, order.sequence⟩

/-- The book after a walk that left `levels` and rests `resting`. -/
def settleWalk (book : Book) (order : NewOrder) (levels : List Level) (resting : Quantity) : Book :=
  let traded := book.setSide order.side.opposite levels
  if 0 < resting.val then traded.append order.side order.price (restingOrder order resting)
  else traded

/-- Trades an admitted order with at most `capacity` reports. -/
def trade (LEVELS ORDERS capacity : ℕ) (book : Book) (order : NewOrder) :
    Except RejectReason (MatchSummary × List Fill × Book) :=
  let walk := matchLevels order.side order.price (book.side order.side.opposite) order.quantity
  if capacity < walk.1.length then .error .reportCapacity
  else
    match book.remainderOutcome LEVELS ORDERS order walk.2.2 with
    | .error reason => .error reason
    | .ok (resting, discarded) =>
      .ok (matchSummary order resting discarded walk.1.length, walk.1,
        book.settleWalk order walk.2.1 resting)

def submit (LEVELS ORDERS capacity : ℕ) (book : Book) (order : NewOrder) :
    Except RejectReason (MatchSummary × List Fill × Book) :=
  match book.admissionReject order with
  | some reason => .error reason
  | none => book.trade LEVELS ORDERS capacity order

def erase (book : Book) (side : Side) (id : OrderId) : Book :=
  book.setSide side (eraseOrder id (book.side side))

/-- Resolves an owned order. -/
def owned (book : Book) (instrumentId : InstrumentId) (orderId : OrderId) (accountId : AccountId) :
    Except RejectReason (Side × PriceTicks × Order) :=
  if instrumentId ≠ book.instrument then .error .invalidInstrument
  else
    match book.find orderId with
    | none => .error .unknownOrder
    | some found => if found.2.2.accountId ≠ accountId then .error .notOrderOwner else .ok found

def cancel (book : Book) (cancel : CancelOrder) : Except RejectReason (CancelledOrder × Book) :=
  match book.owned cancel.instrumentId cancel.orderId cancel.accountId with
  | .error reason => .error reason
  | .ok (side, _, order) =>
    .ok (⟨order.id, order.accountId, order.quantity⟩, book.erase side cancel.orderId)

/-- Why an order cannot move to the tail of its destination, if it cannot. -/
def moveReject (LEVELS ORDERS : ℕ) (book : Book) (side : Side) (oldPrice price : PriceTicks) :
    Option RejectReason :=
  if price ≠ oldPrice ∧ book.wouldTrade side price then some .replaceWouldCross
  else
    match queueAt price (book.side side) with
    | some orders =>
      if orders.length = ORDERS ∧ price ≠ oldPrice then some .priceLevelOrderCapacity else none
    | none =>
      if (book.side side).length = LEVELS ∧ (queueAt oldPrice (book.side side)).all (·.length ≠ 1) then
        some .priceLevelCapacity
      else none

def replace (LEVELS ORDERS : ℕ) (book : Book) (replace : ReplaceOrder) :
    Except RejectReason (ReplacedOrder × Book) :=
  match book.owned replace.instrumentId replace.orderId replace.accountId with
  | .error reason => .error reason
  | .ok (side, oldPrice, old) =>
    let replaced (priorityLost : Bool) : ReplacedOrder :=
      ⟨replace.orderId, replace.accountId, old.quantity, replace.quantity, replace.price, priorityLost⟩
    if replace.price.val ≤ 0 then .error .invalidPrice
    else if replace.quantity.val = 0 then .error .invalidQuantity
    else if replace.price = oldPrice ∧ replace.quantity.val < old.quantity.val then
      .ok (replaced false,
        book.setSide side (amendOrder replace.orderId replace.quantity (book.side side)))
    else
      match book.moveReject LEVELS ORDERS side oldPrice replace.price with
      | some reason => .error reason
      | none =>
        .ok (replaced true, (book.erase side replace.orderId).append side replace.price
          ⟨replace.orderId, replace.accountId, replace.quantity, replace.sequence⟩)

end Book

end DeterministicExchange.Logical
