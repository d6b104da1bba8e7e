import DeterministicExchange.Book.OrderIndex
import DeterministicExchange.Book.PriceLevel
import DeterministicExchange.Container.SortedIndex

/-!
# Order book

The single-instrument price-time book of `hft-book`: per side an array of
optional price levels with a sorted level index, and one shared order index.
Matching either fills the best maker directly or builds a plan against the
unchanged book and then applies it. Every indexing operation, `expect`,
assertion and subtraction of the source is a possible fault here.
-/

namespace DeterministicExchange.Book

open Machine

abbrev LevelIndex (LEVELS : ℕ) := SortedIndex.Index PriceTicks LEVELS

structure OrderBook (LEVELS ORDERS : ℕ) where
  instrument : InstrumentId
  bids : Vector (Option (PriceLevel ORDERS)) LEVELS
  asks : Vector (Option (PriceLevel ORDERS)) LEVELS
  index : OrderIndex LEVELS ORDERS
  bidLevels : LevelIndex LEVELS
  askLevels : LevelIndex LEVELS
  deriving DecidableEq

structure CancelledOrder where
  orderId : OrderId
  accountId : AccountId
  quantity : Quantity
  deriving DecidableEq, Repr

structure ReplacedOrder where
  orderId : OrderId
  accountId : AccountId
  oldQuantity : Quantity
  newQuantity : Quantity
  price : PriceTicks
  priorityLost : Bool
  deriving DecidableEq, Repr

structure TopLevel where
  price : PriceTicks
  aggregateQuantity : ℕ
  orderCount : ℕ
  deriving DecidableEq, Repr

/-- One planned fill: the maker's location and the traded quantity. -/
structure FillEntry where
  levelIndex : ℕ
  slot : ℕ
  orderId : OrderId
  price : PriceTicks
  quantity : Quantity
  deriving DecidableEq, Repr

structure MatchPlan where
  fills : List FillEntry
  capacity : ℕ
  makerSide : Side
  restingQuantity : Quantity
  discarded : Quantity
  deriving DecidableEq, Repr

def MatchPlan.new (makerSide : Side) (reportCapacity FILLS : ℕ) : MatchPlan :=
  ⟨[], min reportCapacity FILLS, makerSide, 0, 0⟩

def MatchPlan.pushFill (plan : MatchPlan) (fill : FillEntry) : Except RejectReason MatchPlan :=
  if plan.capacity ≤ plan.fills.length then .error .reportCapacity
  else .ok { plan with fills := plan.fills ++ [fill] }

/-- Bids sort by descending price, asks by ascending price. -/
def descending (side : Side) : Bool := side = .buy

/-- Whether a resting price satisfies the limit of a taker on `side`. -/
def crosses (side : Side) (limit price : PriceTicks) : Bool :=
  match side with
  | .buy => price.val ≤ limit.val
  | .sell => limit.val ≤ price.val

namespace OrderBook

variable {LEVELS ORDERS : ℕ}

def new (LEVELS ORDERS : ℕ) (instrument : InstrumentId) : OrderBook LEVELS ORDERS where
  instrument := instrument
  bids := Vector.replicate LEVELS none
  asks := Vector.replicate LEVELS none
  index := OrderIndex.new LEVELS ORDERS
  bidLevels := SortedIndex.Index.empty _ _
  askLevels := SortedIndex.Index.empty _ _

def sideLevels (book : OrderBook LEVELS ORDERS) : Side → Vector (Option (PriceLevel ORDERS)) LEVELS
  | .buy => book.bids
  | .sell => book.asks

def setSideLevels (book : OrderBook LEVELS ORDERS) (side : Side)
    (levels : Vector (Option (PriceLevel ORDERS)) LEVELS) : OrderBook LEVELS ORDERS :=
  match side with
  | .buy => { book with bids := levels }
  | .sell => { book with asks := levels }

def sideIndex (book : OrderBook LEVELS ORDERS) : Side → LevelIndex LEVELS
  | .buy => book.bidLevels
  | .sell => book.askLevels

def setSideIndex (book : OrderBook LEVELS ORDERS) (side : Side) (sorted : LevelIndex LEVELS) :
    OrderBook LEVELS ORDERS :=
  match side with
  | .buy => { book with bidLevels := sorted }
  | .sell => { book with askLevels := sorted }

def level? (book : OrderBook LEVELS ORDERS) (side : Side) (levelIndex : ℕ) :
    Option (PriceLevel ORDERS) := (book.sideLevels side)[levelIndex]?.join

/-- The access `side_levels(side)[level_index].as_ref().expect(message)`. -/
def expectLevel (book : OrderBook LEVELS ORDERS) (side : Side) (levelIndex : ℕ)
    (message : String) : Run (PriceLevel ORDERS) := do
  let level ← Run.read (book.sideLevels side) levelIndex
  Run.expect message level

/-- Overwrites a level slot that was just read. -/
def putLevel (book : OrderBook LEVELS ORDERS) (side : Side) (levelIndex : ℕ)
    (level : Option (PriceLevel ORDERS)) : OrderBook LEVELS ORDERS :=
  book.setSideLevels side ((book.sideLevels side).setIfInBounds levelIndex level)

/-- The best level and its maintained quantity total. -/
def topLevel (book : OrderBook LEVELS ORDERS) (side : Side) : Option TopLevel := do
  let (price, levelIndex) ← (book.sideIndex side).entries.head?
  let level ← book.level? side levelIndex
  return ⟨price, level.aggregateQuantity, level.len⟩

def containsOrder (book : OrderBook LEVELS ORDERS) (orderId : OrderId) : Bool :=
  (book.index.location orderId).isSome

/-- Resolves an order to its location and owner; a stale entry resolves to nothing. -/
def locate (book : OrderBook LEVELS ORDERS) (orderId : OrderId) :
    Option (OrderLocation × AccountId) := do
  let location ← book.index.location orderId
  let level ← book.level? location.side location.levelIndex
  let order ← level.getLive location.slot
  if order.id ≠ orderId then none else some (location, order.accountId)

/-- The closure that rewrites the stored handle of an order whose index entry moved. -/
def updateReverseSlot (movedId : OrderId) (location : OrderLocation) (newSlot : U32)
    (book : OrderBook LEVELS ORDERS) : Bool × OrderBook LEVELS ORDERS :=
  match book.level? location.side location.levelIndex with
  | none => (false, book)
  | some level =>
    match level.getLive location.slot with
    | none => (false, book)
    | some resting =>
      if resting.id ≠ movedId then (false, book)
      else (true, book.putLevel location.side location.levelIndex
        (some (level.setIndexSlot location.slot resting newSlot)))

def removeIndexEntry (book : OrderBook LEVELS ORDERS) (indexSlot : U32) (orderId : OrderId) :
    Run (Option OrderLocation × OrderBook LEVELS ORDERS) := do
  let (location, index, book) ← book.index.removeAt indexSlot orderId updateReverseSlot book
  return (location, { book with index })

/-- Clears an emptied level slot and its entry in the level index. -/
def dropLevel (book : OrderBook LEVELS ORDERS) (side : Side) (levelIndex : ℕ)
    (price : PriceTicks) : Run (OrderBook LEVELS ORDERS) := do
  let book := book.putLevel side levelIndex none
  match ← (book.sideIndex side).remove price (descending side) with
  | none => .error .debugAssert
  | some (removedIndex, sorted) =>
    Run.debugAssert (removedIndex = levelIndex)
    return book.setSideIndex side sorted

/-- Unlinks a live order and drops its level when it was the last one. -/
def unlinkOrder (book : OrderBook LEVELS ORDERS) (location : OrderLocation)
    (levelMessage orderMessage : String) : Run (RestingOrder × OrderBook LEVELS ORDERS) := do
  let level ← book.expectLevel location.side location.levelIndex levelMessage
  let (removed, level) ← Run.expect orderMessage (← level.unlink location.slot)
  let book := book.putLevel location.side location.levelIndex (some level)
  if level.len = 0 then
    return (removed, ← book.dropLevel location.side location.levelIndex level.price)
  else return (removed, book)

def removeFilledOrder (book : OrderBook LEVELS ORDERS) (location : OrderLocation)
    (orderId : OrderId) (indexSlot : U32) (quantity : Quantity) :
    Run (OrderBook LEVELS ORDERS) := do
  let (removedLocation, book) ← book.removeIndexEntry indexSlot orderId
  Run.debugAssert (removedLocation = some location)
  let (removed, book) ← book.unlinkOrder location "plan level is occupied" "plan maker is live"
  Run.debugAssert (removed.quantity = quantity)
  return book

/-- The level of a price, opened on demand. -/
def acquireLevel (book : OrderBook LEVELS ORDERS) (side : Side) (price : PriceTicks) :
    Run (ℕ × OrderBook LEVELS ORDERS) :=
  match (book.sideIndex side).find price (descending side) with
  | some levelIndex => .ok (levelIndex, book)
  | none => do
    let inserted ← (book.sideIndex side).insert price (descending side)
    let (levelIndex, sorted) ← Run.expect "level capacity was preflighted" inserted
    let levels ← Run.write (book.sideLevels side) levelIndex (some (PriceLevel.new ORDERS price))
    return (levelIndex, (book.setSideIndex side sorted).setSideLevels side levels)

/-- Appends one validated order at the tail of its level and indexes it. -/
def restAtTail (book : OrderBook LEVELS ORDERS) (side : Side) (price : PriceTicks)
    (resting : RestingOrder) : Run (OrderBook LEVELS ORDERS) := do
  let (levelIndex, book) ← book.acquireLevel side price
  let level ← book.expectLevel side levelIndex "indexed level is occupied"
  let (slot, level) ← Run.expect "level order capacity was preflighted" (← level.pushTail resting)
  let (indexSlot, index) ← Run.expect "order index capacity was preflighted"
    (book.index.insert resting.id ⟨side, levelIndex, slot⟩).toOption
  let live ← Run.expect "slot was just inserted" (level.getLive slot)
  return { book.putLevel side levelIndex (some (level.setIndexSlot slot live indexSlot)) with index }

def rest (book : OrderBook LEVELS ORDERS) (order : NewOrder) (quantity : Quantity) :
    Run (OrderBook LEVELS ORDERS) :=
  book.restAtTail order.side order.price
    { id := order.orderId, accountId := order.accountId, indexSlot := 0, quantity,
      sequence := order.sequence }

/-- Admission checks, which run before either matching path. -/
def validateOrder (book : OrderBook LEVELS ORDERS) (order : NewOrder) : Except RejectReason Side :=
  if order.instrumentId ≠ book.instrument then .error .invalidInstrument
  else if order.price.val ≤ 0 then .error .invalidPrice
  else if order.quantity.val = 0 then .error .invalidQuantity
  else if book.containsOrder order.orderId then .error .duplicateOrderId
  else if order.timeInForce = .postOnly ∧
      ((book.sideIndex order.side.opposite).entries.head?.any fun best ↦
        crosses order.side order.price best.1) then .error .postOnlyWouldTrade
  else .ok order.side.opposite

def report (order : NewOrder) (makerId : OrderId) (price : PriceTicks) (quantity : Quantity) :
    ExecutionReport where
  makerOrderId := makerId
  takerOrderId := order.orderId
  instrumentId := order.instrumentId
  price := price
  quantity := quantity
  sequence := order.sequence

section Matching

variable {REPORTS : ℕ}

/-- The fast path: the first maker can satisfy the complete taker. -/
def trySingleFill (book : OrderBook LEVELS ORDERS) (order : NewOrder) (makerSide : Side)
    (reports : ReportBuffer REPORTS) :
    Run (Except RejectReason (Option MatchSummary) × OrderBook LEVELS ORDERS × ReportBuffer REPORTS) :=
  match (book.sideIndex makerSide).entries.head? with
  | none => .ok (.ok none, book, reports)
  | some (price, levelIndex) =>
    if !crosses order.side order.price price then .ok (.ok none, book, reports)
    else do
      match ← Run.read (book.sideLevels makerSide) levelIndex with
      | none => return (.ok none, book, reports)
      | some level =>
        match level.getLive level.queue.head with
        | none => return (.ok none, book, reports)
        | some maker =>
          if maker.quantity.val < order.quantity.val then return (.ok none, book, reports)
          else
            match reports.push (report order maker.id price order.quantity) with
            | .error reason => return (.error reason, book, reports)
            | .ok reports =>
              let summary : MatchSummary := ⟨.filled, order.quantity, 0, 0, 1⟩
              if maker.quantity = order.quantity then
                let book ← book.removeFilledOrder ⟨makerSide, levelIndex, level.queue.head⟩ maker.id
                  maker.indexSlot order.quantity
                return (.ok (some summary), book, reports)
              else
                let quantity ← Run.subWord maker.quantity order.quantity
                let aggregateQuantity ← Run.sub level.aggregateQuantity order.quantity.val
                let level := { level with
                  queue := level.queue.set level.queue.head { maker with quantity }
                  aggregateQuantity }
                return (.ok (some summary), book.putLevel makerSide levelIndex (some level), reports)

/-- Plans the makers of one level. Every iteration records a fill or refuses, so the number of
iterations is bounded by the plan capacity. -/
def planLevel (level : PriceLevel ORDERS) (levelIndex : ℕ) (price : PriceTicks) :
    ℕ → ℕ → Quantity → MatchPlan → Run (Except RejectReason (Quantity × MatchPlan))
  | 0, _, _, _ => .error .diverged
  | fuel + 1, cursor, remaining, plan =>
    if cursor = LinkedSlots.nil ∨ remaining.val = 0 then .ok (.ok (remaining, plan))
    else do
      match ← Run.read level.queue.slots cursor with
      | .free _ => .error (.unreachable "live chain only links live slots")
      | .live maker =>
        let traded := min remaining maker.value.quantity
        match plan.pushFill ⟨levelIndex, cursor, maker.value.id, price, traded⟩ with
        | .error reason => return .error reason
        | .ok plan =>
          let remaining ← Run.subWord remaining traded
          planLevel level levelIndex price fuel maker.next remaining plan

/-- Visits levels best to worst; the first level that does not cross ends the walk. -/
def planLevels (book : OrderBook LEVELS ORDERS) (order : NewOrder) (makerSide : Side) :
    List (PriceTicks × ℕ) → Quantity → MatchPlan → Run (Except RejectReason (Quantity × MatchPlan))
  | [], remaining, plan => .ok (.ok (remaining, plan))
  | (price, levelIndex) :: rest, remaining, plan =>
    if remaining.val = 0 ∨ !crosses order.side order.price price then .ok (.ok (remaining, plan))
    else do
      let level ← book.expectLevel makerSide levelIndex "indexed level is occupied"
      match ← planLevel level levelIndex price (plan.capacity + 2) level.queue.head remaining plan with
      | .error reason => return .error reason
      | .ok (remaining, plan) => planLevels book order makerSide rest remaining plan

/-- Whether the remainder has a level slot with room, or a free level slot. -/
def restingCapacity (book : OrderBook LEVELS ORDERS) (order : NewOrder) :
    Run (Except RejectReason Unit) :=
  match (book.sideIndex order.side).find order.price (descending order.side) with
  | some levelIndex => do
    let level ← book.expectLevel order.side levelIndex "indexed level is occupied"
    return if level.len = ORDERS then .error .priceLevelOrderCapacity else .ok ()
  | none =>
    .ok (if (book.sideIndex order.side).isFull then .error .priceLevelCapacity else .ok ())

def buildPlan (book : OrderBook LEVELS ORDERS) (order : NewOrder) (makerSide : Side)
    (reportCapacity REPORTS : ℕ) : Run (Except RejectReason MatchPlan) := do
  let planned ← book.planLevels order makerSide (book.sideIndex makerSide).entries order.quantity
    (MatchPlan.new makerSide reportCapacity REPORTS)
  match planned with
  | .error reason => return .error reason
  | .ok (remaining, plan) =>
    match order.timeInForce with
    | .fok =>
      if 0 < remaining.val then return .error .insufficientLiquidity
      else return .ok { plan with restingQuantity := remaining, discarded := 0 }
    | .ioc => return .ok { plan with restingQuantity := 0, discarded := remaining }
    | .gtc | .postOnly =>
      if 0 < remaining.val then
        match ← book.restingCapacity order with
        | .error reason => return .error reason
        | .ok () => return .ok { plan with restingQuantity := remaining, discarded := 0 }
      else return .ok { plan with restingQuantity := remaining, discarded := 0 }

/-- Executes one planned fill and emits its report. -/
def applyFill (order : NewOrder) (makerSide : Side) (fill : FillEntry)
    (book : OrderBook LEVELS ORDERS) (reports : ReportBuffer REPORTS) :
    Run (OrderBook LEVELS ORDERS × ReportBuffer REPORTS) := do
  let level ← book.expectLevel makerSide fill.levelIndex "plan level is occupied"
  let maker ← Run.expect "plan maker is live" (level.getLive fill.slot)
  Run.debugAssert (maker.id = fill.orderId)
  let reports ← Run.expect "report capacity was preflighted"
    (reports.push (report order fill.orderId fill.price fill.quantity)).toOption
  if maker.quantity = fill.quantity then
    let book ← book.removeFilledOrder ⟨makerSide, fill.levelIndex, fill.slot⟩ fill.orderId
      maker.indexSlot fill.quantity
    return (book, reports)
  else
    let level ← Run.expect "plan quantity fits the live maker"
      (← level.reduceQuantity fill.slot fill.quantity)
    return (book.putLevel makerSide fill.levelIndex (some level), reports)

def applyFills (order : NewOrder) (makerSide : Side) :
    List FillEntry → OrderBook LEVELS ORDERS → ReportBuffer REPORTS →
      Run (OrderBook LEVELS ORDERS × ReportBuffer REPORTS)
  | [], book, reports => .ok (book, reports)
  | fill :: fills, book, reports => do
    let (book, reports) ← applyFill order makerSide fill book reports
    applyFills order makerSide fills book reports

/-- Applies a plan built against the unchanged book. -/
def applyPlan (book : OrderBook LEVELS ORDERS) (order : NewOrder) (plan : MatchPlan)
    (reports : ReportBuffer REPORTS) :
    Run (OrderBook LEVELS ORDERS × ReportBuffer REPORTS) := do
  let (book, reports) ← applyFills order plan.makerSide plan.fills book reports
  if 0 < plan.restingQuantity.val then
    let book ← book.rest order plan.restingQuantity
    return (book, reports)
  else return (book, reports)

def submitPlan (book : OrderBook LEVELS ORDERS) (order : NewOrder) (makerSide : Side)
    (reports : ReportBuffer REPORTS) :
    Run (Except RejectReason MatchSummary × OrderBook LEVELS ORDERS × ReportBuffer REPORTS) := do
  match ← book.buildPlan order makerSide reports.remainingCapacity REPORTS with
  | .error reason => return (.error reason, book, reports)
  | .ok plan =>
    let initialReportCount := reports.len
    let (book, reports) ← book.applyPlan order plan reports
    let unrested ← Run.subWord order.quantity plan.restingQuantity
    let filled ← Run.subWord unrested plan.discarded
    let state : OrderState :=
      if filled = order.quantity then .filled
      else if filled.val = 0 then .accepted
      else .partiallyFilled
    let reportCount ← Run.sub reports.len initialReportCount
    return (.ok ⟨state, filled, plan.restingQuantity, plan.discarded, reportCount⟩, book, reports)

def submit (book : OrderBook LEVELS ORDERS) (order : NewOrder) (reports : ReportBuffer REPORTS) :
    Run (Except RejectReason MatchSummary × OrderBook LEVELS ORDERS × ReportBuffer REPORTS) :=
  match book.validateOrder order with
  | .error reason => .ok (.error reason, book, reports)
  | .ok makerSide => do
    match ← book.trySingleFill order makerSide reports with
    | (.error reason, book, reports) => return (.error reason, book, reports)
    | (.ok (some summary), book, reports) => return (.ok summary, book, reports)
    | (.ok none, book, reports) => book.submitPlan order makerSide reports

end Matching

/-- Crossing and destination-capacity checks of a replace against the unchanged book. -/
def replacePreflight (book : OrderBook LEVELS ORDERS) (replace : ReplaceOrder)
    (location : OrderLocation) (oldPrice : PriceTicks) : Run (Except RejectReason Unit) :=
  if replace.price ≠ oldPrice ∧
      ((book.sideIndex location.side.opposite).entries.head?.any fun best ↦
        crosses location.side replace.price best.1) then .ok (.error .replaceWouldCross)
  else
    match (book.sideIndex location.side).find replace.price (descending location.side) with
    | some levelIndex => do
      let destination ← book.expectLevel location.side levelIndex "dest level"
      let sameLevel := levelIndex = location.levelIndex ∧ replace.price = oldPrice
      return if destination.len = ORDERS ∧ ¬ sameLevel then .error .priceLevelOrderCapacity else .ok ()
    | none => do
      let source ← book.expectLevel location.side location.levelIndex "source level"
      let freeLevels ← Run.sub LEVELS (book.sideIndex location.side).entries.length
      return if freeLevels = 0 ∧ source.len ≠ 1 then .error .priceLevelCapacity else .ok ()

/-- Amends an owned resting order. -/
def replace (book : OrderBook LEVELS ORDERS) (replace : ReplaceOrder) :
    Run (Except RejectReason ReplacedOrder × OrderBook LEVELS ORDERS) :=
  if replace.instrumentId ≠ book.instrument then .ok (.error .invalidInstrument, book)
  else
    match book.locate replace.orderId with
    | none => .ok (.error .unknownOrder, book)
    | some (location, owner) =>
      if owner ≠ replace.accountId then .ok (.error .notOrderOwner, book)
      else if replace.price.val ≤ 0 then .ok (.error .invalidPrice, book)
      else if replace.quantity.val = 0 then .ok (.error .invalidQuantity, book)
      else do
        let level ← book.expectLevel location.side location.levelIndex "indexed level is occupied"
        let old ← Run.expect "indexed slot is live" (level.getLive location.slot)
        let replaced (priorityLost : Bool) : ReplacedOrder :=
          ⟨replace.orderId, replace.accountId, old.quantity, replace.quantity, replace.price,
            priorityLost⟩
        if replace.price = level.price ∧ replace.quantity.val < old.quantity.val then
          let reduction ← Run.subWord old.quantity replace.quantity
          let level ← Run.expect "replacement reduces the live order"
            (← level.reduceQuantity location.slot reduction)
          return (.ok (replaced false),
            book.putLevel location.side location.levelIndex (some level))
        else
          match ← book.replacePreflight replace location level.price with
          | .error reason => return (.error reason, book)
          | .ok () =>
            let (removed, book) ← book.unlinkOrder location "indexed level is occupied"
              "indexed slot is live"
            Run.debugAssert (removed.id = replace.orderId)
            let (removedLocation, book) ← book.removeIndexEntry removed.indexSlot replace.orderId
            Run.debugAssert (removedLocation = some location)
            let book ← book.restAtTail location.side replace.price
              { id := replace.orderId, accountId := replace.accountId, indexSlot := 0,
                quantity := replace.quantity, sequence := replace.sequence }
            return (.ok (replaced true), book)

/-- Removes an owned resting order. -/
def cancel (book : OrderBook LEVELS ORDERS) (cancel : CancelOrder) :
    Run (Except RejectReason CancelledOrder × OrderBook LEVELS ORDERS) :=
  if cancel.instrumentId ≠ book.instrument then .ok (.error .invalidInstrument, book)
  else
    match book.locate cancel.orderId with
    | none => .ok (.error .unknownOrder, book)
    | some (location, owner) =>
      if owner ≠ cancel.accountId then .ok (.error .notOrderOwner, book)
      else do
        let (removed, book) ← book.unlinkOrder location "indexed level is occupied"
          "indexed slot is live"
        Run.debugAssert (removed.id = cancel.orderId)
        let (removedLocation, book) ← book.removeIndexEntry removed.indexSlot cancel.orderId
        Run.debugAssert (removedLocation = some location)
        return (.ok ⟨removed.id, removed.accountId, removed.quantity⟩, book)

end OrderBook

end DeterministicExchange.Book
