import DeterministicExchange.Book.Logical

/-!
# Reference array book

The reference book of `hft-model` keeps each side as an unsorted vector of price levels and each
level as a dense queue. A submission is planned against the unchanged book and then applied; a
row is located by searching every level. Rows, levels and fills hold the same fields as those of
the logical book.
-/

namespace DeterministicExchange.Model

open Machine DeterministicExchange.Book

abbrev ModelOrder := Logical.Order

abbrev ModelLevels := List Logical.Level

abbrev ModelFill := Logical.Fill

structure ModelBook where
  bids : ModelLevels
  asks : ModelLevels
  deriving DecidableEq, Repr

/-- An index into a vector, which panics outside of it. -/
def readAt {α : Type} (rows : List α) (position : ℕ) : Run α :=
  match rows[position]? with
  | some row => .ok row
  | none => .error .index

/-! ## Levels of one side -/

/-- The prices that a taker reaches, best first. -/
def crossingPrices (order : NewOrder) (makerLevels : ModelLevels) : List PriceTicks :=
  let crossing := (makerLevels.map Logical.Level.price).filter (crosses order.side order.price)
  let sorted := crossing.insertionSort fun a b ↦ a.val ≤ b.val
  match order.side with
  | .buy => sorted
  | .sell => sorted.reverse

/-- Counts the reports of a taker in one queue. -/
def simulateQueue : List ModelOrder → Quantity → ℕ → Run (Quantity × ℕ)
  | [], remaining, reportCount => .ok (remaining, reportCount)
  | maker :: queue, remaining, reportCount =>
    if remaining.val = 0 then .ok (remaining, reportCount)
    else do
      let remaining ← Run.subWord remaining (min remaining maker.quantity)
      simulateQueue queue remaining (reportCount + 1)

/-- Counts the reports of a taker over its prices. Once nothing remains, no queue adds to them. -/
def simulate (makerLevels : ModelLevels) : List PriceTicks → Quantity → ℕ → Run (Quantity × ℕ)
  | [], remaining, reportCount => .ok (remaining, reportCount)
  | price :: prices, remaining, reportCount => do
    let level ← Run.expect "crossing level" (makerLevels.find? fun level ↦ level.price = price)
    let (remaining, reportCount) ← simulateQueue level.orders remaining reportCount
    simulate makerLevels prices remaining reportCount

/-- Trades against the front of one queue. A front that is not used up leaves nothing to trade,
which ends the loop. -/
def fillQueue (price : PriceTicks) :
    List ModelOrder → Quantity → List ModelFill → Run (List ModelOrder × Quantity × List ModelFill)
  | [], remaining, fills => .ok ([], remaining, fills)
  | front :: queue, remaining, fills =>
    if remaining.val = 0 then .ok (front :: queue, remaining, fills)
    else do
      let traded := min remaining front.quantity
      let fills := fills ++ [⟨front.id, price, traded⟩]
      let remaining ← Run.subWord remaining traded
      let quantity ← Run.subWord front.quantity traded
      if quantity.val = 0 then fillQueue price queue remaining fills
      else return ({ front with quantity } :: queue, remaining, fills)

/-- Trades over the planned prices, dropping the levels that are used up. -/
def fillLevels :
    List PriceTicks → ModelLevels → Quantity → List ModelFill →
      Run (ModelLevels × Quantity × List ModelFill)
  | [], makerLevels, remaining, fills => .ok (makerLevels, remaining, fills)
  | price :: prices, makerLevels, remaining, fills =>
    if remaining.val = 0 then .ok (makerLevels, remaining, fills)
    else do
      let position ← Run.expect "crossing level" (makerLevels.findIdx? fun level ↦ level.price = price)
      let level ← readAt makerLevels position
      let (queue, remaining, fills) ← fillQueue price level.orders remaining fills
      if queue = [] then fillLevels prices (makerLevels.eraseIdx position) remaining fills
      else fillLevels prices (makerLevels.set position { level with orders := queue }) remaining fills

/-- Appends a row to the level at its price, or as a new last level. -/
def pushRow (price : PriceTicks) (resting : ModelOrder) : ModelLevels → ModelLevels
  | [] => [⟨price, [resting]⟩]
  | level :: levels =>
    if level.price = price then { level with orders := level.orders ++ [resting] } :: levels
    else level :: pushRow price resting levels

/-- The level that holds an order. -/
def findIn (levels : ModelLevels) (id : OrderId) : Option ℕ :=
  levels.findIdx? fun level ↦ level.orders.any fun order ↦ order.id = id

/-- Cancels in the first level that holds the order; nothing when no level does. -/
def cancelFrom (cancel : CancelOrder) :
    ModelLevels → Option (Except RejectReason (OrderId × AccountId × Quantity) × ModelLevels)
  | [] => none
  | level :: levels =>
    match level.orders.find? fun order ↦ order.id = cancel.orderId with
    | none => (cancelFrom cancel levels).map fun answer ↦ (answer.1, level :: answer.2)
    | some order =>
      if order.accountId ≠ cancel.accountId then some (.error .notOrderOwner, level :: levels)
      else
        let queue := level.orders.eraseP fun order ↦ order.id = cancel.orderId
        some (.ok (order.id, order.accountId, order.quantity),
          if queue = [] then levels else { level with orders := queue } :: levels)

/-- The best price of a side. -/
def bestPrice (side : Side) (levels : ModelLevels) : Option PriceTicks :=
  match side with
  | .buy => (levels.map Logical.Level.price).max?
  | .sell => (levels.map Logical.Level.price).min?

/-- Why a row of the level at `position` cannot move to the level at `price`, if it cannot. -/
def destinationReject (levels : ModelLevels) (position : ℕ) (oldPrice price : PriceTicks)
    (levelCap orderCap : ℕ) : Run (Option RejectReason) :=
  if levels.any fun level ↦ level.price = price then do
    let destIndex ← Run.expect "checked dest" (levels.findIdx? fun level ↦ level.price = price)
    let dest ← readAt levels destIndex
    let sameLevel := destIndex = position ∧ price = oldPrice
    return if dest.orders.length = orderCap ∧ ¬ sameLevel then some .priceLevelOrderCapacity else none
  else do
    let source ← readAt levels position
    return if levels.length = levelCap ∧ source.orders.length ≠ 1 then some .priceLevelCapacity else none

/-! ## The book -/

namespace ModelBook

/-- The book without orders. -/
def default : ModelBook := ⟨[], []⟩

def side (model : ModelBook) : Side → ModelLevels
  | .buy => model.bids
  | .sell => model.asks

def setSide (model : ModelBook) (side : Side) (levels : ModelLevels) : ModelBook :=
  match side with
  | .buy => { model with bids := levels }
  | .sell => { model with asks := levels }

@[simp] theorem side_setSide (model : ModelBook) (side : Side) (levels : ModelLevels) :
    (model.setSide side levels).side side = levels := by
  cases side <;> rfl

@[simp] theorem side_opposite_setSide (model : ModelBook) (side : Side) (levels : ModelLevels) :
    (model.setSide side levels).side side.opposite = model.side side.opposite := by
  cases side <;> rfl

/-- Validation and preflight: the prices that a submission trades at. -/
def plan (model : ModelBook) (order : NewOrder) (reportCapacity levelCap orderCap : ℕ) :
    Run (Except RejectReason (List PriceTicks)) :=
  let makerLevels := model.side order.side.opposite
  let ownLevels := model.side order.side
  let crossing := crossingPrices order makerLevels
  if order.price.val ≤ 0 then .ok (.error .invalidPrice)
  else if order.quantity.val = 0 then .ok (.error .invalidQuantity)
  else if (model.bids ++ model.asks).any fun level ↦
      level.orders.any fun resting ↦ resting.id = order.orderId then .ok (.error .duplicateOrderId)
  else if order.timeInForce = .postOnly ∧ crossing ≠ [] then .ok (.error .postOnlyWouldTrade)
  else do
    let (remaining, reportCount) ← simulate makerLevels crossing order.quantity 0
    if reportCapacity < reportCount then return .error .reportCapacity
    else
      match order.timeInForce with
      | .fok => return if 0 < remaining.val then .error .insufficientLiquidity else .ok crossing
      | .ioc => return .ok crossing
      | .gtc | .postOnly =>
        if 0 < remaining.val then
          match ownLevels.find? fun level ↦ level.price = order.price with
          | some level =>
            return if level.orders.length = orderCap then .error .priceLevelOrderCapacity else .ok crossing
          | none =>
            return if ownLevels.length = levelCap then .error .priceLevelCapacity else .ok crossing
        else return .ok crossing

/-- Applies a planned submission: its state, the filled, resting and discarded quantities, and its
fills in trade order. -/
def submit (model : ModelBook) (order : NewOrder) (reportCapacity levelCap orderCap : ℕ) :
    Run (Except RejectReason (OrderState × Quantity × Quantity × Quantity × List ModelFill) × ModelBook) := do
  match ← model.plan order reportCapacity levelCap orderCap with
  | .error reason => return (.error reason, model)
  | .ok crossing =>
    let (makerLevels, left, fills) ←
      fillLevels crossing (model.side order.side.opposite) order.quantity []
    let traded := model.setSide order.side.opposite makerLevels
    let rests := 0 < left.val ∧ (order.timeInForce = .gtc ∨ order.timeInForce = .postOnly)
    let model :=
      if rests then
        traded.setSide order.side (pushRow order.price
          ⟨order.orderId, order.accountId, left, order.sequence⟩ (traded.side order.side))
      else traded
    let (remaining, discarded) : Quantity × Quantity :=
      if ¬ rests ∧ order.timeInForce = .ioc then (0, left) else (left, 0)
    let unrested ← Run.subWord order.quantity remaining
    let filled ← Run.subWord unrested discarded
    let state : OrderState :=
      if filled = order.quantity then .filled
      else if filled.val = 0 then .accepted
      else .partiallyFilled
    return (.ok (state, filled, remaining, discarded, fills), model)

/-- The side and the level that hold an order. -/
def locate (model : ModelBook) (id : OrderId) : Option (Side × ℕ) :=
  match findIn model.bids id, findIn model.asks id with
  | some position, _ => some (.buy, position)
  | none, some position => some (.sell, position)
  | none, none => none

/-- Amends an owned row: the old quantity, and whether priority was lost. -/
def replace (model : ModelBook) (replace : ReplaceOrder) (levelCap orderCap : ℕ) :
    Run (Except RejectReason (Quantity × Bool) × ModelBook) :=
  if replace.price.val ≤ 0 then .ok (.error .invalidPrice, model)
  else if replace.quantity.val = 0 then .ok (.error .invalidQuantity, model)
  else
    match model.locate replace.orderId with
    | none => .ok (.error .unknownOrder, model)
    | some (side, position) => do
      let levels := model.side side
      let level ← readAt levels position
      let queuePosition ← Run.expect "located row"
        (level.orders.findIdx? fun order ↦ order.id = replace.orderId)
      let old ← readAt level.orders queuePosition
      let priorityKept := replace.price = level.price ∧ replace.quantity.val < old.quantity.val
      let opposingBest := bestPrice side.opposite (model.side side.opposite)
      if old.accountId ≠ replace.accountId then return (.error .notOrderOwner, model)
      else if priorityKept then
        let queue := level.orders.set queuePosition { old with quantity := replace.quantity }
        return (.ok (old.quantity, false),
          model.setSide side (levels.set position { level with orders := queue }))
      else if replace.price ≠ level.price ∧ opposingBest.any fun best ↦ crosses side replace.price best then
        return (.error .replaceWouldCross, model)
      else
        match ← destinationReject levels position level.price replace.price levelCap orderCap with
        | some reason => return (.error reason, model)
        | none =>
          let queue := level.orders.eraseIdx queuePosition
          let remaining :=
            if queue = [] then levels.eraseIdx position
            else levels.set position { level with orders := queue }
          return (.ok (old.quantity, true), model.setSide side (pushRow replace.price
            ⟨replace.orderId, replace.accountId, replace.quantity, replace.sequence⟩ remaining))

/-- Cancels by id, enforcing ownership. -/
def cancel (model : ModelBook) (cancel : CancelOrder) :
    Except RejectReason (OrderId × AccountId × Quantity) × ModelBook :=
  match cancelFrom cancel model.bids with
  | some (answer, bids) => (answer, { model with bids })
  | none =>
    match cancelFrom cancel model.asks with
    | some (answer, asks) => (answer, { model with asks })
    | none => (.error .unknownOrder, model)

end ModelBook

end DeterministicExchange.Model
