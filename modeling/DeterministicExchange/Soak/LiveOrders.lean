import DeterministicExchange.Container.SlotArray
import DeterministicExchange.Gateway.State
import DeterministicExchange.Soak.Events

/-!
# The live order table

The soak runner keeps a table of the orders that should rest, changed by nothing but
the published events, and compares it with the exported state of the gateway. Each
batch is checked against the table before it is applied; the first disagreement is
an error.
-/

namespace DeterministicExchange.Soak

open Machine Book Events

/-- The errors of the table; those of the run around it are left out. -/
inductive RoutedError where
  | liveOrders
  | event (error : EventValidationError)
  | eventContents (name : String)
  deriving DecidableEq, Repr

structure LiveOrder where
  orderId : OrderId
  accountId : AccountId
  price : PriceTicks
  quantity : Quantity
  side : Side
  deriving DecidableEq, Repr

structure LiveOrders (RISK_ORDERS : ℕ) where
  orders : Vector (Option LiveOrder) RISK_ORDERS

namespace LiveOrders

variable {ACCOUNTS RISK_ORDERS LEVELS ORDERS_PER_LEVEL BATCH : ℕ}

def new (RISK_ORDERS : ℕ) : LiveOrders RISK_ORDERS := ⟨Vector.replicate RISK_ORDERS none⟩

/-- The orders in use, in slot order. -/
def live (table : LiveOrders RISK_ORDERS) : List LiveOrder := SlotArray.values table.orders

def len (table : LiveOrders RISK_ORDERS) : ℕ := table.live.length

/-- The slot of an order, and the order. -/
def slot (table : LiveOrders RISK_ORDERS) (orderId : OrderId) : Except RoutedError (ℕ × LiveOrder) := do
  let i ← okOr .liveOrders
    (SlotArray.findSlot (fun slot ↦ slot.any fun order ↦ order.orderId = orderId) table.orders)
  let order ← okOr .liveOrders table.orders[i]?.join
  return (i, order)

def put (table : LiveOrders RISK_ORDERS) (i : ℕ) (order : Option LiveOrder) : LiveOrders RISK_ORDERS :=
  ⟨table.orders.setIfInBounds i order⟩

/-- One order of the walk that looks for the best level. -/
def topStep (side : Side) (top : Option TopLevel) (order : LiveOrder) : Option TopLevel :=
  match top with
  | none => some ⟨order.price, order.quantity.val, 1⟩
  | some level =>
    if level.price = order.price then
      some ⟨level.price, level.aggregateQuantity + order.quantity.val, level.orderCount + 1⟩
    else
      let better : Bool := match side with
        | .buy => order.price.val < level.price.val
        | .sell => level.price.val < order.price.val
      if better then some level else some ⟨order.price, order.quantity.val, 1⟩

def top (table : LiveOrders RISK_ORDERS) (side : Side) : Option TopLevel :=
  (table.live.filter fun order ↦ order.side = side).foldl (topStep side) none

def tops (table : LiveOrders RISK_ORDERS) : Option TopLevel × Option TopLevel :=
  (table.top .buy, table.top .sell)

/-- The state that an accepted order of this quantity must report. -/
def expectedState (event : Accepted) (order : NewOrder) : OrderState :=
  if event.filledQuantity = order.quantity then .filled
  else if event.filledQuantity.val = 0 then .accepted
  else .partiallyFilled

/-- Whether the time in force allows the quantities of the event. -/
def validTif (event : Accepted) (order : NewOrder) : Bool :=
  match order.timeInForce with
  | .gtc => event.discardedQuantity.val = 0
  | .ioc => event.restingQuantity.val = 0
  | .fok => event.filledQuantity = order.quantity
  | .postOnly => event.filledQuantity.val = 0 ∧ event.restingQuantity = order.quantity

/-- The event of an accepted order accounts for its quantity, its state and its time in force. -/
def validateAccepted (event : Accepted) (order : NewOrder) (tradedQuantity : U64) :
    Except RoutedError Unit :=
  let total := (Unsigned.checkedAdd event.filledQuantity event.restingQuantity).bind fun quantity ↦
    Unsigned.checkedAdd quantity event.discardedQuantity
  if order.quantity.val = 0 ∨ total ≠ some order.quantity ∨ event.filledQuantity ≠ tradedQuantity then
    .error (.eventContents "accepted quantity accounting")
  else if event.state ≠ expectedState event order then .error (.eventContents "accepted order state")
  else if !validTif event order then .error (.eventContents "accepted time in force")
  else .ok ()

/-- Whether a price is within the limit of the taker. -/
def takerCrosses (taker : NewOrder) (price : PriceTicks) : Bool :=
  match taker.side with
  | .buy => price.val ≤ taker.price.val
  | .sell => taker.price.val ≤ price.val

/-- One trade: the maker is resolved, checked and reduced; returns the quantity traded so far. -/
def applyTrade (table : LiveOrders RISK_ORDERS) (command : Command) (trade : Trade)
    (tradedQuantity : U64) : Except RoutedError (U64 × LiveOrders RISK_ORDERS) :=
  match command with
  | .newOrder taker =>
    if trade.takerOrderId ≠ taker.orderId ∨ trade.quantity.val = 0 then
      .error (.eventContents "trade taker or quantity")
    else do
      let (i, order) ← table.slot trade.makerOrderId
      if order.side = taker.side ∨ trade.price ≠ order.price ∨ !takerCrosses taker trade.price then
        .error (.eventContents "trade maker or price")
      else
        let tradedQuantity ← okOr (.eventContents "trade quantity overflow")
          (Unsigned.checkedAdd tradedQuantity trade.quantity)
        let left ← okOr .liveOrders (Unsigned.checkedSub order.quantity trade.quantity)
        return (tradedQuantity,
          table.put i (if left.val = 0 then none else some { order with quantity := left }))
  | _ => .error (.eventContents "trade command kind")

def applyTrades (command : Command) :
    List Event → U64 → LiveOrders RISK_ORDERS → Except RoutedError (U64 × LiveOrders RISK_ORDERS)
  | [], tradedQuantity, table => .ok (tradedQuantity, table)
  | .trade trade :: events, tradedQuantity, table => do
    let (tradedQuantity, table) ← table.applyTrade command trade tradedQuantity
    applyTrades command events tradedQuantity table
  | _ :: events, tradedQuantity, table => applyTrades command events tradedQuantity table

/-- Rests the remainder of an accepted order in a free slot. -/
def insert (table : LiveOrders RISK_ORDERS) (event : Accepted) (order : NewOrder) :
    Except RoutedError (LiveOrders RISK_ORDERS) :=
  if event.restingQuantity.val ≠ 0 then
    if table.live.any fun live ↦ live.orderId = order.orderId then .error .liveOrders
    else do
      let i ← okOr .liveOrders (SlotArray.findSlot Option.isNone table.orders)
      return table.put i
        (some ⟨order.orderId, order.accountId, order.price, event.restingQuantity, order.side⟩)
  else .ok table

def remove (table : LiveOrders RISK_ORDERS) (event : Cancelled) :
    Except RoutedError (LiveOrders RISK_ORDERS) := do
  let (i, live) ← table.slot event.orderId
  if live.accountId ≠ event.accountId ∨ live.quantity ≠ event.quantity then .error .liveOrders
  else .ok (table.put i none)

def amend (table : LiveOrders RISK_ORDERS) (event : Replaced) (replace : ReplaceOrder) :
    Except RoutedError (LiveOrders RISK_ORDERS) := do
  let (i, live) ← table.slot event.orderId
  if live.accountId ≠ event.accountId ∨ live.quantity ≠ event.oldQuantity ∨
      replace.quantity ≠ event.newQuantity ∨ replace.price ≠ event.price ∨ event.newQuantity.val = 0 ∨
      event.priorityLost =
        decide (replace.price = live.price ∧ replace.quantity.val < live.quantity.val) then
    .error .liveOrders
  else .ok (table.put i (some { live with quantity := event.newQuantity, price := event.price }))

/-- The terminal event against its command. -/
def applyTerminal (table : LiveOrders RISK_ORDERS) (first : Option Event) (command : Command)
    (tradedQuantity : U64) : Except RoutedError (LiveOrders RISK_ORDERS) :=
  match first, command with
  | some (.accepted event), .newOrder order =>
    if event.orderId = order.orderId ∧ event.accountId = order.accountId then do
      validateAccepted event order tradedQuantity
      table.insert event order
    else .error .liveOrders
  | some (.cancelled event), .cancelOrder cancel =>
    if event.orderId = cancel.orderId ∧ event.accountId = cancel.accountId then table.remove event
    else .error .liveOrders
  | some (.replaced event), .replaceOrder replace =>
    if event.orderId = replace.orderId ∧ event.accountId = replace.accountId then
      table.amend event replace
    else .error .liveOrders
  | some (.rejected event), command =>
    let identity := CommandIdentity.fromCommand command
    if event.command ≠ identity.kind ∨ event.orderId ≠ identity.orderId ∨
        event.accountId ≠ identity.accountId then
      .error (.eventContents "rejected command identity")
    else .ok table
  | _, _ => .error .liveOrders

/-- The last event against the tops of the table before and after the batch. -/
def checkTops (last : Option Event) (before after : Option TopLevel × Option TopLevel) :
    Except RoutedError Unit :=
  match last with
  | some (.topOfBook event) =>
    if before ≠ after then
      if (event.bid, event.ask) ≠ after then .error (.eventContents "top of book payload") else .ok ()
    else .error (.eventContents "unchanged top of book")
  | _ => if before ≠ after then .error (.eventContents "missing top of book") else .ok ()

/-- Applies a batch with its command. -/
def apply (table : LiveOrders RISK_ORDERS) (batch : EventBatch BATCH) (command : Command) :
    Except RoutedError (EventSummary × LiveOrders RISK_ORDERS) :=
  match validateBatch batch command.instrumentId command.sequence with
  | .error error => .error (.event error)
  | .ok summary => do
    -- accepted quantities already exclude the fills of the taker: makers leave before it rests
    let (tradedQuantity, traded) ← applyTrades command batch.entries 0 table
    let applied ← traded.applyTerminal batch.entries.head? command tradedQuantity
    checkTops batch.entries.getLast? table.tops applied.tops
    return (summary, applied)

/-! ## Comparison with a gateway -/

/-- Whether the table lists an exported order. -/
def lists (table : LiveOrders RISK_ORDERS) (order : BookOrderState) : Bool :=
  table.live.any fun live ↦
    live.orderId = order.orderId ∧ live.accountId = order.accountId ∧ live.price = order.price ∧
      live.quantity = order.quantity ∧ live.side = order.side

/-- Looks up the exported orders, and counts them. -/
def countOrders (table : LiveOrders RISK_ORDERS) : List BookOrderState → ℕ → Except RoutedError ℕ
  | [], count => .ok count
  | order :: orders, count =>
    if table.lists order then table.countOrders orders (count + 1) else .error .liveOrders

def validate (table : LiveOrders RISK_ORDERS)
    (gateway : Gateway ACCOUNTS RISK_ORDERS LEVELS ORDERS_PER_LEVEL) : Run (Except RoutedError Unit) := do
  let state ← gateway.exportState
  match table.countOrders (OrderBook.stateOrders state.book) 0 with
  | .error error => return .error error
  | .ok count => return if count ≠ table.len then .error .liveOrders else .ok ()

end LiveOrders

end DeterministicExchange.Soak
