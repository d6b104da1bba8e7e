import DeterministicExchange.Book.State
import DeterministicExchange.Gateway.Gateway
import DeterministicExchange.Risk.State

/-!
# Exported gateway state

Export and rebuilding of a gateway. After the book and the risk engine are each
rebuilt, the two states are checked against each other and against the limits of
every account.
-/

namespace DeterministicExchange

open Machine Book Risk

structure GatewayState (LEVELS ORDERS_PER_LEVEL : ℕ) where
  instrument : InstrumentId
  book : BookState LEVELS ORDERS_PER_LEVEL
  risk : RiskEngineState
  expectedSequence : SequenceNumber
  maximumReceivedOrderId : Option OrderId
  deriving DecidableEq

inductive GatewayStateError where
  | book (error : BookStateError)
  | risk (error : RiskStateError)
  | expectedSequence
  | orderSequence
  | orderWatermark
  | riskWatermark
  | missingReservation
  | reservationMismatch
  | orderLimit
  | orphanReservation
  deriving DecidableEq, Repr

namespace Gateway

variable {ACCOUNTS RISK_ORDERS LEVELS ORDERS_PER_LEVEL : ℕ}

def exportState (gateway : Gateway ACCOUNTS RISK_ORDERS LEVELS ORDERS_PER_LEVEL) :
    Run (GatewayState LEVELS ORDERS_PER_LEVEL) := do
  let book ← gateway.book.exportState
  return ⟨book.instrument, book, gateway.risk.exportState, gateway.expectedSequence,
    gateway.maximumReceivedOrderId⟩

/-- The order of optional ids: an absent id is below every id. -/
def exceeds : Option OrderId → Option OrderId → Bool
  | none, _ => false
  | some _, none => true
  | some id, some bound => bound < id

/-- The check of one resting order against risk and the limits of its account. -/
def validateOrder (state : GatewayState LEVELS ORDERS_PER_LEVEL) (order : BookOrderState) :
    Except GatewayStateError Unit :=
  if state.expectedSequence.val ≤ order.sequence.val then .error .orderSequence
  else if state.maximumReceivedOrderId.all fun maximum ↦ maximum < order.orderId then
    .error .orderWatermark
  else
    match state.risk.reservations.find? fun reservation ↦ reservation.orderId = order.orderId with
    | none => .error .missingReservation
    | some reservation =>
      if reservation.accountId ≠ order.accountId ∨ reservation.side ≠ order.side ∨
          reservation.quantity ≠ order.quantity then .error .reservationMismatch
      else
        match state.risk.accounts.find? fun account ↦ account.id = order.accountId with
        | none => .error .reservationMismatch
        | some account => do
          let price ← okOr .orderLimit (Signed.toUnsigned? 128 order.price)
          let notional ← okOr .orderLimit (Unsigned.checkedMul price (exposure order.quantity))
          if account.limits.maxQuantity.val < order.quantity.val ∨
              order.price.val < account.limits.minimumPrice.val ∨
              account.limits.maximumPrice.val < order.price.val ∨
              account.limits.maxNotional.val < notional.val then .error .orderLimit
          else return ()

/-- Checks the orders in turn and counts them. -/
def validateOrders (state : GatewayState LEVELS ORDERS_PER_LEVEL) :
    List BookOrderState → ℕ → Except GatewayStateError ℕ
  | [], bookOrders => .ok bookOrders
  | order :: orders, bookOrders => do
    validateOrder state order
    validateOrders state orders (bookOrders + 1)

def validateCrossComponentState (state : GatewayState LEVELS ORDERS_PER_LEVEL) :
    Except GatewayStateError Unit :=
  if state.expectedSequence.val = 0 then .error .expectedSequence
  else if exceeds state.risk.maximumOrderId state.maximumReceivedOrderId then .error .riskWatermark
  else do
    let bookOrders ← validateOrders state (OrderBook.stateOrders state.book) 0
    if bookOrders ≠ state.risk.reservations.length then .error .orphanReservation
    else return ()

def fromState (ACCOUNTS RISK_ORDERS : ℕ) (state : GatewayState LEVELS ORDERS_PER_LEVEL) :
    Run (Except GatewayStateError (Gateway ACCOUNTS RISK_ORDERS LEVELS ORDERS_PER_LEVEL)) := do
  match ← OrderBook.fromState state.instrument state.book with
  | .error error => return .error (.book error)
  | .ok book =>
    match ← RiskEngine.fromState ACCOUNTS RISK_ORDERS state.risk with
    | .error error => return .error (.risk error)
    | .ok risk =>
      match validateCrossComponentState state with
      | .error error => return .error error
      | .ok () => return .ok ⟨risk, book, state.expectedSequence, state.maximumReceivedOrderId⟩

end Gateway

end DeterministicExchange
