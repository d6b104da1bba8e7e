import DeterministicExchange.Types

/-!
# Risk limits of an account

The pure part of `hft-risk`: account and reservation records, and the checks and
totals computed from one account. `AccountState` and `AccountRiskState` of the
source have the same fields and are one type here.
-/

namespace DeterministicExchange.Risk

open Machine

structure RiskLimits where
  maxQuantity : Quantity
  maxNotional : U128
  maxAbsPosition : Quantity
  maxOpenOrders : U32
  minimumPrice : PriceTicks
  maximumPrice : PriceTicks
  deriving DecidableEq, Repr

inductive RegistrationError where
  | duplicateAccount
  | accountCapacity
  | invalidLimits
  deriving DecidableEq, Repr

structure AccountRiskState where
  id : AccountId
  limits : RiskLimits
  settledPosition : I128
  reservedBuys : U128
  reservedSells : U128
  openOrders : U32
  killed : Bool
  deriving DecidableEq, Repr

abbrev AccountState := AccountRiskState

structure ReservationRiskState where
  orderId : OrderId
  accountId : AccountId
  side : Side
  quantity : Quantity
  deriving DecidableEq, Repr

structure RiskEngineState where
  accounts : List AccountRiskState
  reservations : List ReservationRiskState
  maximumOrderId : Option OrderId
  killed : Bool
  deriving DecidableEq, Repr

/-- The checks shared by registration and restoring. -/
def RiskLimits.invalid (limits : RiskLimits) : Bool :=
  limits.maxQuantity.val = 0 || limits.maxOpenOrders.val = 0 ||
    limits.maximumPrice.val < limits.minimumPrice.val

/-- `u128::from` of a quantity. -/
def exposure (quantity : Quantity) : U128 := Unsigned.widen (by decide) quantity

/-- `i128::from` of an unsigned word. -/
def signed (quantity : Quantity) : I128 :=
  ⟨quantity.val, by have := quantity.isLt; constructor <;> norm_num <;> omega⟩

/-- The reserved totals of `account` after `added` is reserved on `side`. -/
def addReserved (account : AccountState) (side : Side) (added : Quantity) :
    Except RejectReason (U128 × U128) :=
  match side with
  | .buy => do
    let buys ← okOr .arithmeticOverflow (Unsigned.checkedAdd account.reservedBuys (exposure added))
    return (buys, account.reservedSells)
  | .sell => do
    let sells ← okOr .arithmeticOverflow (Unsigned.checkedAdd account.reservedSells (exposure added))
    return (account.reservedBuys, sells)

/-- The reserved totals of `account` after `released` leaves the total of `side`. -/
def subReserved (account : AccountState) (side : Side) (released : Quantity) :
    Except RejectReason (U128 × U128) :=
  match side with
  | .buy => do
    let buys ← okOr .arithmeticOverflow (Unsigned.checkedSub account.reservedBuys (exposure released))
    return (buys, account.reservedSells)
  | .sell => do
    let sells ← okOr .arithmeticOverflow (Unsigned.checkedSub account.reservedSells (exposure released))
    return (account.reservedBuys, sells)

/-- Absolute price times quantity. -/
def notional (price : PriceTicks) (quantity : Quantity) : Except RejectReason U128 := do
  let absolutePrice ← okOr .arithmeticOverflow (Signed.checkedAbs price)
  let unsignedPrice ← okOr .arithmeticOverflow (Signed.toUnsigned? 64 absolutePrice)
  okOr .arithmeticOverflow (Unsigned.checkedMul (exposure unsignedPrice) (exposure quantity))

/-- The worst positions that the reserved totals allow stay within the position limit. -/
def checkPosition (account : AccountState) (reservedBuys reservedSells : U128) :
    Except RejectReason Unit := do
  let buys ← okOr .arithmeticOverflow (Signed.ofUnsigned? 128 reservedBuys)
  let worstLong ← okOr .arithmeticOverflow (Signed.checkedAdd account.settledPosition buys)
  let sells ← okOr .arithmeticOverflow (Signed.ofUnsigned? 128 reservedSells)
  let worstShort ← okOr .arithmeticOverflow (Signed.checkedSub account.settledPosition sells)
  if (signed account.limits.maxAbsPosition).val < worstLong.val ∨
      worstShort.val < -(signed account.limits.maxAbsPosition).val then .error .positionLimit
  else return ()

/-- Pure limit evaluation of one order against one account: the totals after reserving. -/
def evaluateLimits (account : AccountState) (order : NewOrder) :
    Except RejectReason (U128 × U128 × U32) :=
  if account.killed then .error .killSwitch
  else if account.limits.maxQuantity.val < order.quantity.val then .error .quantityLimit
  else if order.price.val < account.limits.minimumPrice.val ∨
      account.limits.maximumPrice.val < order.price.val then .error .priceCollar
  else do
    let notional ← notional order.price order.quantity
    if account.limits.maxNotional.val < notional.val then .error .notionalLimit
    else do
      let (reservedBuys, reservedSells) ← addReserved account order.side order.quantity
      checkPosition account reservedBuys reservedSells
      let openOrders ← okOr .arithmeticOverflow (Unsigned.checkedAdd account.openOrders 1)
      if account.limits.maxOpenOrders.val < openOrders.val then .error .openOrderLimit
      else return (reservedBuys, reservedSells, openOrders)

/-- Totals after a fill: `filled` becomes settled position, `released` leaves the reserved total. -/
def exposureAfterFill (account : AccountState) (side : Side) (filled released : Quantity) :
    Except RejectReason (I128 × U128 × U128) := do
  let settledPosition ← okOr .arithmeticOverflow
    (match side with
      | .buy => Signed.checkedAdd account.settledPosition (signed filled)
      | .sell => Signed.checkedSub account.settledPosition (signed filled))
  let (reservedBuys, reservedSells) ← subReserved account side released
  return (settledPosition, reservedBuys, reservedSells)

/-- The check of an increased reservation: totals, notional at the new total, worst positions. -/
def evaluateIncrease (account : AccountState) (side : Side) (price : PriceTicks)
    (added newTotal : Quantity) : Except RejectReason (U128 × U128) := do
  let (reservedBuys, reservedSells) ← addReserved account side added
  let notional ← notional price newTotal
  if account.limits.maxNotional.val < notional.val then .error .notionalLimit
  else do
    checkPosition account reservedBuys reservedSells
    return (reservedBuys, reservedSells)

end DeterministicExchange.Risk
