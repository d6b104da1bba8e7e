import DeterministicExchange.Container.OrderedMap
import DeterministicExchange.Machine.Cursor
import DeterministicExchange.Model.Book
import DeterministicExchange.Risk.Limits

/-!
# Reference gateway

The reference gateway of `hft-model` mirrors sequencing, the policy on order ids, reservations and
matching for well-formed commands. Accounts and reservations are ordered maps, and the book is the
reference array book. A broken expectation panics. A rejection returns the engine as it is then,
with whatever was changed before it.
-/

namespace DeterministicExchange.Model

open Machine DeterministicExchange.Risk

/-- Limits of an account. The least position limit of 128 bits, which has no negation, is excluded. -/
structure ModelLimits where
  maxQuantity : Quantity
  maxNotional : U128
  maxAbsPosition : I128
  maxOpenOrders : U32
  minimumPrice : PriceTicks
  maximumPrice : PriceTicks
  negatable : -2 ^ 127 < maxAbsPosition.val

/-- Which layer rejected a command. -/
inductive ModelRejection where
  | risk (reason : RejectReason)
  | book (reason : RejectReason)
  deriving DecidableEq, Repr

structure ModelNewOutcome where
  filled : Quantity
  rested : Quantity
  discarded : Quantity
  fills : List ModelFill
  deriving DecidableEq, Repr

structure ModelReplaced where
  orderId : OrderId
  accountId : AccountId
  oldQuantity : Quantity
  newQuantity : Quantity
  price : PriceTicks
  priorityLost : Bool
  deriving DecidableEq, Repr

structure ModelCancelled where
  orderId : OrderId
  accountId : AccountId
  quantity : Quantity
  deriving DecidableEq, Repr

structure ModelAccount where
  limits : ModelLimits
  settledPosition : I128
  reservedBuys : U128
  reservedSells : U128
  openOrders : U32
  killed : Bool

structure ModelReservation where
  accountId : AccountId
  side : Side
  remaining : Quantity
  deriving DecidableEq, Repr

structure ModelEngine where
  instrument : InstrumentId
  levelCap : ℕ
  orderCap : ℕ
  book : ModelBook
  accounts : OrderedMap AccountId ModelAccount
  reservations : OrderedMap OrderId ModelReservation
  maximumReceivedOrderId : Option OrderId
  nextSequence : SequenceNumber

/-- An `assert!`, with its message. -/
def require (message : String) (condition : Bool) : Run Unit :=
  if condition then .ok () else .error (.expect message)

@[simp] theorem require_true (message : String) : require message true = .ok () := rfl

/-- `unsigned_abs`. -/
def unsignedAbs (a : I128) : U128 :=
  ⟨a.val.natAbs, by have := a.property; norm_num at this ⊢; omega⟩

/-! ## One account -/

namespace ModelAccount

def reserved (account : ModelAccount) : Side → U128
  | .buy => account.reservedBuys
  | .sell => account.reservedSells

def setReserved (account : ModelAccount) (side : Side) (total : U128) : ModelAccount :=
  match side with
  | .buy => { account with reservedBuys := total }
  | .sell => { account with reservedSells := total }

/-- The settled position after a fill. -/
def settle (account : ModelAccount) (side : Side) (traded : Quantity) : Run I128 :=
  match side with
  | .buy => Run.expect "position overflow" (Signed.checkedAdd account.settledPosition (signed traded))
  | .sell => Run.expect "position underflow" (Signed.checkedSub account.settledPosition (signed traded))

/-- Whether the worst positions leave the position limit. -/
def exceeds (account : ModelAccount) (worstLong worstShort : I128) : Prop :=
  account.limits.maxAbsPosition.val < worstLong.val ∨ worstShort.val < -account.limits.maxAbsPosition.val

instance (account : ModelAccount) (worstLong worstShort : I128) :
    Decidable (account.exceeds worstLong worstShort) :=
  inferInstanceAs (Decidable (_ ∨ _))

/-- The worst positions that the totals allow stay within the position limit. -/
def checkPosition (account : ModelAccount) : Except RejectReason Unit := do
  let buys ← okOr .arithmeticOverflow (Signed.ofUnsigned? 128 account.reservedBuys)
  let worstLong ← okOr .arithmeticOverflow (Signed.checkedAdd account.settledPosition buys)
  let sells ← okOr .arithmeticOverflow (Signed.ofUnsigned? 128 account.reservedSells)
  let worstShort ← okOr .arithmeticOverflow (Signed.checkedSub account.settledPosition sells)
  if account.exceeds worstLong worstShort then .error .positionLimit else return ()

/-- Pure limit evaluation of one order. -/
def evaluateLimits (account : ModelAccount) (order : NewOrder) : Except RejectReason Unit :=
  if account.killed then .error .killSwitch
  else if account.limits.maxQuantity.val < order.quantity.val then .error .quantityLimit
  else if order.price.val < account.limits.minimumPrice.val ∨
      account.limits.maximumPrice.val < order.price.val then .error .priceCollar
  else do
    let notional ← notional order.price order.quantity
    if account.limits.maxNotional.val < notional.val then .error .notionalLimit
    else do
      let total ← okOr .arithmeticOverflow
        (Unsigned.checkedAdd (account.reserved order.side) (exposure order.quantity))
      (account.setReserved order.side total).checkPosition
      let openOrders ← okOr .arithmeticOverflow (Unsigned.checkedAdd account.openOrders 1)
      if account.limits.maxOpenOrders.val < openOrders.val then .error .openOrderLimit
      else return ()

/-- A total as a signed word, at most the largest one. -/
def clamped (total : U128) : I128 :=
  (Signed.ofUnsigned? 128 total).getD ⟨2 ^ 127 - 1, by constructor <;> norm_num⟩

/-- The checks of an account whose total has been raised for a larger order. -/
def checkIncrease (account : ModelAccount) (price : PriceTicks) (newTotal : Quantity) :
    Except RejectReason Unit := do
  let notional ← notional price newTotal
  if account.limits.maxNotional.val < notional.val then .error .notionalLimit
  else do
    let worstLong ← okOr .arithmeticOverflow
      (Signed.checkedAdd account.settledPosition (clamped account.reservedBuys))
    let worstShort ← okOr .arithmeticOverflow
      (Signed.checkedSub account.settledPosition (clamped account.reservedSells))
    if account.exceeds worstLong worstShort then .error .positionLimit else return ()

end ModelAccount

/-! ## The engine -/

namespace ModelEngine

def new (instrument : InstrumentId) (levelCap orderCap : ℕ) : ModelEngine where
  instrument := instrument
  levelCap := levelCap
  orderCap := orderCap
  book := ModelBook.default
  accounts := .empty
  reservations := .empty
  maximumReceivedOrderId := none
  nextSequence := 1

def registerAccount (engine : ModelEngine) (id : AccountId) (limits : ModelLimits) : Run ModelEngine := do
  require "duplicate model account" (engine.accounts.get id).isNone
  return { engine with accounts := engine.accounts.insert id ⟨limits, Signed.zero 128, 0, 0, 0, false⟩ }

/-- Reserves an order that has passed its limits. -/
def reserve (engine : ModelEngine) (order : NewOrder) : Run ModelEngine := do
  let account ← Run.expect "checked account" (engine.accounts.get order.accountId)
  let reserved := account.setReserved order.side
    (Unsigned.wrappingAdd (account.reserved order.side) (exposure order.quantity))
  return { engine with
    accounts := engine.accounts.insert order.accountId
      { reserved with openOrders := wrappingSucc account.openOrders }
    reservations := engine.reservations.insert order.orderId ⟨order.accountId, order.side, order.quantity⟩ }

/-- Releases a reservation completely, without a change of the position. -/
def release (engine : ModelEngine) (orderId : OrderId) : Run ModelEngine := do
  let reservation ← Run.expect "release of unknown reservation" (engine.reservations.get orderId)
  let account ← Run.expect "reserved account" (engine.accounts.get reservation.accountId)
  let total ← Run.subWord (account.reserved reservation.side) (exposure reservation.remaining)
  let openOrders ← Run.expect "open-order underflow" (Unsigned.checkedSub account.openOrders 1)
  return { engine with
    reservations := engine.reservations.remove orderId
    accounts := engine.accounts.insert reservation.accountId
      { account.setReserved reservation.side total with openOrders := openOrders } }

/-- Moves a traded quantity from the reserved total to the position; an emptied reservation closes
its order. -/
def recordFill (engine : ModelEngine) (orderId : OrderId) (traded : Quantity) : Run ModelEngine := do
  require "zero fill" (0 < traded.val)
  let reservation ← Run.expect "fill for unknown reservation" (engine.reservations.get orderId)
  require "fill exceeds reservation" (traded.val ≤ reservation.remaining.val)
  let remaining ← Run.subWord reservation.remaining traded
  let account ← Run.expect "reserved account" (engine.accounts.get reservation.accountId)
  let settledPosition ← account.settle reservation.side traded
  let total ← Run.subWord (account.reserved reservation.side) (exposure traded)
  let filled := { account.setReserved reservation.side total with settledPosition := settledPosition }
  if remaining.val = 0 then do
    let openOrders ← Run.expect "open-order underflow" (Unsigned.checkedSub account.openOrders 1)
    return { engine with
      reservations := engine.reservations.remove orderId
      accounts := engine.accounts.insert reservation.accountId { filled with openOrders := openOrders } }
  else
    return { engine with
      reservations := engine.reservations.insert orderId { reservation with remaining := remaining }
      accounts := engine.accounts.insert reservation.accountId filled }

/-- Records the fills of one taker, maker before taker. -/
def recordFills (orderId : OrderId) : List ModelFill → ModelEngine → Run ModelEngine
  | [], engine => .ok engine
  | fill :: fills, engine => do
    let engine ← engine.recordFill fill.makerId fill.quantity
    let engine ← engine.recordFill orderId fill.quantity
    recordFills orderId fills engine

/-- Replaces the total of a reservation and of its account. -/
def amend (engine : ModelEngine) (orderId : OrderId) (reservation : ModelReservation) (account : ModelAccount)
    (remaining : Quantity) : ModelEngine :=
  { engine with
    accounts := engine.accounts.insert reservation.accountId account
    reservations := engine.reservations.insert orderId { reservation with remaining := remaining } }

/-- A checked increase or an immediate decrease of one reservation: the released quantity and the
prior one. The account keeps a raised total when the checks then refuse it. -/
def adjustReservation (engine : ModelEngine) (replace : ReplaceOrder) :
    Run (Except RejectReason (Quantity × Quantity) × ModelEngine) :=
  match engine.reservations.get replace.orderId with
  | none => .ok (.error .unknownOrder, engine)
  | some reservation =>
    let remaining := reservation.remaining
    if replace.quantity = remaining then .ok (.ok (0, remaining), engine)
    else do
      let account ← Run.expect "reserved account" (engine.accounts.get reservation.accountId)
      if remaining.val < replace.quantity.val then
        match Unsigned.checkedAdd (account.reserved reservation.side)
            (exposure (Unsigned.monus replace.quantity remaining)) with
        | none => return (.error .arithmeticOverflow, engine)
        | some total =>
          let raised := account.setReserved reservation.side total
          match raised.checkIncrease replace.price replace.quantity with
          | .error reason =>
            return (.error reason,
              { engine with accounts := engine.accounts.insert reservation.accountId raised })
          | .ok _ => return (.ok (0, remaining),
            engine.amend replace.orderId reservation raised replace.quantity)
      else do
        let total ← Run.subWord (account.reserved reservation.side)
          (exposure (Unsigned.monus remaining replace.quantity))
        return (.ok (Unsigned.monus remaining replace.quantity, remaining),
          engine.amend replace.orderId reservation
            (account.setReserved reservation.side total) replace.quantity)

/-- Restores a reservation after the book has refused an amendment. -/
def restoreReservation (engine : ModelEngine) (orderId : OrderId) (priorRemaining : Quantity) :
    Run ModelEngine :=
  let current := ((engine.reservations.get orderId).map ModelReservation.remaining).getD priorRemaining
  let delta : ℤ := priorRemaining.val - current.val
  if delta = 0 then .ok engine
  else do
    let reservation ← Run.expect "live" (engine.reservations.get orderId)
    let account ← Run.expect "account" (engine.accounts.get reservation.accountId)
    let signedTotal ← Run.expect "fits" (Signed.ofUnsigned? 128 (account.reserved reservation.side))
    match Signed.ofInt? 128 (signedTotal.val + delta) with
    | none => .error .arithmetic
    | some restored =>
      return engine.amend orderId reservation
        (account.setReserved reservation.side (unsignedAbs restored)) priorRemaining

/-! ## Commands -/

/-- Admits the next command of the session. -/
def advance (engine : ModelEngine) (sequence : SequenceNumber) : Run ModelEngine := do
  require "sequence out of order" (sequence = engine.nextSequence)
  return { engine with nextSequence := wrappingSucc engine.nextSequence }

/-- Submits a reserved order to the book. -/
def place (engine : ModelEngine) (order : NewOrder) (reportCapacity : ℕ) :
    Run (Except ModelRejection ModelNewOutcome × ModelEngine) :=
  if order.instrumentId ≠ engine.instrument then do
    let engine ← engine.release order.orderId
    return (.error (.book .invalidInstrument), engine)
  else do
    match ← engine.book.submit order reportCapacity engine.levelCap engine.orderCap with
    | (.error reason, book) =>
      let engine ← { engine with book := book }.release order.orderId
      return (.error (.book reason), engine)
    | (.ok (_, filled, rested, discarded, fills), book) =>
      let engine ← recordFills order.orderId fills { engine with book := book }
      if rested.val = 0 ∧ filled.val < order.quantity.val then do
        let engine ← engine.release order.orderId
        return (.ok ⟨filled, rested, discarded, fills⟩, engine)
      else return (.ok ⟨filled, rested, discarded, fills⟩, engine)

/-- The maximum received id moves even when a later check rejects the order. -/
def receiveNew (engine : ModelEngine) (order : NewOrder) (reportCapacity : ℕ) :
    Run (Except ModelRejection ModelNewOutcome × ModelEngine) :=
  if engine.maximumReceivedOrderId.any fun maximum ↦ order.orderId ≤ maximum then
    .ok (.error (.risk .duplicateOrderId), engine)
  else
    let engine := { engine with maximumReceivedOrderId := some order.orderId }
    match engine.accounts.get order.accountId with
    | none => .ok (.error (.risk .unknownAccount), engine)
    | some account =>
      match account.evaluateLimits order with
      | .error reason => .ok (.error (.risk reason), engine)
      | .ok _ => do
        let engine ← engine.reserve order
        engine.place order reportCapacity

def applyNew (engine : ModelEngine) (order : NewOrder) (reportCapacity : ℕ) :
    Run (Except ModelRejection ModelNewOutcome × ModelEngine) := do
  let engine ← engine.advance order.sequence
  engine.receiveNew order reportCapacity

def receiveCancel (engine : ModelEngine) (cancel : CancelOrder) :
    Run (Except ModelRejection ModelCancelled × ModelEngine) :=
  if cancel.instrumentId ≠ engine.instrument then .ok (.error (.book .invalidInstrument), engine)
  else
    match engine.reservations.get cancel.orderId with
    | none => .ok (.error (.risk .unknownOrder), engine)
    | some reservation =>
      if reservation.accountId ≠ cancel.accountId then .ok (.error (.risk .notOrderOwner), engine)
      else
        match engine.book.cancel cancel with
        | (.error reason, book) => .ok (.error (.book reason), { engine with book := book })
        | (.ok (_, _, quantity), book) => do
          let engine ← { engine with book := book }.release cancel.orderId
          return (.ok ⟨cancel.orderId, cancel.accountId, quantity⟩, engine)

def applyCancel (engine : ModelEngine) (cancel : CancelOrder) :
    Run (Except ModelRejection ModelCancelled × ModelEngine) := do
  let engine ← engine.advance cancel.sequence
  engine.receiveCancel cancel

def receiveReplace (engine : ModelEngine) (replace : ReplaceOrder) :
    Run (Except ModelRejection ModelReplaced × ModelEngine) :=
  match engine.reservations.get replace.orderId with
  | none => .ok (.error (.risk .unknownOrder), engine)
  | some reservation =>
    if reservation.accountId ≠ replace.accountId then .ok (.error (.risk .notOrderOwner), engine)
    else do
      match ← engine.adjustReservation replace with
      | (.error reason, engine) => return (.error (.risk reason), engine)
      | (.ok (_, priorRemaining), engine) =>
        if replace.instrumentId ≠ engine.instrument then
          let engine ← engine.restoreReservation replace.orderId priorRemaining
          return (.error (.book .invalidInstrument), engine)
        else
          match ← engine.book.replace replace engine.levelCap engine.orderCap with
          | (.ok (oldQuantity, priorityLost), book) =>
            return (.ok ⟨replace.orderId, replace.accountId, oldQuantity, replace.quantity, replace.price,
              priorityLost⟩, { engine with book := book })
          | (.error reason, book) =>
            let engine ← { engine with book := book }.restoreReservation replace.orderId priorRemaining
            return (.error (.book reason), engine)

def applyReplace (engine : ModelEngine) (replace : ReplaceOrder) :
    Run (Except ModelRejection ModelReplaced × ModelEngine) := do
  let engine ← engine.advance replace.sequence
  engine.receiveReplace replace

/-! ## Admitted commands -/

section Admitted

variable {engine advanced : ModelEngine}

theorem applyNew_of_advance {order : NewOrder} (h : engine.advance order.sequence = .ok advanced)
    (reportCapacity : ℕ) : engine.applyNew order reportCapacity =
      advanced.receiveNew order reportCapacity := by
  unfold applyNew
  rw [h, Run.ok_bind]

theorem applyCancel_of_advance {cancel : CancelOrder} (h : engine.advance cancel.sequence = .ok advanced) :
    engine.applyCancel cancel = advanced.receiveCancel cancel := by
  unfold applyCancel
  rw [h, Run.ok_bind]

theorem applyReplace_of_advance {replace : ReplaceOrder}
    (h : engine.advance replace.sequence = .ok advanced) :
    engine.applyReplace replace = advanced.receiveReplace replace := by
  unfold applyReplace
  rw [h, Run.ok_bind]

end Admitted

/-! ## Views -/

/-- Projected position and open orders of an account. -/
def accountView (engine : ModelEngine) (id : AccountId) : Option (I128 × U32) := do
  let account ← engine.accounts.get id
  let buys ← Signed.ofUnsigned? 128 account.reservedBuys
  let long ← Signed.checkedAdd account.settledPosition buys
  let sells ← Signed.ofUnsigned? 128 account.reservedSells
  let projected ← Signed.checkedSub long sells
  return (projected, account.openOrders)

/-- Reserved exposure of one side of an account. -/
def reservedTotal (engine : ModelEngine) (id : AccountId) (side : Side) : U128 :=
  match engine.accounts.get id with
  | none => 0
  | some account => account.reserved side

/-- Totals of the live reservations by account. -/
structure Totals where
  buys : OrderedMap AccountId U128
  sells : OrderedMap AccountId U128
  openCounts : OrderedMap AccountId U32

namespace Totals

def empty : Totals := ⟨.empty, .empty, .empty⟩

def reserved (totals : Totals) : Side → OrderedMap AccountId U128
  | .buy => totals.buys
  | .sell => totals.sells

def setReserved (totals : Totals) (side : Side) (map : OrderedMap AccountId U128) : Totals :=
  match side with
  | .buy => { totals with buys := map }
  | .sell => { totals with sells := map }

/-- Counts one reservation of a known account that is not killed. -/
def count (accounts : OrderedMap AccountId ModelAccount) (totals : Totals)
    (row : OrderId × ModelReservation) : Run Totals := do
  let map := totals.reserved row.2.side
  let total ← Run.addWord ((map.get row.2.accountId).getD 0) (exposure row.2.remaining)
  let openCount ← Run.addWord ((totals.openCounts.get row.2.accountId).getD 0) 1
  require "reservation emptied" (0 < row.2.remaining.val)
  let account ← Run.expect "known account" (accounts.get row.2.accountId)
  require "killed account keeps reservations" !account.killed
  return { totals.setReserved row.2.side (map.insert row.2.accountId total) with
    openCounts := totals.openCounts.insert row.2.accountId openCount }

/-- An account carries the totals of its reservations. -/
def check (totals : Totals) (row : AccountId × ModelAccount) : Run Unit := do
  require "buy reservation total" (row.2.reservedBuys = (totals.buys.get row.1).getD 0)
  require "sell reservation total" (row.2.reservedSells = (totals.sells.get row.1).getD 0)
  require "open-order count" (row.2.openOrders = (totals.openCounts.get row.1).getD 0)

end Totals

/-- A resting order has a live reservation of the same quantity, owner and side. -/
def checkResting (engine : ModelEngine) (side : Side) (resting : ModelOrder) : Run Unit := do
  let reservation ← Run.expect "resting order lacks a reservation" (engine.reservations.get resting.id)
  require "resting" (reservation.remaining = resting.quantity)
  require "owner" (reservation.accountId = resting.accountId)
  require "side" (reservation.side = side)

/-- Panics unless reserved totals equal the sums of live reservations, and every resting order has a
matching reservation. -/
def assertConsistent (engine : ModelEngine) : Run Unit := do
  let totals ← engine.reservations.rows.foldlM (Totals.count engine.accounts) Totals.empty
  engine.accounts.rows.forM totals.check
  [(Side.buy, engine.book.bids), (Side.sell, engine.book.asks)].forM fun (side, levels) ↦
    levels.forM fun level ↦ level.orders.forM (engine.checkResting side)

end ModelEngine

end DeterministicExchange.Model
