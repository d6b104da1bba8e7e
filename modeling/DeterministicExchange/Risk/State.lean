import DeterministicExchange.Risk.RiskEngine

/-!
# Exported risk state

Export, validation and rebuilding of a risk engine. The exported records are
ordered by id; rebuilding places them in the first slots, in that order.
-/

namespace DeterministicExchange.Risk

open Machine

inductive RiskStateError where
  | accountCapacity
  | reservationCapacity
  | duplicateAccount
  | duplicateOrder
  | nonCanonical
  | invalidLimits
  | unknownAccount
  | invalidWatermark
  | exposureMismatch
  | openOrderMismatch
  | positionLimit
  | arithmeticOverflow
  | invalidQuantity
  deriving DecidableEq, Repr

/-! ## Validation -/

/-- Every two neighbours are in strictly ascending key order. -/
def checkCanonical {α β : Type} [LinearOrder β] (key : α → β) (duplicate : RiskStateError) :
    List α → Except RiskStateError Unit
  | first :: second :: rest =>
    if key first = key second then .error duplicate
    else if key second < key first then .error .nonCanonical
    else checkCanonical key duplicate (second :: rest)
  | _ => .ok ()

/-- The totals of the reservations of one account: buys, sells and their number. -/
def sumReservations (id : AccountId) :
    List ReservationRiskState → U128 × U128 × U32 → Except RiskStateError (U128 × U128 × U32)
  | [], totals => .ok totals
  | reservation :: reservations, (buys, sells, openOrders) =>
    if reservation.accountId ≠ id then sumReservations id reservations (buys, sells, openOrders)
    else do
      let (buys, sells) ←
        (match reservation.side with
          | .buy => do
            let buys ← okOr .arithmeticOverflow (Unsigned.checkedAdd buys (exposure reservation.quantity))
            return (buys, sells)
          | .sell => do
            let sells ← okOr .arithmeticOverflow (Unsigned.checkedAdd sells (exposure reservation.quantity))
            return (buys, sells))
      let openOrders ← okOr .arithmeticOverflow (Unsigned.checkedAdd openOrders 1)
      sumReservations id reservations (buys, sells, openOrders)

def validateAccountState (account : AccountRiskState) (reservations : List ReservationRiskState) :
    Except RiskStateError Unit := do
  let (reservedBuys, reservedSells, openOrders) ← sumReservations account.id reservations (0, 0, 0)
  if reservedBuys ≠ account.reservedBuys ∨ reservedSells ≠ account.reservedSells then
    .error .exposureMismatch
  else if openOrders ≠ account.openOrders ∨ account.limits.maxOpenOrders.val < openOrders.val then
    .error .openOrderMismatch
  else do
    let buys ← okOr .arithmeticOverflow (Signed.ofUnsigned? 128 reservedBuys)
    let sells ← okOr .arithmeticOverflow (Signed.ofUnsigned? 128 reservedSells)
    let worstLong ← okOr .arithmeticOverflow (Signed.checkedAdd account.settledPosition buys)
    let worstShort ← okOr .arithmeticOverflow (Signed.checkedSub account.settledPosition sells)
    if (signed account.limits.maxAbsPosition).val < worstLong.val ∨
        worstShort.val < -(signed account.limits.maxAbsPosition).val then .error .positionLimit
    else return ()

/-- All accounts in turn, up to the first failure. -/
def validateAccounts (reservations : List ReservationRiskState) :
    List AccountRiskState → Except RiskStateError Unit
  | [] => .ok ()
  | account :: accounts => do
    validateAccountState account reservations
    validateAccounts reservations accounts

def validateState (ACCOUNTS ORDERS : ℕ) (state : RiskEngineState) :
    Except RiskStateError (List AccountRiskState × List ReservationRiskState) :=
  if ACCOUNTS < state.accounts.length then .error .accountCapacity
  else if ORDERS < state.reservations.length then .error .reservationCapacity
  else do
    checkCanonical AccountRiskState.id .duplicateAccount state.accounts
    if state.accounts.any fun account ↦ account.limits.invalid then .error .invalidLimits
    else do
      checkCanonical ReservationRiskState.orderId .duplicateOrder state.reservations
      if state.reservations.any fun reservation ↦ reservation.quantity.val = 0 then
        .error .invalidQuantity
      else if state.reservations.getLast?.any fun reservation ↦
          state.maximumOrderId.all fun maximum ↦ maximum < reservation.orderId then
        .error .invalidWatermark
      else if state.reservations.any fun reservation ↦
          !state.accounts.any fun account ↦ account.id = reservation.accountId then
        .error .unknownAccount
      else do
        validateAccounts state.reservations state.accounts
        return (state.accounts, state.reservations)

/-! ## Export and rebuilding -/

namespace RiskEngine

variable {ACCOUNTS ORDERS : ℕ}

def exportState (engine : RiskEngine ACCOUNTS ORDERS) : RiskEngineState where
  accounts := (engine.accounts.toList.filterMap id).insertionSort fun a b ↦ a.id ≤ b.id
  reservations := ((engine.reservations.toList.filterMap Slab.Cell.value?).map
    Reservation.export).insertionSort
    fun a b ↦ a.orderId ≤ b.orderId
  maximumOrderId := engine.maximumOrderId
  killed := engine.killed

/-- Places accounts in consecutive slots. -/
def placeAccounts : List AccountRiskState → ℕ → RiskEngine ACCOUNTS ORDERS →
    Run (Except RiskStateError (RiskEngine ACCOUNTS ORDERS))
  | [], _, engine => .ok (.ok engine)
  | account :: accounts, slot, engine =>
    match engine.accountIndex.insert (accountKey account.id) slot with
    | .error .full => .ok (.error .accountCapacity)
    | .error .duplicate => .ok (.error .duplicateAccount)
    | .ok (_, index) => do
      let array ← Run.write engine.accounts slot (some account)
      placeAccounts accounts (slot + 1) { engine with accounts := array, accountIndex := index }

/-- Places reservations in consecutive slots. -/
def placeReservations : List ReservationRiskState → ℕ → RiskEngine ACCOUNTS ORDERS →
    Run (Except RiskStateError (RiskEngine ACCOUNTS ORDERS))
  | [], _, engine => .ok (.ok engine)
  | reservation :: reservations, slot, engine =>
    match engine.reservationIndex.insert reservation.orderId slot with
    | .error .full => .ok (.error .reservationCapacity)
    | .error .duplicate => .ok (.error .duplicateOrder)
    | .ok (indexSlot, index) => do
      let slots ← Run.write engine.reservations slot (.live ⟨reservation.orderId, reservation.accountId,
        indexSlot, reservation.side, reservation.quantity⟩)
      placeReservations reservations (slot + 1)
        { engine with reservations := slots, reservationIndex := index }

/-- Links `count` slots from `slot` on into the free list. -/
def freeSlots : ℕ → ℕ → Vector ReservationSlot ORDERS → Run (Vector ReservationSlot ORDERS)
  | 0, _, slots => .ok slots
  | count + 1, slot, slots => do
    let slots ← Run.write slots slot (.free (if slot + 1 < ORDERS then slot + 1 else Slab.nil))
    freeSlots count (slot + 1) slots

def fromState (ACCOUNTS ORDERS : ℕ) (state : RiskEngineState) :
    Run (Except RiskStateError (RiskEngine ACCOUNTS ORDERS)) :=
  match validateState ACCOUNTS ORDERS state with
  | .error error => .ok (.error error)
  | .ok (accounts, reservations) => do
    let engine : RiskEngine ACCOUNTS ORDERS := { RiskEngine.new ACCOUNTS ORDERS with
      killed := state.killed
      maximumOrderId := state.maximumOrderId }
    match ← placeAccounts accounts 0 engine with
    | .error error => return .error error
    | .ok engine =>
      match ← placeReservations reservations 0 engine with
      | .error error => return .error error
      | .ok engine =>
        let slots ← freeSlots (ORDERS - state.reservations.length) state.reservations.length
          engine.reservations
        return .ok { engine with
          reservations := slots
          reservationFreeHead :=
            if state.reservations.length = ORDERS then Slab.nil else state.reservations.length }

end RiskEngine

end DeterministicExchange.Risk
