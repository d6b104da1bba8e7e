import DeterministicExchange.Container.KeyOrder
import DeterministicExchange.Risk.Limits

/-!
# Logical risk state

The exported state of a risk engine doubles as its abstract state: accounts and
reservations as lists, ordered by id. The operations below say what the engine
is for, without slots, free lists and probe tables.
-/

namespace DeterministicExchange.Risk.RiskEngineState

open Machine

def empty : RiskEngineState := ⟨[], [], none, false⟩

def account? (state : RiskEngineState) (id : AccountId) : Option AccountRiskState :=
  state.accounts.find? fun account ↦ account.id = id

def reservation? (state : RiskEngineState) (orderId : OrderId) : Option ReservationRiskState :=
  state.reservations.find? fun reservation ↦ reservation.orderId = orderId

/-- Replaces the account with the same id. -/
def putAccount (state : RiskEngineState) (account : AccountRiskState) : RiskEngineState :=
  { state with accounts := state.accounts.map fun a ↦ if a.id = account.id then account else a }

/-- Replaces the reservation of the same order. -/
def putReservation (state : RiskEngineState) (reservation : ReservationRiskState) : RiskEngineState :=
  { state with
    reservations := state.reservations.map fun r ↦
      if r.orderId = reservation.orderId then reservation else r }

def dropReservation (state : RiskEngineState) (orderId : OrderId) : RiskEngineState :=
  { state with reservations := state.reservations.filter fun r ↦ r.orderId ≠ orderId }

/-- Adds the reservation of an order whose id exceeds all earlier ones. -/
def addReservation (state : RiskEngineState) (reservation : ReservationRiskState) : RiskEngineState :=
  { state with
    reservations := state.reservations ++ [reservation]
    maximumOrderId := some reservation.orderId }

def registerAccount (ACCOUNTS : ℕ) (state : RiskEngineState) (id : AccountId) (limits : RiskLimits) :
    Except RegistrationError (Unit × RiskEngineState) :=
  if limits.invalid then .error .invalidLimits
  else if (state.account? id).isSome then .error .duplicateAccount
  else if state.accounts.length = ACCOUNTS then .error .accountCapacity
  else .ok ((), { state with
    accounts := state.accounts.orderedInsert (fun a b ↦ a.id ≤ b.id)
      ⟨id, limits, Signed.zero 128, 0, 0, 0, false⟩ })

def setAccountKillSwitch (state : RiskEngineState) (accountId : AccountId) (killed : Bool) :
    Except RejectReason (Unit × RiskEngineState) :=
  match state.account? accountId with
  | none => .error .unknownAccount
  | some account => .ok ((), state.putAccount { account with killed := killed })

def checkAndReserve (ORDERS : ℕ) (state : RiskEngineState) (order : NewOrder) :
    Except RejectReason (Unit × RiskEngineState) :=
  if state.killed then .error .killSwitch
  else if order.quantity.val = 0 then .error .invalidQuantity
  else if state.maximumOrderId.any fun maximum ↦ order.orderId ≤ maximum then .error .duplicateOrderId
  else if state.reservations.length = ORDERS then .error .orderCapacity
  else
    match state.account? order.accountId with
    | none => .error .unknownAccount
    | some account =>
      match evaluateLimits account order with
      | .error reason => .error reason
      | .ok (reservedBuys, reservedSells, openOrders) =>
        .ok ((), (state.putAccount { account with
            reservedBuys := reservedBuys
            reservedSells := reservedSells
            openOrders := openOrders }).addReservation
          ⟨order.orderId, order.accountId, order.side, order.quantity⟩)

def settleReservation (state : RiskEngineState) (reservation : ReservationRiskState)
    (filledQuantity : Quantity) : Except RejectReason (Unit × RiskEngineState) :=
  match state.account? reservation.accountId with
  | none => .error .unknownAccount
  | some account =>
    match exposureAfterFill account reservation.side filledQuantity reservation.quantity with
    | .error reason => .error reason
    | .ok (settledPosition, reservedBuys, reservedSells) =>
      match Unsigned.checkedSub account.openOrders 1 with
      | none => .error .arithmeticOverflow
      | some openOrders =>
        .ok ((), (state.putAccount { account with
            settledPosition := settledPosition
            reservedBuys := reservedBuys
            reservedSells := reservedSells
            openOrders := openOrders }).dropReservation reservation.orderId)

def settle (state : RiskEngineState) (orderId : OrderId) (filledQuantity : Quantity) :
    Except RejectReason (Unit × RiskEngineState) :=
  match state.reservation? orderId with
  | none => .error .unknownOrder
  | some reservation =>
    if reservation.quantity.val < filledQuantity.val then .error .invalidQuantity
    else state.settleReservation reservation filledQuantity

def recordFill (state : RiskEngineState) (orderId : OrderId) (filledQuantity : Quantity) :
    Except RejectReason (Unit × RiskEngineState) :=
  if filledQuantity.val = 0 then .error .invalidQuantity
  else
    match state.reservation? orderId with
    | none => .error .unknownOrder
    | some reservation =>
      match Unsigned.checkedSub reservation.quantity filledQuantity with
      | none => .error .invalidQuantity
      | some quantity =>
        match state.account? reservation.accountId with
        | none => .error .unknownAccount
        | some account =>
          match exposureAfterFill account reservation.side filledQuantity filledQuantity with
          | .error reason => .error reason
          | .ok (settledPosition, reservedBuys, reservedSells) =>
            match if quantity.val = 0 then Unsigned.checkedSub account.openOrders 1
              else some account.openOrders with
            | none => .error .arithmeticOverflow
            | some openOrders =>
              let filled := state.putAccount { account with
                settledPosition := settledPosition
                reservedBuys := reservedBuys
                reservedSells := reservedSells
                openOrders := openOrders }
              .ok ((), if quantity.val = 0 then filled.dropReservation orderId
                else filled.putReservation { reservation with quantity := quantity })

/-- New reserved totals of an account together with a new total of one reservation. -/
def amend (state : RiskEngineState) (account : AccountRiskState) (totals : U128 × U128)
    (reservation : ReservationRiskState) (quantity : Quantity) : RiskEngineState :=
  (state.putAccount { account with reservedBuys := totals.1, reservedSells := totals.2 }).putReservation
    { reservation with quantity := quantity }

def adjustReservation (state : RiskEngineState) (orderId : OrderId) (accountId : AccountId)
    (price : PriceTicks) (newQuantity : Quantity) :
    Except RejectReason ((Quantity × Quantity) × RiskEngineState) :=
  match state.reservation? orderId with
  | none => .error .unknownOrder
  | some reservation =>
    if reservation.accountId ≠ accountId then .error .notOrderOwner
    else if newQuantity = reservation.quantity then .ok ((0, reservation.quantity), state)
    else
      match state.account? accountId with
      | none => .error .unknownAccount
      | some account =>
        if reservation.quantity.val < newQuantity.val then
          match evaluateIncrease account reservation.side price
            (Unsigned.monus newQuantity reservation.quantity) newQuantity with
          | .error reason => .error reason
          | .ok totals =>
            .ok ((0, reservation.quantity), state.amend account totals reservation newQuantity)
        else
          match subReserved account reservation.side (Unsigned.monus reservation.quantity newQuantity) with
          | .error reason => .error reason
          | .ok totals =>
            .ok ((Unsigned.monus reservation.quantity newQuantity, reservation.quantity),
              state.amend account totals reservation newQuantity)

/-- The reserved totals when a reservation returns from `current` to `prior`. -/
def restoredTotals (account : AccountRiskState) (side : Side) (current prior : Quantity) :
    Except RejectReason (U128 × U128) :=
  if current.val < prior.val then addReserved account side (Unsigned.monus prior current)
  else subReserved account side (Unsigned.monus current prior)

def restoreReservation (state : RiskEngineState) (orderId : OrderId) (accountId : AccountId)
    (priorQuantity : Quantity) : Except RejectReason (Unit × RiskEngineState) :=
  match state.reservation? orderId with
  | none => .error .unknownOrder
  | some reservation =>
    if reservation.accountId ≠ accountId then .error .notOrderOwner
    else if reservation.quantity = priorQuantity then .ok ((), state)
    else
      match state.account? accountId with
      | none => .error .unknownAccount
      | some account =>
        match restoredTotals account reservation.side reservation.quantity priorQuantity with
        | .error reason => .error reason
        | .ok totals => .ok ((), state.amend account totals reservation priorQuantity)

def canCancel (state : RiskEngineState) (orderId : OrderId) (accountId : AccountId) :
    Except RejectReason Unit :=
  match state.reservation? orderId with
  | none => .error .unknownOrder
  | some reservation => if reservation.accountId ≠ accountId then .error .notOrderOwner else .ok ()

def cancelReservation (state : RiskEngineState) (orderId : OrderId) (accountId : AccountId) :
    Except RejectReason (Quantity × RiskEngineState) :=
  match state.reservation? orderId with
  | none => .error .unknownOrder
  | some reservation =>
    if reservation.accountId ≠ accountId then .error .notOrderOwner
    else
      match state.settleReservation reservation 0 with
      | .error reason => .error reason
      | .ok (_, state) => .ok (reservation.quantity, state)

/-- Both lists are ordered by id, and no reservation exceeds the order watermark. -/
structure Ordered (state : RiskEngineState) : Prop where
  accounts : state.accounts.Pairwise fun a b ↦ a.id < b.id
  reservations : state.reservations.Pairwise fun a b ↦ a.orderId < b.orderId
  watermark : ∀ r ∈ state.reservations, ∃ maximum ∈ state.maximumOrderId, r.orderId ≤ maximum

/-! ## Lookups in ordered states -/

section Lookups

variable {state : RiskEngineState}

theorem Ordered.ids_nodup (h : state.Ordered) : (state.accounts.map AccountRiskState.id).Nodup :=
  KeyOrder.nodup_keys h.accounts

theorem Ordered.orderIds_nodup (h : state.Ordered) :
    (state.reservations.map ReservationRiskState.orderId).Nodup := KeyOrder.nodup_keys h.reservations

theorem Ordered.account?_eq_some (h : state.Ordered) {id : AccountId} {account : AccountRiskState} :
    state.account? id = some account ↔ account ∈ state.accounts ∧ account.id = id :=
  KeyOrder.find?_eq_some h.ids_nodup

theorem Ordered.reservation?_eq_some (h : state.Ordered) {orderId : OrderId}
    {reservation : ReservationRiskState} :
    state.reservation? orderId = some reservation ↔
      reservation ∈ state.reservations ∧ reservation.orderId = orderId :=
  KeyOrder.find?_eq_some h.orderIds_nodup

theorem mem_of_account? {id : AccountId} {account : AccountRiskState} (h : state.account? id = some account) :
    account ∈ state.accounts ∧ account.id = id :=
  ⟨List.mem_of_find?_eq_some h, by simpa using List.find?_some h⟩

theorem mem_of_reservation? {orderId : OrderId} {reservation : ReservationRiskState}
    (h : state.reservation? orderId = some reservation) :
    reservation ∈ state.reservations ∧ reservation.orderId = orderId :=
  ⟨List.mem_of_find?_eq_some h, by simpa using List.find?_some h⟩

theorem account?_eq_none {id : AccountId} :
    state.account? id = none ↔ ∀ account ∈ state.accounts, account.id ≠ id := by
  simp [account?, List.find?_eq_none]

theorem reservation?_eq_none {orderId : OrderId} :
    state.reservation? orderId = none ↔ ∀ r ∈ state.reservations, r.orderId ≠ orderId := by
  simp [reservation?, List.find?_eq_none]

theorem account?_putAccount (state : RiskEngineState) (account : AccountRiskState) (id : AccountId) :
    (state.putAccount account).account? id =
      if id = account.id then (state.account? id).map fun _ ↦ account else state.account? id :=
  KeyOrder.find?_replace state.accounts account id

theorem reservation?_putReservation (state : RiskEngineState) (reservation : ReservationRiskState)
    (orderId : OrderId) :
    (state.putReservation reservation).reservation? orderId =
      if orderId = reservation.orderId then (state.reservation? orderId).map fun _ ↦ reservation
      else state.reservation? orderId :=
  KeyOrder.find?_replace state.reservations reservation orderId

theorem reservation?_dropReservation (state : RiskEngineState) (dropped orderId : OrderId) :
    (state.dropReservation dropped).reservation? orderId =
      if orderId = dropped then none else state.reservation? orderId :=
  KeyOrder.find?_erase state.reservations dropped orderId

theorem reservation?_addReservation (state : RiskEngineState) (reservation : ReservationRiskState)
    (orderId : OrderId) :
    (state.addReservation reservation).reservation? orderId =
      (state.reservation? orderId).or (if orderId = reservation.orderId then some reservation else none) := by
  show (state.reservations ++ [reservation]).find? _ = _
  rw [List.find?_append]
  congr 1
  by_cases heq : orderId = reservation.orderId
  · simp [heq]
  · simp [heq, Ne.symm heq]

end Lookups

/-! ## Updates keep the order -/

section Updates

variable {state : RiskEngineState}

theorem Ordered.empty : RiskEngineState.empty.Ordered := by
  refine ⟨List.Pairwise.nil, List.Pairwise.nil, ?_⟩
  simp [RiskEngineState.empty]

theorem Ordered.putAccount (h : state.Ordered) (account : AccountRiskState) :
    (state.putAccount account).Ordered := by
  have hid (a : AccountRiskState) : (if a.id = account.id then account else a).id = a.id := by
    split
    · next heq => exact heq.symm
    · rfl
  refine ⟨?_, h.reservations, h.watermark⟩
  show (state.accounts.map _).Pairwise _
  rw [List.pairwise_map]
  refine h.accounts.imp fun hlt ↦ ?_
  rw [hid, hid]
  exact hlt

theorem Ordered.putReservation (h : state.Ordered) (reservation : ReservationRiskState) :
    (state.putReservation reservation).Ordered := by
  have hid (r : ReservationRiskState) :
      (if r.orderId = reservation.orderId then reservation else r).orderId = r.orderId := by
    split
    · next heq => exact heq.symm
    · rfl
  refine ⟨h.accounts, ?_, ?_⟩
  · show (state.reservations.map _).Pairwise _
    rw [List.pairwise_map]
    refine h.reservations.imp fun hlt ↦ ?_
    rw [hid, hid]
    exact hlt
  · intro r hr
    obtain ⟨r', hr', rfl⟩ := List.mem_map.mp hr
    rw [hid]
    exact h.watermark r' hr'

theorem Ordered.dropReservation (h : state.Ordered) (orderId : OrderId) :
    (state.dropReservation orderId).Ordered :=
  ⟨h.accounts, h.reservations.filter _, fun r hr ↦ h.watermark r (List.mem_of_mem_filter hr)⟩

theorem Ordered.addReservation (h : state.Ordered) {reservation : ReservationRiskState}
    (hnew : ∀ maximum ∈ state.maximumOrderId, maximum < reservation.orderId) :
    (state.addReservation reservation).Ordered := by
  have hlt : ∀ r ∈ state.reservations, r.orderId < reservation.orderId := by
    intro r hr
    obtain ⟨maximum, hmaximum, hle⟩ := h.watermark r hr
    exact hle.trans_lt (hnew maximum hmaximum)
  refine ⟨h.accounts, ?_, ?_⟩
  · show (state.reservations ++ [reservation]).Pairwise _
    rw [List.pairwise_append]
    refine ⟨h.reservations, List.pairwise_singleton .., ?_⟩
    intro r hr r' hr'
    rw [List.mem_singleton.mp hr']
    exact hlt r hr
  · intro r hr
    refine ⟨reservation.orderId, rfl, ?_⟩
    rcases List.mem_append.mp hr with hr | hr
    · exact (hlt r hr).le
    · rw [List.mem_singleton.mp hr]

end Updates

end DeterministicExchange.Risk.RiskEngineState
