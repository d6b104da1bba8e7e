import DeterministicExchange.Container.PlacedTable
import DeterministicExchange.Container.Slab
import DeterministicExchange.Risk.Limits

/-!
# Risk engine

The fixed-capacity risk state of `hft-risk`: an account array and a reservation
slab, each behind an open-addressed index of two planes. Recoverable rejections
are returned together with the engine as it is at that return.
-/

namespace DeterministicExchange.Risk

open Machine

/-! ## Probe index -/

def indexPlanes : ℕ := 2

/-- Stored handles use `slot + 1`. -/
abbrev ProbeIndex (PLANE : ℕ) := ProbeTable.Slots U64 ℕ (PLANE * indexPlanes)

inductive ProbeError where
  | full
  | duplicate
  deriving DecidableEq, Repr

namespace ProbeIndex

variable {PLANE : ℕ} {S : Type}

def new (PLANE : ℕ) : ProbeIndex PLANE := ProbeTable.empty _ _ _

def probeStart (PLANE : ℕ) (key : U64) : ℕ :=
  (key.val * 0x9e3779b97f4a7c15 % 2 ^ 64) % (PLANE * indexPlanes)

def findSlot (index : ProbeIndex PLANE) (key : U64) : Option ℕ :=
  if PLANE * indexPlanes = 0 then none
  else
    match ProbeTable.probe index key (probeStart PLANE key) with
    | .found i => some i
    | _ => none

def lookup (index : ProbeIndex PLANE) (key : U64) : Option ℕ := do
  let i ← index.findSlot key
  let entry ← ProbeTable.slot index i
  return entry.2 - 1

def insert (index : ProbeIndex PLANE) (key : U64) (value : ℕ) :
    Except ProbeError (U32 × ProbeIndex PLANE) :=
  if PLANE * indexPlanes = 0 then .error .full
  else if 2 ^ 64 ≤ value + 1 then .error .full
  else
    match ProbeTable.probe index key (probeStart PLANE key) with
    | .vacant i =>
      match Unsigned.ofNat? 32 i with
      | none => .error .full
      | some flat => .ok (flat, ProbeTable.store index i (some (key, value + 1)))
    | .found _ => .error .duplicate
    | .full => .error .full

/-- One back-shift move, reported with its slot. -/
def reportMove (updateMoved : U64 → ℕ → U32 → S → Bool × S) (key : U64) (value hole : ℕ) (state : S) :
    Run (Option S) := do
  let newFlat ← Run.expect "occupied slots fit u32" (Unsigned.ofNat? 32 hole)
  let (updated, state) := updateMoved key (value - 1) newFlat state
  Run.debugAssert updated
  return some state

/-- Removes `key` at `flatIndex`; a stale handle changes nothing. -/
def removeAt (index : ProbeIndex PLANE) (flatIndex : U32) (key : U64)
    (updateMoved : U64 → ℕ → U32 → S → Bool × S) (state : S) :
    Run (Option ℕ × ProbeIndex PLANE × S) :=
  if PLANE * indexPlanes ≤ flatIndex.val then .ok (none, index, state)
  else
    match ProbeTable.slot index flatIndex.val with
    | none => .ok (none, index, state)
    | some (indexed, value) =>
      if indexed ≠ key then .ok (none, index, state)
      else do
        let (_, index, state) ← ProbeTable.removeAt .diverged (probeStart PLANE)
          (reportMove updateMoved) index flatIndex.val state
        return (some (value - 1), index, state)

end ProbeIndex

/-! ## Engine -/

structure Reservation where
  orderId : OrderId
  accountId : AccountId
  indexSlot : U32
  side : Side
  quantity : Quantity
  deriving DecidableEq, Repr

abbrev ReservationSlot := Slab.Cell Reservation

structure RiskEngine (ACCOUNTS ORDERS : ℕ) where
  accounts : Vector (Option AccountState) ACCOUNTS
  accountIndex : ProbeIndex ACCOUNTS
  reservations : Vector ReservationSlot ORDERS
  reservationFreeHead : ℕ
  reservationIndex : ProbeIndex ORDERS
  maximumOrderId : Option OrderId
  killed : Bool

/-- `u64::from` of an account id. -/
def accountKey (id : AccountId) : U64 := Unsigned.widen (by decide) id

/-- The fields of a reservation that its export keeps. -/
def Reservation.export (reservation : Reservation) : ReservationRiskState :=
  ⟨reservation.orderId, reservation.accountId, reservation.side, reservation.quantity⟩

namespace RiskEngine

variable {ACCOUNTS ORDERS : ℕ}

def new (ACCOUNTS ORDERS : ℕ) : RiskEngine ACCOUNTS ORDERS where
  accounts := Vector.replicate ACCOUNTS none
  accountIndex := ProbeIndex.new ACCOUNTS
  reservations := Vector.ofFn fun i ↦ .free (if i.val + 1 < ORDERS then i.val + 1 else Slab.nil)
  reservationFreeHead := if ORDERS = 0 then Slab.nil else 0
  reservationIndex := ProbeIndex.new ORDERS
  maximumOrderId := none
  killed := false

def accountSlot (engine : RiskEngine ACCOUNTS ORDERS) (id : AccountId) : Option ℕ :=
  engine.accountIndex.lookup (accountKey id)

/-- The account behind its index entry, as every operation resolves it. -/
def resolveAccount (engine : RiskEngine ACCOUNTS ORDERS) (id : AccountId) :
    Run (Option (ℕ × AccountState)) :=
  match engine.accountSlot id with
  | none => .ok none
  | some slot => do
    let account ← Run.read engine.accounts slot
    return account.map fun account ↦ (slot, account)

def liveReservation (engine : RiskEngine ACCOUNTS ORDERS) (orderId : OrderId) :
    Option (ℕ × Reservation) := do
  let slot ← engine.reservationIndex.lookup orderId
  match engine.reservations[slot]? with
  | some (.live reservation) =>
    if reservation.orderId ≠ orderId then none else some (slot, reservation)
  | _ => none

/-- The callback of an index removal: rewrites the handle kept in a moved reservation. -/
def updateMoved (movedKey : U64) (movedSlot : ℕ) (newFlat : U32)
    (reservations : Vector ReservationSlot ORDERS) : Bool × Vector ReservationSlot ORDERS :=
  match reservations[movedSlot]? with
  | some (.live moved) =>
    if moved.orderId ≠ movedKey then (false, reservations)
    else (true, reservations.setIfInBounds movedSlot (.live { moved with indexSlot := newFlat }))
  | _ => (false, reservations)

/-- Removes a live reservation from the index and returns its slot to the free list. -/
def releaseReservation (engine : RiskEngine ACCOUNTS ORDERS) (slot : ℕ) (reservation : Reservation) :
    Run (RiskEngine ACCOUNTS ORDERS) := do
  let (removed, index, reservations) ← engine.reservationIndex.removeAt reservation.indexSlot
    reservation.orderId updateMoved engine.reservations
  Run.debugAssert (removed = some slot)
  let reservations ← Run.write reservations slot (.free engine.reservationFreeHead)
  return { engine with
    reservationIndex := index
    reservations := reservations
    reservationFreeHead := slot }

def registerAccount (engine : RiskEngine ACCOUNTS ORDERS) (id : AccountId) (limits : RiskLimits) :
    Run (Except RegistrationError Unit × RiskEngine ACCOUNTS ORDERS) :=
  if limits.invalid then .ok (.error .invalidLimits, engine)
  else if (engine.accountSlot id).isSome then .ok (.error .duplicateAccount, engine)
  else
    match engine.accounts.toList.findIdx? Option.isNone with
    | none => .ok (.error .accountCapacity, engine)
    | some slot =>
      match engine.accountIndex.insert (accountKey id) slot with
      | .error .full => .ok (.error .accountCapacity, engine)
      | .error .duplicate => .ok (.error .duplicateAccount, engine)
      | .ok (_, index) => do
        let accounts ← Run.write engine.accounts slot (some ⟨id, limits, Signed.zero 128, 0, 0, 0, false⟩)
        return (.ok (), { engine with accounts := accounts, accountIndex := index })

def setKillSwitch (engine : RiskEngine ACCOUNTS ORDERS) (killed : Bool) : RiskEngine ACCOUNTS ORDERS :=
  { engine with killed := killed }

def setAccountKillSwitch (engine : RiskEngine ACCOUNTS ORDERS) (accountId : AccountId)
    (killed : Bool) : Run (Except RejectReason Unit × RiskEngine ACCOUNTS ORDERS) := do
  match ← engine.resolveAccount accountId with
  | none => return (.error .unknownAccount, engine)
  | some (slot, account) =>
    let accounts ← Run.write engine.accounts slot (some { account with killed := killed })
    return (.ok (), { engine with accounts := accounts })

def checkAndReserve (engine : RiskEngine ACCOUNTS ORDERS) (order : NewOrder) :
    Run (Except RejectReason Unit × RiskEngine ACCOUNTS ORDERS) :=
  if engine.killed then .ok (.error .killSwitch, engine)
  else if order.quantity.val = 0 then .ok (.error .invalidQuantity, engine)
  else if engine.maximumOrderId.any fun maximum ↦ order.orderId ≤ maximum then
    .ok (.error .duplicateOrderId, engine)
  else if engine.reservationFreeHead = Slab.nil then .ok (.error .orderCapacity, engine)
  else do
    match ← engine.resolveAccount order.accountId with
    | none => return (.error .unknownAccount, engine)
    | some (accountSlot, account) =>
      match evaluateLimits account order with
      | .error reason => return (.error reason, engine)
      | .ok (reservedBuys, reservedSells, openOrders) =>
        match engine.reservations[engine.reservationFreeHead]? with
        | some (.free nextFree) =>
          match engine.reservationIndex.insert order.orderId engine.reservationFreeHead with
          | .error .full => return (.error .orderCapacity, engine)
          | .error .duplicate => return (.error .arithmeticOverflow, engine)
          | .ok (indexSlot, index) =>
            let accounts ← Run.write engine.accounts accountSlot
              (some { account with
                reservedBuys := reservedBuys
                reservedSells := reservedSells
                openOrders := openOrders })
            let reservations ← Run.write engine.reservations engine.reservationFreeHead
              (.live ⟨order.orderId, order.accountId, indexSlot, order.side, order.quantity⟩)
            return (.ok (), { engine with
              accounts := accounts
              reservations := reservations
              reservationFreeHead := nextFree
              reservationIndex := index
              maximumOrderId := some order.orderId })
        | _ => return (.error .arithmeticOverflow, engine)

/-- The filled quantity becomes settled position; the whole reservation is released. -/
def settleReservation (engine : RiskEngine ACCOUNTS ORDERS) (reservationSlot : ℕ)
    (reservation : Reservation) (filledQuantity : Quantity) :
    Run (Except RejectReason Unit × RiskEngine ACCOUNTS ORDERS) := do
  match ← engine.resolveAccount reservation.accountId with
  | none => return (.error .unknownAccount, engine)
  | some (accountSlot, account) =>
    match exposureAfterFill account reservation.side filledQuantity reservation.quantity with
    | .error reason => return (.error reason, engine)
    | .ok (settledPosition, reservedBuys, reservedSells) =>
      match Unsigned.checkedSub account.openOrders 1 with
      | none => return (.error .arithmeticOverflow, engine)
      | some openOrders =>
        let accounts ← Run.write engine.accounts accountSlot
          (some { account with
            settledPosition := settledPosition
            reservedBuys := reservedBuys
            reservedSells := reservedSells
            openOrders := openOrders })
        let engine ← { engine with accounts := accounts }.releaseReservation reservationSlot reservation
        return (.ok (), engine)

def settle (engine : RiskEngine ACCOUNTS ORDERS) (orderId : OrderId) (filledQuantity : Quantity) :
    Run (Except RejectReason Unit × RiskEngine ACCOUNTS ORDERS) :=
  match engine.liveReservation orderId with
  | none => .ok (.error .unknownOrder, engine)
  | some (reservationSlot, reservation) =>
    if reservation.quantity.val < filledQuantity.val then .ok (.error .invalidQuantity, engine)
    else engine.settleReservation reservationSlot reservation filledQuantity

/-- Applies a fill; a fully filled reservation is closed. -/
def recordFill (engine : RiskEngine ACCOUNTS ORDERS) (orderId : OrderId) (filledQuantity : Quantity) :
    Run (Except RejectReason Unit × RiskEngine ACCOUNTS ORDERS) :=
  if filledQuantity.val = 0 then .ok (.error .invalidQuantity, engine)
  else
    match engine.liveReservation orderId with
    | none => .ok (.error .unknownOrder, engine)
    | some (reservationSlot, reservation) =>
      match Unsigned.checkedSub reservation.quantity filledQuantity with
      | none => .ok (.error .invalidQuantity, engine)
      | some quantity => do
        let reservation := { reservation with quantity := quantity }
        match ← engine.resolveAccount reservation.accountId with
        | none => return (.error .unknownAccount, engine)
        | some (accountSlot, account) =>
          match exposureAfterFill account reservation.side filledQuantity filledQuantity with
          | .error reason => return (.error reason, engine)
          | .ok (settledPosition, reservedBuys, reservedSells) =>
            match if reservation.quantity.val = 0 then Unsigned.checkedSub account.openOrders 1
              else some account.openOrders with
            | none => return (.error .arithmeticOverflow, engine)
            | some openOrders =>
              let accounts ← Run.write engine.accounts accountSlot
                (some { account with
                  settledPosition := settledPosition
                  reservedBuys := reservedBuys
                  reservedSells := reservedSells
                  openOrders := openOrders })
              let engine := { engine with accounts := accounts }
              if reservation.quantity.val = 0 then
                let engine ← engine.releaseReservation reservationSlot reservation
                return (.ok (), engine)
              else
                let reservations ← Run.write engine.reservations reservationSlot (.live reservation)
                return (.ok (), { engine with reservations := reservations })

/-- Stores new reserved totals and a new reservation quantity. -/
def storeAmended (engine : RiskEngine ACCOUNTS ORDERS) (accountSlot slot : ℕ) (account : AccountState)
    (reservation : Reservation) : Run (RiskEngine ACCOUNTS ORDERS) := do
  let accounts ← Run.write engine.accounts accountSlot (some account)
  let reservations ← Run.write engine.reservations slot (.live reservation)
  return { engine with accounts := accounts, reservations := reservations }

/-- Amends the total of an owned reservation: the released amount and the prior total. Increases
are checked again, decreases are not. -/
def adjustReservation (engine : RiskEngine ACCOUNTS ORDERS) (orderId : OrderId) (accountId : AccountId)
    (price : PriceTicks) (newQuantity : Quantity) :
    Run (Except RejectReason (Quantity × Quantity) × RiskEngine ACCOUNTS ORDERS) :=
  match engine.liveReservation orderId with
  | none => .ok (.error .unknownOrder, engine)
  | some (slot, reservation) =>
    if reservation.accountId ≠ accountId then .ok (.error .notOrderOwner, engine)
    else if newQuantity = reservation.quantity then .ok (.ok (0, reservation.quantity), engine)
    else do
      match ← engine.resolveAccount accountId with
      | none => return (.error .unknownAccount, engine)
      | some (accountSlot, account) =>
        if reservation.quantity.val < newQuantity.val then
          let added ← Run.subWord newQuantity reservation.quantity
          match evaluateIncrease account reservation.side price added newQuantity with
          | .error reason => return (.error reason, engine)
          | .ok (reservedBuys, reservedSells) =>
            let engine ← engine.storeAmended accountSlot slot
              { account with reservedBuys := reservedBuys, reservedSells := reservedSells }
              { reservation with quantity := newQuantity }
            return (.ok (0, reservation.quantity), engine)
        else
          let released ← Run.subWord reservation.quantity newQuantity
          match subReserved account reservation.side released with
          | .error reason => return (.error reason, engine)
          | .ok (reservedBuys, reservedSells) =>
            let engine ← engine.storeAmended accountSlot slot
              { account with reservedBuys := reservedBuys, reservedSells := reservedSells }
              { reservation with quantity := newQuantity }
            return (.ok (released, reservation.quantity), engine)

/-- The reserved totals when a reservation returns from `current` to `prior`. -/
def restoredTotals (account : AccountState) (side : Side) (current prior : Quantity) :
    Run (Except RejectReason (U128 × U128)) :=
  if current.val < prior.val then do
    let added ← Run.subWord prior current
    return addReserved account side added
  else do
    let released ← Run.subWord current prior
    return subReserved account side released

/-- Restores the total of a reservation without limit checks. -/
def restoreReservation (engine : RiskEngine ACCOUNTS ORDERS) (orderId : OrderId)
    (accountId : AccountId) (priorQuantity : Quantity) :
    Run (Except RejectReason Unit × RiskEngine ACCOUNTS ORDERS) :=
  match engine.liveReservation orderId with
  | none => .ok (.error .unknownOrder, engine)
  | some (slot, reservation) =>
    if reservation.accountId ≠ accountId then .ok (.error .notOrderOwner, engine)
    else if reservation.quantity = priorQuantity then .ok (.ok (), engine)
    else do
      match ← engine.resolveAccount accountId with
      | none => return (.error .unknownAccount, engine)
      | some (accountSlot, account) =>
        match ← restoredTotals account reservation.side reservation.quantity priorQuantity with
        | .error reason => return (.error reason, engine)
        | .ok (reservedBuys, reservedSells) =>
          let engine ← engine.storeAmended accountSlot slot
            { account with reservedBuys := reservedBuys, reservedSells := reservedSells }
            { reservation with quantity := priorQuantity }
          return (.ok (), engine)

def canCancel (engine : RiskEngine ACCOUNTS ORDERS) (orderId : OrderId) (accountId : AccountId) :
    Except RejectReason Unit :=
  match engine.liveReservation orderId with
  | none => .error .unknownOrder
  | some (_, reservation) =>
    if reservation.accountId ≠ accountId then .error .notOrderOwner else .ok ()

/-- Releases the whole reservation of an owned order and returns its total. -/
def cancelReservation (engine : RiskEngine ACCOUNTS ORDERS) (orderId : OrderId)
    (accountId : AccountId) : Run (Except RejectReason Quantity × RiskEngine ACCOUNTS ORDERS) :=
  match engine.liveReservation orderId with
  | none => .ok (.error .unknownOrder, engine)
  | some (reservationSlot, reservation) =>
    if reservation.accountId ≠ accountId then .ok (.error .notOrderOwner, engine)
    else do
      let (result, engine) ← engine.settleReservation reservationSlot reservation 0
      return (result.map fun _ ↦ reservation.quantity, engine)

/-- Projected position and open orders of an account. -/
def projected (account : AccountState) : Option (I128 × U32) := do
  let buys ← Signed.ofUnsigned? 128 account.reservedBuys
  let sells ← Signed.ofUnsigned? 128 account.reservedSells
  let long ← Signed.checkedAdd account.settledPosition buys
  let projected ← Signed.checkedSub long sells
  return (projected, account.openOrders)

def accountSnapshot (engine : RiskEngine ACCOUNTS ORDERS) (id : AccountId) :
    Run (Option (I128 × U32)) :=
  match engine.accountSlot id with
  | none => .ok none
  | some slot => do
    let account ← Run.read engine.accounts slot
    return account.bind projected

end RiskEngine

end DeterministicExchange.Risk
