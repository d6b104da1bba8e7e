import DeterministicExchange.Model.Engine
import DeterministicExchange.Risk.KillSwitch

/-!
# Reservations of the reference gateway

The maps of the reference gateway keep a logical risk state when they answer its lookups. Where an
operation of the risk state succeeds, its mirror does not panic and keeps the outcome. Where the
risk state refuses an order, its mirror refuses it for the same reason.
-/

namespace DeterministicExchange.Model

open Machine DeterministicExchange.Risk

/-- The limits of an account as the reference gateway is given them. -/
def ModelLimits.of (limits : RiskLimits) : ModelLimits where
  maxQuantity := limits.maxQuantity
  maxNotional := limits.maxNotional
  maxAbsPosition := signed limits.maxAbsPosition
  maxOpenOrders := limits.maxOpenOrders
  minimumPrice := limits.minimumPrice
  maximumPrice := limits.maximumPrice
  negatable := by
    rw [signed_val]
    omega

def ModelAccount.of (account : AccountRiskState) : ModelAccount :=
  ⟨.of account.limits, account.settledPosition, account.reservedBuys, account.reservedSells,
    account.openOrders, account.killed⟩

def ModelReservation.of (r : ReservationRiskState) : ModelReservation := ⟨r.accountId, r.side, r.quantity⟩

/-- The maps answer the lookups of the risk state. -/
structure Keeps (accounts : OrderedMap AccountId ModelAccount)
    (reservations : OrderedMap OrderId ModelReservation) (risk : RiskEngineState) : Prop where
  accounts : ∀ id, accounts.get id = (risk.account? id).map ModelAccount.of
  reservations : ∀ orderId, reservations.get orderId = (risk.reservation? orderId).map ModelReservation.of

namespace Keeps

variable {accounts : OrderedMap AccountId ModelAccount} {reservations : OrderedMap OrderId ModelReservation}
  {risk risk' : RiskEngineState} {account : AccountRiskState} {r : ReservationRiskState}

theorem get_account (h : Keeps accounts reservations risk) {id : AccountId}
    (hlookup : risk.account? id = some account) : accounts.get id = some (.of account) := by
  rw [h.accounts, hlookup]
  rfl

theorem get_reservation (h : Keeps accounts reservations risk) {orderId : OrderId}
    (hlookup : risk.reservation? orderId = some r) : reservations.get orderId = some (.of r) := by
  rw [h.reservations, hlookup]
  rfl

theorem putAccount (h : Keeps accounts reservations risk) {id : AccountId}
    (hlookup : risk.account? id = some account) (account' : AccountRiskState) (hid : account'.id = id) :
    Keeps (accounts.insert id (.of account')) reservations (risk.putAccount account') := by
  subst hid
  refine ⟨fun id ↦ ?_, h.reservations⟩
  rw [OrderedMap.get_insert, RiskEngineState.account?_putAccount]
  by_cases heq : id = account'.id
  · subst heq
    rw [if_pos rfl, if_pos rfl, hlookup]
    rfl
  · rw [if_neg heq, if_neg heq]
    exact h.accounts id

theorem dropReservation (h : Keeps accounts reservations risk) (orderId : OrderId) :
    Keeps accounts (reservations.remove orderId) (risk.dropReservation orderId) := by
  refine ⟨h.accounts, fun other ↦ ?_⟩
  rw [OrderedMap.get_remove, RiskEngineState.reservation?_dropReservation]
  split
  · rfl
  · exact h.reservations other

theorem putReservation (h : Keeps accounts reservations risk) {orderId : OrderId}
    (hlookup : risk.reservation? orderId = some r) (r' : ReservationRiskState) (hid : r'.orderId = orderId) :
    Keeps accounts (reservations.insert orderId (.of r')) (risk.putReservation r') := by
  subst hid
  refine ⟨h.accounts, fun other ↦ ?_⟩
  rw [OrderedMap.get_insert, RiskEngineState.reservation?_putReservation]
  by_cases heq : other = r'.orderId
  · subst heq
    rw [if_pos rfl, if_pos rfl, hlookup]
    rfl
  · rw [if_neg heq, if_neg heq]
    exact h.reservations other

theorem addReservation (h : Keeps accounts reservations risk)
    (habsent : risk.reservation? r.orderId = none) :
    Keeps accounts (reservations.insert r.orderId (.of r)) (risk.addReservation r) := by
  refine ⟨h.accounts, fun other ↦ ?_⟩
  rw [OrderedMap.get_insert, RiskEngineState.reservation?_addReservation]
  by_cases heq : other = r.orderId
  · subst heq
    rw [if_pos rfl, if_pos rfl, habsent]
    rfl
  · rw [if_neg heq, if_neg heq, Option.or_none]
    exact h.reservations other

end Keeps

/-! ## One account -/

section Account

variable {account : AccountRiskState} {order : NewOrder} {side : Side}

theorem reserved_of (account : AccountRiskState) (side : Side) :
    (ModelAccount.of account).reserved side = account.reserved side := by
  cases side <;> rfl

/-- The totals of both sides after that of one side has changed. -/
def totalsWith (account : AccountRiskState) (side : Side) (total : U128) : U128 × U128 :=
  match side with
  | .buy => (total, account.reservedSells)
  | .sell => (account.reservedBuys, total)

theorem setReserved_of (account : AccountRiskState) (side : Side) (total : U128) :
    (ModelAccount.of account).setReserved side total = .of { account with
      reservedBuys := (totalsWith account side total).1
      reservedSells := (totalsWith account side total).2 } := by
  cases side <;> rfl

theorem addReserved_eq (account : AccountRiskState) (side : Side) (added : Quantity) :
    addReserved account side added =
      (okOr .arithmeticOverflow (Unsigned.checkedAdd (account.reserved side) (exposure added))).map
        (totalsWith account side) := by
  cases side with
  | buy =>
    show (okOr _ (Unsigned.checkedAdd account.reservedBuys _) >>= _) = _
    cases hadd : Unsigned.checkedAdd account.reservedBuys (exposure added) <;>
      simp [AccountRiskState.reserved, hadd] <;> rfl
  | sell =>
    show (okOr _ (Unsigned.checkedAdd account.reservedSells _) >>= _) = _
    cases hadd : Unsigned.checkedAdd account.reservedSells (exposure added) <;>
      simp [AccountRiskState.reserved, hadd] <;> rfl

theorem subReserved_eq (account : AccountRiskState) (side : Side) (released : Quantity) :
    subReserved account side released =
      (okOr .arithmeticOverflow (Unsigned.checkedSub (account.reserved side) (exposure released))).map
        (totalsWith account side) := by
  cases side with
  | buy =>
    show (okOr _ (Unsigned.checkedSub account.reservedBuys _) >>= _) = _
    cases hsub : Unsigned.checkedSub account.reservedBuys (exposure released) <;>
      simp [AccountRiskState.reserved, hsub] <;> rfl
  | sell =>
    show (okOr _ (Unsigned.checkedSub account.reservedSells _) >>= _) = _
    cases hsub : Unsigned.checkedSub account.reservedSells (exposure released) <;>
      simp [AccountRiskState.reserved, hsub] <;> rfl

/-- The position check of an account with new totals. -/
theorem checkPosition_setReserved (account : AccountRiskState) (side : Side) (total : U128) :
    ((ModelAccount.of account).setReserved side total).checkPosition =
      Risk.checkPosition account (totalsWith account side total).1 (totalsWith account side total).2 := by
  rw [setReserved_of]
  rfl

/-- Both gateways evaluate the limits of a new order alike. -/
theorem evaluateLimits_of (account : AccountRiskState) (order : NewOrder) :
    (ModelAccount.of account).evaluateLimits order =
      (Risk.evaluateLimits account order).map fun _ ↦ () := by
  have hkilled : (ModelAccount.of account).killed = account.killed := rfl
  have hquantity : (ModelAccount.of account).limits.maxQuantity = account.limits.maxQuantity := rfl
  have hnotional : (ModelAccount.of account).limits.maxNotional = account.limits.maxNotional := rfl
  have hopen : (ModelAccount.of account).openOrders = account.openOrders := rfl
  have hmaximum : (ModelAccount.of account).limits.maxOpenOrders = account.limits.maxOpenOrders := rfl
  have hlowest : (ModelAccount.of account).limits.minimumPrice = account.limits.minimumPrice := rfl
  have hhighest : (ModelAccount.of account).limits.maximumPrice = account.limits.maximumPrice := rfl
  unfold ModelAccount.evaluateLimits Risk.evaluateLimits
  rw [hkilled, hquantity, hnotional, hlowest, hhighest, hopen, hmaximum, reserved_of]
  by_cases hstopped : account.killed
  · rw [if_pos hstopped, if_pos hstopped]
    rfl
  rw [if_neg hstopped, if_neg hstopped]
  by_cases hlarge : account.limits.maxQuantity.val < order.quantity.val
  · rw [if_pos hlarge, if_pos hlarge]
    rfl
  rw [if_neg hlarge, if_neg hlarge]
  by_cases hcollar : order.price.val < account.limits.minimumPrice.val ∨
      account.limits.maximumPrice.val < order.price.val
  · rw [if_pos hcollar, if_pos hcollar]
    rfl
  rw [if_neg hcollar, if_neg hcollar]
  cases notional order.price order.quantity with
  | error reason => rfl
  | ok notional =>
    rw [except_ok_bind, except_ok_bind]
    by_cases hvalue : account.limits.maxNotional.val < notional.val
    · rw [if_pos hvalue, if_pos hvalue]
      rfl
    rw [if_neg hvalue, if_neg hvalue, addReserved_eq]
    cases Unsigned.checkedAdd (account.reserved order.side) (exposure order.quantity) with
    | none => rfl
    | some total =>
      have hsome : okOr RejectReason.arithmeticOverflow (some total) = .ok total := rfl
      have htotals : Except.map (totalsWith account order.side) (.ok total : Except RejectReason U128) =
        .ok (totalsWith account order.side total) := rfl
      rw [hsome, htotals, except_ok_bind, except_ok_bind, checkPosition_setReserved]
      obtain ⟨buys, sells⟩ := totalsWith account order.side total
      dsimp only
      cases Risk.checkPosition account buys sells with
      | error reason => rfl
      | ok _ =>
        rw [except_ok_bind, except_ok_bind]
        cases Unsigned.checkedAdd account.openOrders 1 with
        | none => rfl
        | some openOrders =>
          have hsome : okOr RejectReason.arithmeticOverflow (some openOrders) = .ok openOrders := rfl
          rw [hsome, except_ok_bind, except_ok_bind]
          by_cases hlimit : account.limits.maxOpenOrders.val < openOrders.val
          · rw [if_pos hlimit, if_pos hlimit]
            rfl
          · rw [if_neg hlimit, if_neg hlimit]
            rfl

/-- The position after a fill, unless it overflows. -/
def settledAfter (account : AccountRiskState) (side : Side) (filled : Quantity) : Option I128 :=
  match side with
  | .buy => Signed.checkedAdd account.settledPosition (signed filled)
  | .sell => Signed.checkedSub account.settledPosition (signed filled)

theorem settledAfter_zero {position : I128} (h : settledAfter account side 0 = some position) :
    position = account.settledPosition := by
  apply Subtype.ext
  cases side with
  | buy => exact (Signed.ofInt?_eq_some.mp h).symm.trans (add_zero _)
  | sell => exact (Signed.ofInt?_eq_some.mp h).symm.trans (sub_zero _)

/-- What a passed fill takes from the total of its side. -/
theorem of_exposureAfterFill {filled released : Quantity} {position : I128} {buys sells : U128}
    (h : exposureAfterFill account side filled released = .ok (position, buys, sells)) :
    ∃ total, Run.subWord (account.reserved side) (exposure released) = .ok total ∧
      buys = (totalsWith account side total).1 ∧ sells = (totalsWith account side total).2 ∧
      settledAfter account side filled = some position := by
  obtain ⟨position', hposition, h⟩ := except_bind_eq_ok.mp h
  obtain ⟨totals, htotals, h⟩ := except_bind_eq_ok.mp h
  obtain ⟨rfl, heq⟩ := Prod.mk.inj (Except.ok.inj h)
  rw [subReserved_eq] at htotals
  cases hsub : Unsigned.checkedSub (account.reserved side) (exposure released) with
  | none =>
    rw [hsub] at htotals
    cases htotals
  | some total =>
    rw [hsub] at htotals
    obtain rfl := Except.ok.inj htotals
    have hle := Unsigned.checkedSub_eq_some.mp hsub
    have hle' : (exposure released).val ≤ (account.reserved side).val := by omega
    rw [Unsigned.checkedSub_of_le hle'] at hsub
    refine ⟨total, ?_, (congrArg Prod.fst heq).symm, (congrArg Prod.snd heq).symm, okOr_eq_ok.mp hposition⟩
    rw [Run.subWord_of_le hle', Option.some.inj hsub]

theorem settle_of {filled : Quantity} {position : I128}
    (h : settledAfter account side filled = some position) :
    (ModelAccount.of account).settle side filled = .ok position := by
  cases side with
  | buy => exact congrArg (Run.expect "position overflow") h
  | sell => exact congrArg (Run.expect "position underflow") h

/-! ## Increases -/

theorem ofUnsigned?_clamped {total : U128} (h : total.val < 2 ^ 127) :
    Signed.ofUnsigned? 128 total = some (ModelAccount.clamped total) := by
  have hrange : -2 ^ (128 - 1) ≤ (total.val : ℤ) ∧ (total.val : ℤ) < 2 ^ (128 - 1) := by
    constructor <;> norm_num
    omega
  have hsome : Signed.ofUnsigned? 128 total = some ⟨total.val, hrange⟩ := Signed.ofInt?_of_mem hrange
  rw [ModelAccount.clamped, hsome, Option.getD_some]

/-- Totals that fit a signed word are checked as such. -/
theorem checkPosition_clamped {buys sells : U128} (hbuys : buys.val < 2 ^ 127)
    (hsells : sells.val < 2 ^ 127) :
    Risk.checkPosition account buys sells = (do
      let worstLong ← okOr .arithmeticOverflow
        (Signed.checkedAdd account.settledPosition (ModelAccount.clamped buys))
      let worstShort ← okOr .arithmeticOverflow
        (Signed.checkedSub account.settledPosition (ModelAccount.clamped sells))
      if (ModelAccount.of account).exceeds worstLong worstShort then .error .positionLimit
      else return ()) := by
  unfold Risk.checkPosition
  rw [ofUnsigned?_clamped hbuys, ofUnsigned?_clamped hsells]
  rfl

/-- The checks of a raised account are those of an increase. -/
theorem checkIncrease_totals {buys sells : U128} (hbuys : buys.val < 2 ^ 127) (hsells : sells.val < 2 ^ 127)
    (price : PriceTicks) (newTotal : Quantity) :
    (ModelAccount.of { account with reservedBuys := buys, reservedSells := sells }).checkIncrease
        price newTotal = (do
      let notional ← notional price newTotal
      if account.limits.maxNotional.val < notional.val then .error .notionalLimit
      else Risk.checkPosition account buys sells) := by
  rw [checkPosition_clamped hbuys hsells]
  rfl

/-- An increase is checked alike on totals that are small enough, after the total has been raised. -/
theorem checkIncrease_of (hbuys : account.reservedBuys.val < 2 ^ 96)
    (hsells : account.reservedSells.val < 2 ^ 96) (side : Side) (price : PriceTicks)
    (added newTotal : Quantity) :
    ∃ total, Unsigned.checkedAdd (account.reserved side) (exposure added) = some total ∧
      total.val = (account.reserved side).val + added.val ∧
      evaluateIncrease account side price added newTotal =
        (((ModelAccount.of account).setReserved side total).checkIncrease price newTotal).map
          fun _ ↦ totalsWith account side total := by
  have hadded := added.isLt
  have hreserved : (account.reserved side).val < 2 ^ 96 := by cases side <;> assumption
  have hroom : (account.reserved side).val + (exposure added).val < 2 ^ 128 := by
    rw [exposure_val]
    omega
  obtain ⟨total, hadd, hvalue⟩ := Unsigned.checkedAdd_of_lt hroom
  rw [exposure_val] at hvalue
  have hfits : (totalsWith account side total).1.val < 2 ^ 127 ∧
      (totalsWith account side total).2.val < 2 ^ 127 := by
    have htotal : total.val < 2 ^ 127 := by omega
    cases side with
    | buy => exact ⟨htotal, hsells.trans (by norm_num)⟩
    | sell => exact ⟨hbuys.trans (by norm_num), htotal⟩
  refine ⟨total, hadd, hvalue, ?_⟩
  have htotals : addReserved account side added = .ok (totalsWith account side total) := by
    rw [addReserved_eq, hadd]
    rfl
  rw [setReserved_of, checkIncrease_totals hfits.1 hfits.2]
  unfold evaluateIncrease
  rw [htotals, except_ok_bind]
  obtain ⟨buys, sells⟩ := totalsWith account side total
  dsimp only
  cases notional price newTotal with
  | error reason => rfl
  | ok notional =>
    rw [except_ok_bind, except_ok_bind]
    by_cases hvalue : account.limits.maxNotional.val < notional.val
    · rw [if_pos hvalue, if_pos hvalue]
      rfl
    · rw [if_neg hvalue, if_neg hvalue]
      cases Risk.checkPosition account buys sells <;> rfl

end Account

/-! ## Operations -/

namespace Keeps

variable {engine : ModelEngine} {risk risk' : RiskEngineState} {account : AccountRiskState}
  {r : ReservationRiskState} {orderId : OrderId}

/-- A settlement without a fill is a release. -/
theorem release (h : Keeps engine.accounts engine.reservations risk)
    (hlookup : risk.reservation? orderId = some r) (hok : risk.settleReservation r 0 = .ok ((), risk')) :
    ∃ accounts reservations, engine.release orderId =
        .ok { engine with accounts := accounts, reservations := reservations } ∧
      Keeps accounts reservations risk' := by
  obtain rfl := (RiskEngineState.mem_of_reservation? hlookup).2
  unfold RiskEngineState.settleReservation at hok
  split at hok
  · cases hok
  next account haccount =>
  split at hok
  · cases hok
  next position buys sells hexposure =>
  split at hok
  · cases hok
  next openOrders hopen =>
  obtain ⟨-, rfl⟩ := Prod.mk.inj (Except.ok.inj hok)
  obtain ⟨total, hsub, rfl, rfl, hposition⟩ := of_exposureAfterFill hexposure
  obtain rfl := settledAfter_zero hposition
  have hid : account.id = r.accountId := (RiskEngineState.mem_of_account? haccount).2
  have hkept := (h.putAccount haccount (account.withTotals account.settledPosition
    (totalsWith account r.side total).1 (totalsWith account r.side total).2 openOrders)
      hid).dropReservation r.orderId
  refine ⟨_, _, ?_, hkept⟩
  unfold ModelEngine.release
  rw [h.get_reservation hlookup, Run.expect_some, Run.ok_bind]
  have hget : engine.accounts.get (ModelReservation.of r).accountId = some (.of account) :=
    h.get_account haccount
  have hopen' : Unsigned.checkedSub (ModelAccount.of account).openOrders 1 = some openOrders := hopen
  rw [hget, Run.expect_some, Run.ok_bind, reserved_of]
  show Run.subWord (account.reserved r.side) (exposure r.quantity) >>= _ = _
  rw [hsub, Run.ok_bind, hopen', Run.expect_some, Run.ok_bind, setReserved_of]
  rfl

/-- A fill that the risk state records is recorded alike. -/
theorem recordFill (h : Keeps engine.accounts engine.reservations risk) {traded : Quantity}
    (hok : risk.recordFill orderId traded = .ok ((), risk')) :
    ∃ accounts reservations, engine.recordFill orderId traded =
        .ok { engine with accounts := accounts, reservations := reservations } ∧
      Keeps accounts reservations risk' := by
  unfold RiskEngineState.recordFill at hok
  split at hok
  · cases hok
  next hpos =>
  split at hok
  · cases hok
  next r hlookup =>
  obtain rfl := (RiskEngineState.mem_of_reservation? hlookup).2
  split at hok
  · cases hok
  next remaining hremaining =>
  split at hok
  · cases hok
  next account haccount =>
  split at hok
  · cases hok
  next position buys sells hexposure =>
  obtain ⟨total, hsub, rfl, rfl, hposition⟩ := of_exposureAfterFill hexposure
  have hid : account.id = r.accountId := (RiskEngineState.mem_of_account? haccount).2
  have hsum := Unsigned.checkedSub_eq_some.mp hremaining
  have hle : traded.val ≤ r.quantity.val := by omega
  rw [Unsigned.checkedSub_of_le hle] at hremaining
  obtain rfl := Option.some.inj hremaining
  have hget : engine.accounts.get (ModelReservation.of r).accountId = some (.of account) :=
    h.get_account haccount
  have hsettled : (ModelAccount.of account).settle (ModelReservation.of r).side traded = .ok position :=
    settle_of hposition
  have hzero : (decide (0 < traded.val)) = true := decide_eq_true (Nat.pos_of_ne_zero hpos)
  have hfits : (decide (traded.val ≤ (ModelReservation.of r).remaining.val)) = true := decide_eq_true hle
  have hleft : Run.subWord (ModelReservation.of r).remaining traded =
      .ok (Unsigned.monus r.quantity traded) :=
    Run.subWord_of_le hle
  unfold ModelEngine.recordFill
  rw [hzero, require_true, Run.ok_bind, h.get_reservation hlookup, Run.expect_some, Run.ok_bind, hfits,
    require_true, Run.ok_bind, hleft, Run.ok_bind, hget, Run.expect_some, Run.ok_bind, hsettled,
    Run.ok_bind, reserved_of]
  have hsub' : Run.subWord (account.reserved (ModelReservation.of r).side) (exposure traded) =
      .ok total := hsub
  rw [hsub', Run.ok_bind]
  by_cases hempty : (Unsigned.monus r.quantity traded).val = 0
  · rw [if_pos hempty] at hok
    split at hok
    · cases hok
    next openOrders hopen =>
    dsimp only at hok
    rw [if_pos hempty] at hok
    obtain ⟨-, rfl⟩ := Prod.mk.inj (Except.ok.inj hok)
    have hopen' : Unsigned.checkedSub (ModelAccount.of account).openOrders 1 = some openOrders := hopen
    refine ⟨_, _, ?_, (h.putAccount haccount (account.withTotals position
      (totalsWith account r.side total).1 (totalsWith account r.side total).2 openOrders)
      hid).dropReservation r.orderId⟩
    rw [if_pos hempty, hopen', Run.expect_some, Run.ok_bind, setReserved_of]
    rfl
  · rw [if_neg hempty] at hok
    dsimp only at hok
    rw [if_neg hempty] at hok
    obtain ⟨-, rfl⟩ := Prod.mk.inj (Except.ok.inj hok)
    refine ⟨_, _, ?_, (h.putAccount haccount (account.withTotals position
      (totalsWith account r.side total).1 (totalsWith account r.side total).2 account.openOrders)
      hid).putReservation hlookup ({ r with quantity := Unsigned.monus r.quantity traded }) rfl⟩
    rw [if_neg hempty, setReserved_of]
    rfl

/-- An order within its limits is reserved alike. -/
theorem reserve (h : Keeps engine.accounts engine.reservations risk) {order : NewOrder} {buys sells : U128}
    {openOrders : U32} (haccount : risk.account? order.accountId = some account)
    (hlimits : Risk.evaluateLimits account order = .ok (buys, sells, openOrders))
    (habsent : risk.reservation? order.orderId = none) :
    ∃ accounts reservations, engine.reserve order =
        .ok { engine with accounts := accounts, reservations := reservations } ∧
      Keeps accounts reservations ((risk.putAccount (account.withTotals account.settledPosition buys sells
        openOrders)).addReservation (reservationOf order)) := by
  obtain ⟨_, hbuys, hsells, _, _, hopen, _⟩ := RiskEngineState.evaluateLimits_ok hlimits
  have hsum : (Unsigned.wrappingAdd (account.reserved order.side) (exposure order.quantity)).val =
      (account.reserved order.side).val + order.quantity.val := by
    refine Unsigned.wrappingAdd_of_lt ?_
    cases hside : order.side with
    | buy =>
      rw [hside] at hbuys
      exact hbuys ▸ buys.isLt
    | sell =>
      rw [hside] at hsells
      exact hsells ▸ sells.isLt
  have htotals : totalsWith account order.side
      (Unsigned.wrappingAdd (account.reserved order.side) (exposure order.quantity)) = (buys, sells) := by
    cases hside : order.side with
    | buy =>
      rw [hside] at hbuys hsells hsum
      exact Prod.ext (Fin.ext (hsum.trans hbuys.symm)) (Fin.ext hsells.symm)
    | sell =>
      rw [hside] at hbuys hsells hsum
      exact Prod.ext (Fin.ext hbuys.symm) (Fin.ext (hsum.trans hsells.symm))
  have hcount : wrappingSucc account.openOrders = openOrders := by
    apply Fin.ext
    have hlt := openOrders.isLt
    rw [hopen] at hlt
    exact (Nat.mod_eq_of_lt hlt).trans hopen.symm
  have hid : account.id = order.accountId := (RiskEngineState.mem_of_account? haccount).2
  have habsent' : risk.reservation? (reservationOf order).orderId = none := habsent
  refine ⟨_, _, ?_, (h.putAccount haccount (account.withTotals account.settledPosition buys sells openOrders)
    hid).addReservation habsent'⟩
  unfold ModelEngine.reserve
  rw [h.get_account haccount, Run.expect_some, Run.ok_bind, reserved_of, setReserved_of, htotals,
    show (ModelAccount.of account).openOrders = account.openOrders from rfl, hcount]
  rfl

/-! ## Amendments -/

/-- New totals of an account together with a new total of one reservation. -/
theorem amend (h : Keeps engine.accounts engine.reservations risk)
    (hlookup : risk.reservation? orderId = some r) (haccount : risk.account? r.accountId = some account)
    (total : U128) (quantity : Quantity) :
    ∃ accounts reservations, engine.amend orderId (.of r) ((ModelAccount.of account).setReserved r.side total)
        quantity = { engine with accounts := accounts, reservations := reservations } ∧
      Keeps accounts reservations (risk.amend account (totalsWith account r.side total) r quantity) := by
  obtain rfl := (RiskEngineState.mem_of_reservation? hlookup).2
  refine ⟨_, _, rfl, ?_⟩
  have hid : account.id = r.accountId := (RiskEngineState.mem_of_account? haccount).2
  rw [setReserved_of]
  exact (h.putAccount haccount { account with
    reservedBuys := (totalsWith account r.side total).1
    reservedSells := (totalsWith account r.side total).2 } hid).putReservation hlookup
      { r with quantity := quantity } rfl

section Adjustment

variable {replace : ReplaceOrder}

/-- What the two gateways do with an amendment of an owned order. -/
theorem adjustReservation (h : Keeps engine.accounts engine.reservations risk) (hconsistent : risk.Consistent)
    (hlookup : risk.reservation? replace.orderId = some r) (howner : r.accountId = replace.accountId) :
    (∃ amounts risk' accounts reservations,
      risk.adjustReservation replace.orderId replace.accountId replace.price replace.quantity =
        .ok (amounts, risk') ∧
      engine.adjustReservation replace =
        .ok (.ok amounts, { engine with accounts := accounts, reservations := reservations }) ∧
      Keeps accounts reservations risk') ∨
    ∃ reason account total, risk.adjustReservation replace.orderId replace.accountId replace.price
        replace.quantity = .error reason ∧ risk.account? replace.accountId = some account ∧
      r.quantity.val < replace.quantity.val ∧
      evaluateIncrease account r.side replace.price (Unsigned.monus replace.quantity r.quantity)
        replace.quantity = .error reason ∧
      total.val = (account.reserved r.side).val + (replace.quantity.val - r.quantity.val) ∧
      engine.adjustReservation replace = .ok (.error reason, { engine with
        accounts := engine.accounts.insert replace.accountId
          ((ModelAccount.of account).setReserved r.side total) }) := by
  obtain ⟨hr, _⟩ := hconsistent.ordered.reservation?_eq_some.mp hlookup
  obtain ⟨account, haccount, hmem, hid⟩ := hconsistent.exists_account hr
  have hget : engine.accounts.get (ModelReservation.of r).accountId = some (.of account) :=
    h.get_account haccount
  have hremaining : (ModelReservation.of r).remaining = r.quantity := rfl
  have hside : (ModelReservation.of r).side = r.side := rfl
  unfold RiskEngineState.adjustReservation ModelEngine.adjustReservation
  rw [h.get_reservation hlookup, hlookup]
  dsimp only
  rw [if_neg (not_not.mpr howner), hremaining]
  by_cases hsame : replace.quantity = r.quantity
  · rw [if_pos hsame, if_pos hsame]
    exact .inl ⟨_, _, _, _, rfl, rfl, h⟩
  rw [if_neg hsame, if_neg hsame, hget, Run.expect_some, Run.ok_bind, ← howner, haccount, reserved_of, hside]
  dsimp only
  by_cases hlt : r.quantity.val < replace.quantity.val
  · obtain ⟨total, hadd, hvalue, hincrease⟩ := checkIncrease_of
      (hconsistent.balanced.reserved_lt hmem .buy) (hconsistent.balanced.reserved_lt hmem .sell) r.side
      replace.price (Unsigned.monus replace.quantity r.quantity) replace.quantity
    rw [if_pos hlt, if_pos hlt, hadd, hincrease]
    dsimp only
    cases hcheck : ((ModelAccount.of account).setReserved r.side total).checkIncrease replace.price
        replace.quantity with
    | error reason =>
      rw [hcheck] at hincrease
      exact .inr ⟨reason, account, total, rfl, rfl, hlt, hincrease, hvalue, rfl⟩
    | ok _ =>
      obtain ⟨accounts, reservations, hamend, hkept⟩ := h.amend hlookup haccount total replace.quantity
      refine .inl ⟨_, _, accounts, reservations, rfl, ?_, hkept⟩
      rw [← hamend]
      rfl
  · have hle : (exposure (Unsigned.monus r.quantity replace.quantity)).val ≤ (account.reserved r.side).val :=
      (Nat.sub_le ..).trans (hconsistent.quantity_le hr hmem hid)
    rw [if_neg hlt, if_neg hlt, subReserved_eq, Unsigned.checkedSub_of_le hle, Run.subWord_of_le hle,
      Run.ok_bind]
    obtain ⟨accounts, reservations, hamend, hkept⟩ := h.amend hlookup haccount
      (Unsigned.monus (account.reserved r.side) (exposure (Unsigned.monus r.quantity replace.quantity)))
      replace.quantity
    refine .inl ⟨_, _, accounts, reservations, rfl, ?_, hkept⟩
    rw [← hamend]
    rfl

end Adjustment

/-- A restored total is the one of the signed arithmetic. -/
theorem restoredTotals_eq {side : Side} {current prior : Quantity} {totals : U128 × U128}
    (hsmall : (account.reserved side).val < 2 ^ 96)
    (h : RiskEngineState.restoredTotals account side current prior = .ok totals) :
    ∃ (signedTotal restored : I128),
      Signed.ofUnsigned? 128 (account.reserved side) = some signedTotal ∧
      Signed.ofInt? 128 (signedTotal.val + ((prior.val : ℤ) - current.val)) = some restored ∧
      totals = totalsWith account side (unsignedAbs restored) := by
  have hprior := prior.isLt
  have hcurrent := current.isLt
  have hsigned : ∃ signedTotal : I128, ((account.reserved side).val : ℤ) = signedTotal.val :=
    ⟨⟨(account.reserved side).val, by constructor <;> norm_num; omega⟩, rfl⟩
  obtain ⟨signedTotal, hsigned⟩ := hsigned
  have hrange : -2 ^ (128 - 1) ≤ signedTotal.val + ((prior.val : ℤ) - current.val) ∧
      signedTotal.val + ((prior.val : ℤ) - current.val) < 2 ^ (128 - 1) := by
    constructor <;> norm_num <;> omega
  refine ⟨signedTotal, ⟨_, hrange⟩, ofUnsigned?_eq_some.mpr hsigned, Signed.ofInt?_of_mem hrange, ?_⟩
  have htotal (total : U128)
      (hvalue : (total.val : ℤ) = (account.reserved side).val + ((prior.val : ℤ) - current.val)) :
      total = unsignedAbs ⟨_, hrange⟩ := by
    apply Fin.ext
    show total.val = (signedTotal.val + ((prior.val : ℤ) - current.val)).natAbs
    omega
  unfold RiskEngineState.restoredTotals at h
  split at h
  · next hlt =>
    rw [addReserved_eq] at h
    cases hadd : Unsigned.checkedAdd (account.reserved side) (exposure (Unsigned.monus prior current)) with
    | none =>
      rw [hadd] at h
      cases h
    | some total =>
      rw [hadd] at h
      have hsum := Unsigned.checkedAdd_eq_some.mp hadd
      rw [exposure_val, Unsigned.monus_val] at hsum
      rw [← htotal total (by omega)]
      exact (Except.ok.inj h).symm
  · next hge =>
    rw [subReserved_eq] at h
    cases hsub : Unsigned.checkedSub (account.reserved side) (exposure (Unsigned.monus current prior)) with
    | none =>
      rw [hsub] at h
      cases h
    | some total =>
      rw [hsub] at h
      have hdifference := Unsigned.checkedSub_eq_some.mp hsub
      rw [exposure_val, Unsigned.monus_val] at hdifference
      rw [← htotal total (by omega)]
      exact (Except.ok.inj h).symm

/-- A restoration leads back to the prior total. -/
theorem restoreReservation (h : Keeps engine.accounts engine.reservations risk)
    (hconsistent : risk.Consistent)
    {accountId : AccountId} {prior : Quantity}
    (hok : risk.restoreReservation orderId accountId prior = .ok ((), risk')) :
    ∃ accounts reservations, engine.restoreReservation orderId prior =
        .ok { engine with accounts := accounts, reservations := reservations } ∧
      Keeps accounts reservations risk' := by
  unfold RiskEngineState.restoreReservation at hok
  split at hok
  · cases hok
  next r hlookup =>
  split at hok
  · cases hok
  next howner =>
  have hreservation := h.get_reservation hlookup
  unfold ModelEngine.restoreReservation
  rw [hreservation]
  dsimp only [Option.map_some, Option.getD_some]
  have hremaining : (ModelReservation.of r).remaining = r.quantity := rfl
  rw [hremaining]
  split at hok
  · next hsame =>
    obtain ⟨-, rfl⟩ := Prod.mk.inj (Except.ok.inj hok)
    rw [hsame, sub_self, if_pos rfl]
    exact ⟨_, _, rfl, h⟩
  next hne =>
  have hdelta : (prior.val : ℤ) - r.quantity.val ≠ 0 := by
    intro hzero
    apply hne
    apply Fin.ext
    omega
  rw [if_neg hdelta]
  split at hok
  · cases hok
  next account haccount =>
  split at hok
  · cases hok
  next totals htotals =>
  obtain ⟨-, rfl⟩ := Prod.mk.inj (Except.ok.inj hok)
  obtain rfl := not_not.mp howner
  obtain ⟨hmem, _⟩ := hconsistent.ordered.account?_eq_some.mp haccount
  obtain ⟨signedTotal, restored, hsigned, hrestored, rfl⟩ :=
    restoredTotals_eq (hconsistent.balanced.reserved_lt hmem r.side) htotals
  obtain ⟨accounts, reservations, hamend, hkept⟩ := h.amend hlookup haccount (unsignedAbs restored) prior
  have hget : engine.accounts.get (ModelReservation.of r).accountId = some (.of account) :=
    h.get_account haccount
  have hside : (ModelReservation.of r).side = r.side := rfl
  refine ⟨accounts, reservations, ?_, hkept⟩
  rw [Run.expect_some, Run.ok_bind, hget, Run.expect_some, Run.ok_bind, reserved_of, hside, hsigned,
    Run.expect_some, Run.ok_bind, hrestored, ← hamend]
  rfl

end Keeps

end DeterministicExchange.Model
