import DeterministicExchange.Risk.Invariant

/-!
# Kill switches

A kill switch, global or of one account, is looked at when an order is reserved.
An amendment does not look at it, so that the reserved totals of a stopped account
grow by exactly those amendments that raise a reservation within the notional and
position limits. No other order operation makes them grow.
-/

namespace DeterministicExchange.Risk

open Machine

/-! ## Order operations -/

inductive OrderOperation where
  | checkAndReserve (order : NewOrder)
  | adjustReservation (orderId : OrderId) (accountId : AccountId) (price : PriceTicks)
      (newQuantity : Quantity)
  | recordFill (orderId : OrderId) (filledQuantity : Quantity)
  | settle (orderId : OrderId) (filledQuantity : Quantity)
  | cancelReservation (orderId : OrderId) (accountId : AccountId)

def OrderOperation.call : OrderOperation → RiskCall
  | .checkAndReserve order => .checkAndReserve order
  | .adjustReservation orderId accountId price newQuantity =>
    .adjustReservation orderId accountId price newQuantity
  | .recordFill orderId filledQuantity => .recordFill orderId filledQuantity
  | .settle orderId filledQuantity => .settle orderId filledQuantity
  | .cancelReservation orderId accountId => .cancelReservation orderId accountId

/-- An amendment that the limits of its account let through, whatever its kill switches. -/
def AccountRiskState.AdmitsIncrease (account : AccountRiskState) (side : Side) (price : PriceTicks)
    (added newTotal : Quantity) : Prop :=
  -2 ^ 63 < price.val ∧ |price.val| * newTotal.val ≤ account.limits.maxNotional.val ∧
    account.settledPosition.val + (account.reservedBuys.val + onSide side .buy added.val) ≤
      account.limits.maxAbsPosition.val ∧
    -(account.limits.maxAbsPosition.val : ℤ) ≤
      account.settledPosition.val - (account.reservedSells.val + onSide side .sell added.val)

/-- Neither reserved total is larger in `account'`. -/
def AccountRiskState.ReservesNoMore (account account' : AccountRiskState) : Prop :=
  account'.reservedBuys.val ≤ account.reservedBuys.val ∧
    account'.reservedSells.val ≤ account.reservedSells.val

namespace RiskEngine

variable {ACCOUNTS ORDERS : ℕ}

/-- The global kill switch or that of the account is set. -/
def Stops (engine : RiskEngine ACCOUNTS ORDERS) (account : AccountState) : Prop :=
  engine.killed = true ∨ account.killed = true

/-- The kill switches are as they were, and no account that they stop has reserved more. -/
def HoldsExposure (engine engine' : RiskEngine ACCOUNTS ORDERS) : Prop :=
  engine'.killed = engine.killed ∧
    ∀ (slot slot' : ℕ) (account account' : AccountState),
      engine.accounts[slot]? = some (some account) → engine'.accounts[slot']? = some (some account') →
        account'.id = account.id → account'.killed = account.killed ∧
          (engine.Stops account → account.ReservesNoMore account')

/-- The operation raises a reservation of a stopped account, as far as its limits admit that. -/
def Raises (engine : RiskEngine ACCOUNTS ORDERS) : OrderOperation → Prop
  | .adjustReservation orderId accountId price newQuantity =>
    ∃ slot r, engine.ReservesAt slot r ∧ r.orderId = orderId ∧ r.accountId = accountId ∧
      r.quantity.val < newQuantity.val ∧
      ∃ (i : ℕ) (account : AccountState), engine.accounts[i]? = some (some account) ∧
        account.id = accountId ∧ engine.Stops account ∧
        account.AdmitsIncrease r.side price (Unsigned.monus newQuantity r.quantity) newQuantity
  | _ => False

theorem not_raises_of_le {engine : RiskEngine ACCOUNTS ORDERS} {orderId : OrderId} {accountId : AccountId}
    {price : PriceTicks} {newQuantity : Quantity}
    (h : ∀ slot r, engine.ReservesAt slot r → newQuantity.val ≤ r.quantity.val) :
    ¬ engine.Raises (.adjustReservation orderId accountId price newQuantity) := by
  rintro ⟨slot, r, hreserves, _, _, hlt, _⟩
  exact absurd (h slot r hreserves) (Nat.not_le.mpr hlt)

/-- An engine that was built and then called in any way. -/
def Reached (engine : RiskEngine ACCOUNTS ORDERS) : Prop :=
  ∃ (built : RiskEngine ACCOUNTS ORDERS) (calls : List RiskCall) (replies : List RiskReply),
    built.Built ∧ execute RiskEngine.call built calls = .ok (replies, engine)

/-- The engines met while serving order operations that are permitted when they are called. -/
inductive Serves (permitted : RiskEngine ACCOUNTS ORDERS → OrderOperation → Prop)
    (engine : RiskEngine ACCOUNTS ORDERS) : RiskEngine ACCOUNTS ORDERS → Prop where
  | start : Serves permitted engine engine
  | step {before after : RiskEngine ACCOUNTS ORDERS} {operation : OrderOperation} {reply : RiskReply}
      (h : Serves permitted engine before) (hpermitted : permitted before operation)
      (hrun : before.call operation.call = .ok (reply, after)) : Serves permitted engine after

end RiskEngine

/-! ## Logical states -/

namespace RiskEngineState

/-- The state after a fallible operation. -/
def next {A : Type} (state : RiskEngineState) (result : Except RejectReason (A × RiskEngineState)) :
    RiskEngineState :=
  match result with
  | .error _ => state
  | .ok (_, state) => state

def serve (ORDERS : ℕ) (state : RiskEngineState) : OrderOperation → RiskEngineState
  | .checkAndReserve order => state.next (state.checkAndReserve ORDERS order)
  | .adjustReservation orderId accountId price newQuantity =>
    state.next (state.adjustReservation orderId accountId price newQuantity)
  | .recordFill orderId filledQuantity => state.next (state.recordFill orderId filledQuantity)
  | .settle orderId filledQuantity => state.next (state.settle orderId filledQuantity)
  | .cancelReservation orderId accountId => state.next (state.cancelReservation orderId accountId)

def Stops (state : RiskEngineState) (account : AccountRiskState) : Prop :=
  state.killed = true ∨ account.killed = true

structure HoldsExposure (state state' : RiskEngineState) : Prop where
  killed : state'.killed = state.killed
  account : ∀ account' ∈ state'.accounts, ∃ account ∈ state.accounts, account.id = account'.id ∧
    account'.killed = account.killed ∧ (state.Stops account → account.ReservesNoMore account')

def Raises (state : RiskEngineState) : OrderOperation → Prop
  | .adjustReservation orderId accountId price newQuantity =>
    ∃ r ∈ state.reservations, r.orderId = orderId ∧ r.accountId = accountId ∧
      r.quantity.val < newQuantity.val ∧
      ∃ account ∈ state.accounts, account.id = accountId ∧ state.Stops account ∧
        account.AdmitsIncrease r.side price (Unsigned.monus newQuantity r.quantity) newQuantity
  | _ => False

variable {state state' state'' : RiskEngineState} {account account' : AccountRiskState}

theorem HoldsExposure.refl (state : RiskEngineState) : state.HoldsExposure state :=
  ⟨rfl, fun account hmem ↦ ⟨account, hmem, rfl, rfl, fun _ ↦ ⟨le_rfl, le_rfl⟩⟩⟩

theorem HoldsExposure.trans (h : state.HoldsExposure state') (h' : state'.HoldsExposure state'') :
    state.HoldsExposure state'' := by
  refine ⟨h'.killed.trans h.killed, ?_⟩
  intro account'' hmem''
  obtain ⟨account', hmem', hid', hkilled', hle'⟩ := h'.account account'' hmem''
  obtain ⟨account, hmem, hid, hkilled, hle⟩ := h.account account' hmem'
  refine ⟨account, hmem, hid.trans hid', hkilled'.trans hkilled, fun hstops ↦ ?_⟩
  have hstops' : state'.Stops account' := by
    unfold Stops
    rw [h.killed, hkilled]
    exact hstops
  exact ⟨(hle' hstops').1.trans (hle hstops).1, (hle' hstops').2.trans (hle hstops).2⟩

/-- Overwriting the totals of an account, with larger ones only if nothing stops it. -/
theorem HoldsExposure.of_putAccount (hmem : account ∈ state.accounts) (position : I128)
    {buys sells : U128} (openOrders : U32)
    (hle : state.Stops account →
      buys.val ≤ account.reservedBuys.val ∧ sells.val ≤ account.reservedSells.val)
    (hkilled : state'.killed = state.killed)
    (haccounts : state'.accounts =
      (state.putAccount (account.withTotals position buys sells openOrders)).accounts) :
    state.HoldsExposure state' := by
  refine ⟨hkilled, ?_⟩
  intro stored hstored
  rw [haccounts] at hstored
  obtain ⟨prior, hprior, heq⟩ := List.mem_map.mp hstored
  split at heq
  · rw [← heq]
    exact ⟨account, hmem, rfl, rfl, hle⟩
  · rw [← heq]
    exact ⟨prior, hprior, rfl, rfl, fun _ ↦ ⟨le_rfl, le_rfl⟩⟩

/-! ## Operations that do not raise -/

theorem holdsExposure_checkAndReserve {ORDERS : ℕ} {order : NewOrder}
    (hok : state.checkAndReserve ORDERS order = .ok ((), state')) : state.HoldsExposure state' := by
  unfold RiskEngineState.checkAndReserve at hok
  split at hok
  · simp at hok
  next hglobal =>
  split at hok
  · simp at hok
  split at hok
  · simp at hok
  split at hok
  · simp at hok
  split at hok
  · simp at hok
  next account haccount =>
  split at hok
  · simp at hok
  next buys sells openOrders hlimits =>
  obtain ⟨-, rfl⟩ := Prod.ext_iff.mp (Except.ok.inj hok)
  have hfree : account.killed ≠ true := by
    intro hkilled
    unfold evaluateLimits at hlimits
    rw [if_pos hkilled] at hlimits
    simp at hlimits
  refine HoldsExposure.of_putAccount (mem_of_account? haccount).1 account.settledPosition openOrders ?_
    rfl rfl
  intro hstops
  exact absurd hstops (not_or.mpr ⟨hglobal, hfree⟩)

/-- Released quantities leave no larger totals. -/
theorem released_le {buys sells : U128} {side : Side} {released : ℕ}
    (hbuys : buys.val = account.reservedBuys.val - onSide side .buy released)
    (hsells : sells.val = account.reservedSells.val - onSide side .sell released) :
    buys.val ≤ account.reservedBuys.val ∧ sells.val ≤ account.reservedSells.val :=
  ⟨hbuys.le.trans (Nat.sub_le _ _), hsells.le.trans (Nat.sub_le _ _)⟩

theorem holdsExposure_settleReservation {r : ReservationRiskState} {filled : Quantity}
    (hok : state.settleReservation r filled = .ok ((), state')) : state.HoldsExposure state' := by
  unfold RiskEngineState.settleReservation at hok
  split at hok
  · simp at hok
  next account haccount =>
  split at hok
  · simp at hok
  next position buys sells hexposure =>
  split at hok
  · simp at hok
  next openOrders _ =>
  obtain ⟨-, rfl⟩ := Prod.ext_iff.mp (Except.ok.inj hok)
  obtain ⟨_, hbuys, hsells⟩ := exposureAfterFill_eq_ok hexposure
  exact HoldsExposure.of_putAccount (mem_of_account? haccount).1 position openOrders
    (fun _ ↦ released_le hbuys hsells) rfl rfl

theorem holdsExposure_settle {orderId : OrderId} {filled : Quantity}
    (hok : state.settle orderId filled = .ok ((), state')) : state.HoldsExposure state' := by
  unfold RiskEngineState.settle at hok
  split at hok
  · simp at hok
  split at hok
  · simp at hok
  exact holdsExposure_settleReservation hok

theorem holdsExposure_cancelReservation {orderId : OrderId} {accountId : AccountId} {quantity : Quantity}
    (hok : state.cancelReservation orderId accountId = .ok (quantity, state')) :
    state.HoldsExposure state' := by
  unfold RiskEngineState.cancelReservation at hok
  split at hok
  · simp at hok
  split at hok
  · simp at hok
  split at hok
  · simp at hok
  next hsettle =>
  obtain ⟨-, rfl⟩ := Prod.ext_iff.mp (Except.ok.inj hok)
  exact holdsExposure_settleReservation hsettle

theorem holdsExposure_recordFill {orderId : OrderId} {filled : Quantity}
    (hok : state.recordFill orderId filled = .ok ((), state')) : state.HoldsExposure state' := by
  unfold RiskEngineState.recordFill at hok
  split at hok
  · simp at hok
  split at hok
  · simp at hok
  split at hok
  · simp at hok
  split at hok
  · simp at hok
  next account haccount =>
  split at hok
  · simp at hok
  next position buys sells hexposure =>
  split at hok
  · simp at hok
  next openOrders _ =>
  obtain ⟨-, rfl⟩ := Prod.ext_iff.mp (Except.ok.inj hok)
  obtain ⟨_, hbuys, hsells⟩ := exposureAfterFill_eq_ok hexposure
  refine HoldsExposure.of_putAccount (mem_of_account? haccount).1 position openOrders
    (fun _ ↦ released_le hbuys hsells) ?_ ?_
  all_goals split <;> rfl

/-! ## Amendments -/

/-- A stopped account that may reserve more is admitted by its limits. -/
theorem admitsIncrease_of_ok {side : Side} {price : PriceTicks} {added newTotal : Quantity}
    {totals : U128 × U128} (h : evaluateIncrease account side price added newTotal = .ok totals) :
    account.AdmitsIncrease side price added newTotal := by
  obtain ⟨hbuys, hsells, hlong, hshort, hnotional⟩ := evaluateIncrease_ok h
  obtain ⟨_, _, h⟩ := except_bind_eq_ok.mp h
  obtain ⟨_, hn, _⟩ := except_bind_eq_ok.mp h
  obtain ⟨absolute, habsolute, _⟩ := except_bind_eq_ok.mp hn
  have habs : |price.val| = absolute.val := Signed.ofInt?_eq_some.mp (okOr_eq_ok.mp habsolute)
  have hlt : |price.val| < 2 ^ 63 := by
    rw [habs]
    exact absolute.property.2
  refine ⟨(abs_lt.mp hlt).1, hnotional, ?_, ?_⟩
  · rw [hbuys] at hlong
    exact_mod_cast hlong
  · rw [hsells] at hshort
    exact_mod_cast hshort

theorem holdsExposure_adjustReservation {orderId : OrderId} {accountId : AccountId}
    {price : PriceTicks} {newQuantity : Quantity} {amounts : Quantity × Quantity}
    (hraises : ¬ state.Raises (.adjustReservation orderId accountId price newQuantity))
    (hok : state.adjustReservation orderId accountId price newQuantity = .ok (amounts, state')) :
    state.HoldsExposure state' := by
  unfold RiskEngineState.adjustReservation at hok
  split at hok
  · simp at hok
  next r hreservation =>
  obtain ⟨hr, horder⟩ := mem_of_reservation? hreservation
  split at hok
  · simp at hok
  next howner =>
  split at hok
  · obtain ⟨-, rfl⟩ := Prod.ext_iff.mp (Except.ok.inj hok)
    exact HoldsExposure.refl state
  split at hok
  · simp at hok
  next account haccount =>
  obtain ⟨hmem, hid⟩ := mem_of_account? haccount
  split at hok
  · next hlt =>
    split at hok
    · simp at hok
    next totals hincrease =>
    obtain ⟨-, rfl⟩ := Prod.ext_iff.mp (Except.ok.inj hok)
    refine HoldsExposure.of_putAccount hmem account.settledPosition account.openOrders ?_ rfl rfl
    intro hstops
    exact absurd ⟨r, hr, horder, not_not.mp howner, hlt, account, hmem, hid, hstops,
      admitsIncrease_of_ok hincrease⟩ hraises
  · split at hok
    · simp at hok
    next totals htotals =>
    obtain ⟨-, rfl⟩ := Prod.ext_iff.mp (Except.ok.inj hok)
    obtain ⟨_, hbuys, hsells⟩ := subReserved_eq_ok htotals
    exact HoldsExposure.of_putAccount hmem account.settledPosition account.openOrders
      (fun _ ↦ released_le hbuys hsells) rfl rfl

/-- A reserved total is at most that of as many full reservations as the account has open orders. -/
theorem reservedTotal_le (side : Side) (id : AccountId) (rs : List ReservationRiskState) :
    reservedTotal side id rs ≤ openCount id rs * (2 ^ 64 - 1) := by
  induction rs with
  | nil => exact Nat.zero_le _
  | cons r rs ih =>
    have hquantity : r.quantity.val ≤ 2 ^ 64 - 1 := Nat.le_sub_one_of_lt r.quantity.isLt
    rw [reservedTotal_cons, openCount_cons, Nat.add_mul]
    unfold exposureOf
    split_ifs <;> grind

theorem Balanced.reserved_lt (h : state.Balanced) (hmem : account ∈ state.accounts) (side : Side) :
    (account.reserved side).val < 2 ^ 96 := by
  have hopen := account.openOrders.isLt
  have hbalanced := h.account account hmem
  calc
    (account.reserved side).val = reservedTotal side account.id state.reservations :=
      hbalanced.reserved side
    _ ≤ openCount account.id state.reservations * (2 ^ 64 - 1) := reservedTotal_le ..
    _ = account.openOrders.val * (2 ^ 64 - 1) := by rw [hbalanced.openOrders]
    _ < 2 ^ 96 := by omega

/-- The notional value of an order with a price other than the least one. -/
theorem notional_of_lt {price : PriceTicks} (h : -2 ^ 63 < price.val) (quantity : Quantity) :
    ∃ n, notional price quantity = .ok n := by
  have hlt : |price.val| < 2 ^ 63 := abs_lt.mpr ⟨h, price.property.2⟩
  have hnonneg := abs_nonneg price.val
  obtain ⟨absolute, habs⟩ : ∃ absolute : I64, absolute.val = |price.val| :=
    ⟨⟨|price.val|, by omega, hlt⟩, rfl⟩
  have habsolute : Signed.checkedAbs price = some absolute := Signed.ofInt?_eq_some.mpr habs.symm
  obtain ⟨unsigned, hunsigned⟩ : ∃ unsigned : U64, unsigned.val = absolute.val.toNat :=
    ⟨⟨absolute.val.toNat, by omega⟩, rfl⟩
  have hto : Signed.toUnsigned? 64 absolute = some unsigned := by
    rw [Signed.toUnsigned?, if_pos (by omega), Unsigned.ofNat?_eq_some]
    exact hunsigned.symm
  obtain ⟨n, hn⟩ : ∃ n : U128, unsigned.val * quantity.val = n.val := by
    refine ⟨⟨unsigned.val * quantity.val, ?_⟩, rfl⟩
    calc
      unsigned.val * quantity.val < 2 ^ 64 * 2 ^ 64 := Nat.mul_lt_mul'' unsigned.isLt quantity.isLt
      _ = 2 ^ 128 := by norm_num
  exact ⟨n, except_bind_eq_ok.mpr ⟨absolute, okOr_eq_ok.mpr habsolute, except_bind_eq_ok.mpr
    ⟨unsigned, okOr_eq_ok.mpr hto, okOr_eq_ok.mpr (Unsigned.checkedMul_eq_some.mpr hn)⟩⟩⟩

theorem checkPosition_of_le {buys sells : U128} (hbuys : buys.val < 2 ^ 127) (hsells : sells.val < 2 ^ 127)
    (hlong : account.settledPosition.val + buys.val ≤ account.limits.maxAbsPosition.val)
    (hshort : -(account.limits.maxAbsPosition.val : ℤ) ≤ account.settledPosition.val - sells.val) :
    checkPosition account buys sells = .ok () := by
  have hposition := account.settledPosition.property
  have hmax := account.limits.maxAbsPosition.isLt
  have hsigned (x : ℤ) (hx : -2 ^ 127 ≤ x ∧ x < 2 ^ 127) : ∃ a : I128, x = a.val := ⟨⟨x, hx⟩, rfl⟩
  obtain ⟨b, hb⟩ := hsigned buys.val (by omega)
  obtain ⟨s, hs⟩ := hsigned sells.val (by omega)
  obtain ⟨long, hl⟩ := hsigned (account.settledPosition.val + b.val) (by omega)
  obtain ⟨short, hr⟩ := hsigned (account.settledPosition.val - s.val) (by omega)
  refine except_bind_eq_ok.mpr ⟨b, okOr_eq_ok.mpr (ofUnsigned?_eq_some.mpr hb), ?_⟩
  refine except_bind_eq_ok.mpr ⟨long, okOr_eq_ok.mpr (Signed.ofInt?_eq_some.mpr hl), ?_⟩
  refine except_bind_eq_ok.mpr ⟨s, okOr_eq_ok.mpr (ofUnsigned?_eq_some.mpr hs), ?_⟩
  refine except_bind_eq_ok.mpr ⟨short, okOr_eq_ok.mpr (Signed.ofInt?_eq_some.mpr hr), ?_⟩
  apply if_neg
  rw [signed_val, not_or, not_lt, not_lt]
  exact ⟨by omega, by omega⟩

/-- The limits are all that an increase of a reservation has to pass. -/
theorem Balanced.evaluateIncrease_of_admits (h : state.Balanced) (hmem : account ∈ state.accounts)
    {side : Side} {price : PriceTicks} {added newTotal : Quantity}
    (hadmits : account.AdmitsIncrease side price added newTotal) :
    ∃ totals, evaluateIncrease account side price added newTotal = .ok totals ∧
      totals.1.val = account.reservedBuys.val + onSide side .buy added.val ∧
      totals.2.val = account.reservedSells.val + onSide side .sell added.val := by
  obtain ⟨hprice, hnotional, hlong, hshort⟩ := hadmits
  have hreservedBuys : account.reservedBuys.val < 2 ^ 96 := h.reserved_lt hmem .buy
  have hreservedSells : account.reservedSells.val < 2 ^ 96 := h.reserved_lt hmem .sell
  have hadded := added.isLt
  obtain ⟨totals, htotals⟩ : ∃ totals, addReserved account side added = .ok totals := by
    cases side with
    | buy =>
      have hsum : account.reservedBuys.val + (exposure added).val < 2 ^ 128 := by
        rw [exposure_val]
        omega
      obtain ⟨buys, hadd, _⟩ := Unsigned.checkedAdd_of_lt hsum
      exact ⟨(buys, account.reservedSells), except_bind_eq_ok.mpr ⟨buys, okOr_eq_ok.mpr hadd, rfl⟩⟩
    | sell =>
      have hsum : account.reservedSells.val + (exposure added).val < 2 ^ 128 := by
        rw [exposure_val]
        omega
      obtain ⟨sells, hadd, _⟩ := Unsigned.checkedAdd_of_lt hsum
      exact ⟨(account.reservedBuys, sells), except_bind_eq_ok.mpr ⟨sells, okOr_eq_ok.mpr hadd, rfl⟩⟩
  obtain ⟨hbuys, hsells⟩ := addReserved_ok htotals
  obtain ⟨n, hn⟩ := notional_of_lt hprice newTotal
  have hwithin : ¬ account.limits.maxNotional.val < n.val := by
    have hvalue := notional_ok hn
    omega
  have hone (side' : Side) : onSide side side' added.val ≤ added.val := by
    unfold onSide
    split
    · exact le_rfl
    · exact Nat.zero_le _
  have hbuy := hone .buy
  have hsell := hone .sell
  have hposition : checkPosition account totals.1 totals.2 = .ok () := by
    apply checkPosition_of_le
    · omega
    · omega
    · rw [hbuys]
      exact_mod_cast hlong
    · rw [hsells]
      exact_mod_cast hshort
  refine ⟨totals, ?_, hbuys, hsells⟩
  refine except_bind_eq_ok.mpr ⟨totals, htotals, except_bind_eq_ok.mpr ⟨n, hn, ?_⟩⟩
  rw [if_neg hwithin]
  exact except_bind_eq_ok.mpr ⟨(), hposition, rfl⟩

/-- A raised reservation raises a reserved total of its account. -/
theorem Balanced.grows_of_raises (h : state.Balanced) {orderId : OrderId} {accountId : AccountId}
    {price : PriceTicks} {newQuantity : Quantity}
    (hraises : state.Raises (.adjustReservation orderId accountId price newQuantity)) :
    ∃ account ∈ state.accounts, state.Stops account ∧
      ∃ account' ∈ (state.next (state.adjustReservation orderId accountId price newQuantity)).accounts,
        account'.id = account.id ∧ ¬ account.ReservesNoMore account' := by
  obtain ⟨r, hr, rfl, rfl, hlt, account, hmem, hid, hstops, hadmits⟩ := hraises
  obtain ⟨totals, htotals, hbuys, hsells⟩ := h.evaluateIncrease_of_admits hmem hadmits
  have hreservation : state.reservation? r.orderId = some r :=
    h.ordered.reservation?_eq_some.mpr ⟨hr, rfl⟩
  have haccount : state.account? r.accountId = some account :=
    h.ordered.account?_eq_some.mpr ⟨hmem, hid⟩
  have hne : newQuantity ≠ r.quantity := by
    rintro rfl
    exact lt_irrefl _ hlt
  have hadjusted : state.adjustReservation r.orderId r.accountId price newQuantity =
      .ok ((0, r.quantity), state.amend account totals r newQuantity) := by
    unfold RiskEngineState.adjustReservation
    simp only [hreservation, ne_eq, not_true_eq_false, if_false, if_neg hne, haccount, if_pos hlt, htotals]
  rw [hadjusted]
  have hsame : (account.withTotals account.settledPosition totals.1 totals.2 account.openOrders).id =
      account.id := rfl
  refine ⟨account, hmem, hstops, _, (mem_putAccount hmem hsame).mpr (.inl rfl), rfl, ?_⟩
  rintro ⟨hbuysLe, hsellsLe⟩
  have hbuysLe' : totals.1.val ≤ account.reservedBuys.val := hbuysLe
  have hsellsLe' : totals.2.val ≤ account.reservedSells.val := hsellsLe
  have hadded : (Unsigned.monus newQuantity r.quantity).val = newQuantity.val - r.quantity.val := rfl
  cases hside : r.side with
  | buy =>
    have honBuy : onSide r.side .buy (Unsigned.monus newQuantity r.quantity).val =
        newQuantity.val - r.quantity.val := by
      rw [hside, hadded]
      rfl
    omega
  | sell =>
    have honSell : onSide r.side .sell (Unsigned.monus newQuantity r.quantity).val =
        newQuantity.val - r.quantity.val := by
      rw [hside, hadded]
      rfl
    omega

/-! ## Served operations -/

theorem holdsExposure_next {A : Type} {result : Except RejectReason (A × RiskEngineState)}
    (h : ∀ value state', result = .ok (value, state') → state.HoldsExposure state') :
    state.HoldsExposure (state.next result) := by
  cases result with
  | error reason => exact HoldsExposure.refl state
  | ok outcome => exact h outcome.1 outcome.2 rfl

/-- Operations that do not raise a reservation of a stopped account hold the exposure. -/
theorem holdsExposure_serve {ORDERS : ℕ} {operation : OrderOperation}
    (hraises : ¬ state.Raises operation) : state.HoldsExposure (state.serve ORDERS operation) := by
  cases operation with
  | checkAndReserve order => exact holdsExposure_next fun _ _ ↦ holdsExposure_checkAndReserve
  | adjustReservation orderId accountId price newQuantity =>
    exact holdsExposure_next fun _ _ ↦ holdsExposure_adjustReservation hraises
  | recordFill orderId filledQuantity => exact holdsExposure_next fun _ _ ↦ holdsExposure_recordFill
  | settle orderId filledQuantity => exact holdsExposure_next fun _ _ ↦ holdsExposure_settle
  | cancelReservation orderId accountId =>
    exact holdsExposure_next fun _ _ ↦ holdsExposure_cancelReservation

end RiskEngineState

/-! ## Engines -/

namespace RiskEngine

variable {ACCOUNTS ORDERS : ℕ} {engine engine' : RiskEngine ACCOUNTS ORDERS}
  {state state' : RiskEngineState}

theorem Represents.killed (h : engine.Represents state) : engine.killed = state.killed := by
  obtain ⟨_, _, _, h⟩ := h
  exact h.killed

theorem Represents.stops_iff (h : engine.Represents state) (account : AccountState) :
    engine.Stops account ↔ state.Stops account := by
  unfold RiskEngine.Stops RiskEngineState.Stops
  rw [h.killed]

theorem Represents.raises_iff (h : engine.Represents state) (operation : OrderOperation) :
    engine.Raises operation ↔ state.Raises operation := by
  cases operation with
  | adjustReservation orderId accountId price newQuantity =>
    constructor
    · rintro ⟨slot, r, hreserves, horder, howner, hlt, i, account, hi, hid, hstops, hadmits⟩
      exact ⟨r.export, h.mem_of_reservesAt hreserves, horder, howner, hlt, account, h.mem_of_account hi,
        hid, (h.stops_iff account).mp hstops, hadmits⟩
    · rintro ⟨r, hr, horder, howner, hlt, account, hmem, hid, hstops, hadmits⟩
      obtain ⟨slot, stored, hreserves, rfl⟩ := h.exists_reservesAt hr
      obtain ⟨i, hi⟩ := h.exists_account hmem
      exact ⟨slot, stored, hreserves, horder, howner, hlt, i, account, hi, hid,
        (h.stops_iff account).mpr hstops, hadmits⟩
  | checkAndReserve _ => exact Iff.rfl
  | recordFill _ _ => exact Iff.rfl
  | settle _ _ => exact Iff.rfl
  | cancelReservation _ _ => exact Iff.rfl

theorem Represents.holdsExposure (h : engine.Represents state) (h' : engine'.Represents state')
    (hholds : state.HoldsExposure state') : engine.HoldsExposure engine' := by
  refine ⟨by rw [h.killed, h'.killed, hholds.killed], ?_⟩
  intro slot slot' account account' hslot hslot' hid
  obtain ⟨prior, hprior, hsame, hkilled, hle⟩ := hholds.account account' (h'.mem_of_account hslot')
  obtain rfl : prior = account := List.inj_on_of_nodup_map h.ordered.ids_nodup hprior
    (h.mem_of_account hslot) (hsame.trans hid)
  exact ⟨hkilled, fun hstops ↦ hle ((h.stops_iff prior).mp hstops)⟩

/-- Every order operation returns, with the outcome of its logical counterpart. -/
theorem Represents.serve (hA : ACCOUNTS * indexPlanes ≤ 2 ^ 32) (hR : ORDERS * indexPlanes ≤ 2 ^ 32)
    (h : engine.Represents state) (operation : OrderOperation) :
    ∃ reply engine', engine.call operation.call = .ok (reply, engine') ∧
      engine'.Represents (state.serve ORDERS operation) := by
  have hnext {A : Type} {result : Except RejectReason (A × RiskEngineState)}
      {run : Run (Except RejectReason A × RiskEngine ACCOUNTS ORDERS)}
      (himplements : Implements RiskEngine.Represents engine result run) :
      ∃ reply engine', run = .ok (reply, engine') ∧ engine'.Represents (state.next result) := by
    cases result with
    | error reason => exact ⟨_, engine, himplements.of_error rfl, h⟩
    | ok outcome =>
      obtain ⟨engine', hrun, hrep⟩ := himplements.of_ok rfl
      exact ⟨_, engine', hrun, hrep⟩
  cases operation with
  | checkAndReserve order =>
    obtain ⟨reply, engine', hrun, hrep⟩ := hnext (h.checkAndReserve hA hR order)
    refine ⟨.updated reply, engine', ?_, hrep⟩
    rw [OrderOperation.call, RiskEngine.call, hrun]
    rfl
  | adjustReservation orderId accountId price newQuantity =>
    obtain ⟨reply, engine', hrun, hrep⟩ :=
      hnext (h.adjustReservation hA hR orderId accountId price newQuantity)
    refine ⟨.adjusted reply, engine', ?_, hrep⟩
    rw [OrderOperation.call, RiskEngine.call, hrun]
    rfl
  | recordFill orderId filledQuantity =>
    obtain ⟨reply, engine', hrun, hrep⟩ := hnext (h.recordFill hA hR orderId filledQuantity)
    refine ⟨.updated reply, engine', ?_, hrep⟩
    rw [OrderOperation.call, RiskEngine.call, hrun]
    rfl
  | settle orderId filledQuantity =>
    obtain ⟨reply, engine', hrun, hrep⟩ := hnext (h.settle hA hR orderId filledQuantity)
    refine ⟨.updated reply, engine', ?_, hrep⟩
    rw [OrderOperation.call, RiskEngine.call, hrun]
    rfl
  | cancelReservation orderId accountId =>
    obtain ⟨reply, engine', hrun, hrep⟩ := hnext (h.cancelReservation hA hR orderId accountId)
    refine ⟨.released reply, engine', ?_, hrep⟩
    rw [OrderOperation.call, RiskEngine.call, hrun]
    rfl

/-- A step grows the exposure of a stopped account exactly when it raises one of its reservations. -/
theorem Represents.holdsExposure_iff (hA : ACCOUNTS * indexPlanes ≤ 2 ^ 32)
    (hR : ORDERS * indexPlanes ≤ 2 ^ 32) (h : engine.Represents state) (hbalanced : state.Balanced)
    {operation : OrderOperation} {reply : RiskReply}
    (hrun : engine.call operation.call = .ok (reply, engine')) :
    engine.HoldsExposure engine' ↔ ¬ engine.Raises operation := by
  obtain ⟨reply₁, engine₁, hrun₁, hrep⟩ := h.serve hA hR operation
  rw [hrun₁] at hrun
  obtain ⟨_, rfl⟩ := Prod.mk.inj (Except.ok.inj hrun)
  rw [h.raises_iff]
  constructor
  · intro hholds hraises
    cases operation with
    | adjustReservation orderId accountId price newQuantity =>
      obtain ⟨account, hmem, hstops, account', hmem', hid, hgrows⟩ := hbalanced.grows_of_raises hraises
      obtain ⟨slot, hslot⟩ := h.exists_account hmem
      obtain ⟨slot', hslot'⟩ := hrep.exists_account hmem'
      have hkept := hholds.2 slot slot' account account' hslot hslot' hid
      exact hgrows (hkept.2 ((h.stops_iff account).mpr hstops))
    | checkAndReserve _ => exact hraises
    | recordFill _ _ => exact hraises
    | settle _ _ => exact hraises
    | cancelReservation _ _ => exact hraises
  · intro hraises
    exact h.holdsExposure hrep (RiskEngineState.holdsExposure_serve hraises)

theorem Reached.sound (hA : ACCOUNTS * indexPlanes ≤ 2 ^ 32) (hR : ORDERS * indexPlanes ≤ 2 ^ 32)
    (h : engine.Reached) : engine.Sound := by
  obtain ⟨built, calls, replies, hbuilt, hrun⟩ := h
  obtain ⟨replies', engine', hrun', hsound⟩ := execute_invariant calls
    (fun e he call _ ↦ by
      obtain ⟨reply, e', hcall, hsound, _⟩ := Sound.call hA hR he call
      exact ⟨reply, e', hcall, hsound⟩) (hbuilt.sound hA hR)
  rw [hrun] at hrun'
  obtain ⟨_, rfl⟩ := Prod.mk.inj (Except.ok.inj hrun')
  exact hsound

/-- Whatever order operations are served, if none of them raises then the exposure is held. -/
theorem Represents.serves (hA : ACCOUNTS * indexPlanes ≤ 2 ^ 32) (hR : ORDERS * indexPlanes ≤ 2 ^ 32)
    (h : engine.Represents state)
    (hserves : Serves (fun before operation ↦ ¬ before.Raises operation) engine engine') :
    ∃ state', engine'.Represents state' ∧ state.HoldsExposure state' := by
  induction hserves with
  | start => exact ⟨state, h, RiskEngineState.HoldsExposure.refl state⟩
  | @step before after operation reply _ hpermitted hrun ih =>
    obtain ⟨middle, hmiddle, hholds⟩ := ih
    obtain ⟨reply₁, engine₁, hrun₁, hrep⟩ := hmiddle.serve hA hR operation
    rw [hrun₁] at hrun
    obtain ⟨_, rfl⟩ := Prod.mk.inj (Except.ok.inj hrun)
    rw [hmiddle.raises_iff] at hpermitted
    exact ⟨_, hrep, hholds.trans (RiskEngineState.holdsExposure_serve hpermitted)⟩

end RiskEngine

end DeterministicExchange.Risk
