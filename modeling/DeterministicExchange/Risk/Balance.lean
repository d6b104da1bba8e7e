import DeterministicExchange.Risk.Preservation

/-!
# Balanced risk states

Without the discipline of a gateway the worst positions of an account may leave
its limits, and a fill may be refused for an arithmetic overflow. The totals are
kept in step nevertheless: whatever operation succeeds on a balanced state, and
with whatever arguments, leaves a balanced state.
-/

namespace DeterministicExchange.Risk.RiskEngineState

open Machine

variable {state state' : RiskEngineState} {r : ReservationRiskState} {account : AccountRiskState}

/-- What a passed fill takes from the totals. -/
theorem exposureAfterFill_eq_ok {side : Side} {filled released : Quantity} {position : I128}
    {buys sells : U128} (h : exposureAfterFill account side filled released = .ok (position, buys, sells)) :
    released.val ≤ (account.reserved side).val ∧
      buys.val = account.reservedBuys.val - onSide side .buy released.val ∧
      sells.val = account.reservedSells.val - onSide side .sell released.val := by
  obtain ⟨position', _, h⟩ := except_bind_eq_ok.mp h
  obtain ⟨totals, htotals, h⟩ := except_bind_eq_ok.mp h
  have heq := (Prod.ext_iff.mp (Except.ok.inj h)).2
  obtain ⟨rfl, rfl⟩ := Prod.ext_iff.mp heq
  exact subReserved_eq_ok htotals

theorem Balanced.exists_account (h : state.Balanced) (hr : r ∈ state.reservations)
    (hlookup : state.account? r.accountId = some account) :
    account ∈ state.accounts ∧ account.id = r.accountId ∧ (1 : U32).val ≤ account.openOrders.val := by
  obtain ⟨hmem, hid⟩ := h.ordered.account?_eq_some.mp hlookup
  obtain ⟨xs, ys, hsplit, _⟩ := h.ordered.split hr
  refine ⟨hmem, hid, ?_⟩
  rw [(h.account account hmem).openOrders, hsplit, hid, openCount_append, openCount_cons, if_pos rfl]
  exact (Nat.le_add_left 1 _).trans (Nat.le_add_left _ _)

theorem Balanced.quantity_le (h : state.Balanced) (hr : r ∈ state.reservations)
    (hlookup : state.account? r.accountId = some account) :
    r.quantity.val ≤ (account.reserved r.side).val := by
  obtain ⟨hmem, hid⟩ := h.ordered.account?_eq_some.mp hlookup
  obtain ⟨xs, ys, hsplit, _⟩ := h.ordered.split hr
  rw [(h.account account hmem).reserved, hsplit, hid, reservedTotal_append, reservedTotal_cons,
    exposureOf_self, if_pos rfl]
  omega

theorem Balanced.empty : RiskEngineState.empty.Balanced := Consistent.empty.balanced

theorem Balanced.setKillSwitch (h : state.Balanced) (killed : Bool) :
    RiskEngineState.Balanced { state with killed := killed } :=
  ⟨⟨h.ordered.accounts, h.ordered.reservations, h.ordered.watermark⟩, h.registered, h.account⟩

theorem Balanced.setAccountKillSwitch (h : state.Balanced) {accountId : AccountId} {killed : Bool}
    (hok : state.setAccountKillSwitch accountId killed = .ok ((), state')) : state'.Balanced := by
  obtain ⟨account, hmem, rfl⟩ := h.ordered.setAccountKillSwitch_eq_ok hok
  exact h.putKilled hmem killed

theorem Balanced.registerAccount (h : state.Balanced) {ACCOUNTS : ℕ} {id : AccountId}
    {limits : RiskLimits} (hok : state.registerAccount ACCOUNTS id limits = .ok ((), state')) :
    state'.Balanced := by
  obtain ⟨_, hnew, rfl⟩ := registerAccount_eq_ok hok
  exact h.insertAccount limits hnew

theorem Balanced.checkAndReserve (h : state.Balanced) {ORDERS : ℕ} {order : NewOrder}
    (hok : state.checkAndReserve ORDERS order = .ok ((), state')) : state'.Balanced := by
  obtain ⟨account, buys, sells, openOrders, hmem, hid, hlimits, _, hfresh, rfl⟩ :=
    h.ordered.checkAndReserve_eq_ok hok
  exact h.addReservation hmem hid hlimits hfresh

/-! ## Fills and settlements -/

/-- A reservation leaves with its whole share of the totals. -/
theorem Balanced.settleReservation (h : state.Balanced) (hr : r ∈ state.reservations)
    {filled : Quantity} (hok : state.settleReservation r filled = .ok ((), state')) :
    state'.Balanced := by
  unfold RiskEngineState.settleReservation at hok
  split at hok
  · simp at hok
  next account hlookup =>
  obtain ⟨hmem, hid, hone⟩ := h.exists_account hr hlookup
  split at hok
  · simp at hok
  next position buys sells hexposure =>
  obtain ⟨hreleased, hbuys, hsells⟩ := exposureAfterFill_eq_ok hexposure
  rw [Unsigned.checkedSub_of_le hone] at hok
  obtain ⟨-, rfl⟩ := Prod.ext_iff.mp (Except.ok.inj hok)
  obtain ⟨xs, ys, hsplit, hdrop, _⟩ := h.ordered.split hr
  refine h.exchange hmem hid (account.withTotals position buys sells (Unsigned.monus account.openOrders 1))
    rfl rfl ((h.ordered.putAccount _).dropReservation _) hsplit
    (by simp : ∀ r' ∈ ([] : List ReservationRiskState), r'.accountId = r.accountId) hdrop ?_ ?_ ?_
  · intro side
    rw [exposureOf_self, reservedTotal_nil]
    exact released_reserved (fun side' ↦ by cases side' <;> rfl) hreleased hbuys hsells
  · show account.openOrders.val - 1 + 1 = _
    exact Nat.sub_add_cancel hone
  · exact (Nat.sub_le _ _).trans (h.account account hmem).openOrders_le

theorem Balanced.settle (h : state.Balanced) {orderId : OrderId} {filled : Quantity}
    (hok : state.settle orderId filled = .ok ((), state')) : state'.Balanced := by
  unfold RiskEngineState.settle at hok
  split at hok
  · simp at hok
  next r hlookup =>
  split at hok
  · simp at hok
  exact h.settleReservation (h.ordered.reservation?_eq_some.mp hlookup).1 hok

theorem Balanced.cancelReservation (h : state.Balanced) {orderId : OrderId} {accountId : AccountId}
    {quantity : Quantity} (hok : state.cancelReservation orderId accountId = .ok (quantity, state')) :
    state'.Balanced := by
  unfold RiskEngineState.cancelReservation at hok
  split at hok
  · simp at hok
  next r hlookup =>
  split at hok
  · simp at hok
  split at hok
  · simp at hok
  next state'' hsettle =>
  obtain ⟨-, rfl⟩ := Prod.ext_iff.mp (Except.ok.inj hok)
  exact h.settleReservation (h.ordered.reservation?_eq_some.mp hlookup).1 hsettle

/-- A fill takes the same quantity from the reservation and from the total. -/
theorem Balanced.recordFill (h : state.Balanced) {orderId : OrderId} {filled : Quantity}
    (hok : state.recordFill orderId filled = .ok ((), state')) : state'.Balanced := by
  unfold RiskEngineState.recordFill at hok
  split at hok
  · simp at hok
  split at hok
  · simp at hok
  next r hreservation =>
  obtain ⟨hr, rfl⟩ := h.ordered.reservation?_eq_some.mp hreservation
  split at hok
  · simp at hok
  next quantity hquantity =>
  rw [Unsigned.checkedSub_eq_some] at hquantity
  split at hok
  · simp at hok
  next account hlookup =>
  obtain ⟨hmem, hid, hone⟩ := h.exists_account hr hlookup
  split at hok
  · simp at hok
  next position buys sells hexposure =>
  obtain ⟨hreleased, hbuys, hsells⟩ := exposureAfterFill_eq_ok hexposure
  have hreserved (openOrders : U32) (side : Side) :
      ((account.withTotals position buys sells openOrders).reserved side).val +
        onSide r.side side filled.val = (account.reserved side).val :=
    released_reserved (fun side' ↦ by cases side' <;> rfl) hreleased hbuys hsells
  obtain ⟨xs, ys, hsplit, hdrop, hput⟩ := h.ordered.split hr
  have hopen_le := (h.account account hmem).openOrders_le
  by_cases hzero : quantity.val = 0
  · simp only [hzero, if_true, Unsigned.checkedSub_of_le hone] at hok
    obtain ⟨-, rfl⟩ := Prod.ext_iff.mp (Except.ok.inj hok)
    have hall : r.quantity.val = filled.val := by omega
    refine h.exchange hmem hid
      (account.withTotals position buys sells (Unsigned.monus account.openOrders 1)) rfl rfl
      ((h.ordered.putAccount _).dropReservation _) hsplit
      (by simp : ∀ r' ∈ ([] : List ReservationRiskState), r'.accountId = r.accountId) hdrop ?_ ?_ ?_
    · intro side
      rw [exposureOf_self, reservedTotal_nil, hall]
      exact hreserved _ side
    · show account.openOrders.val - 1 + 1 = _
      exact Nat.sub_add_cancel hone
    · exact (Nat.sub_le _ _).trans hopen_le
  · simp only [hzero, if_false] at hok
    obtain ⟨-, rfl⟩ := Prod.ext_iff.mp (Except.ok.inj hok)
    have hrest : ∀ r' ∈ [{ r with quantity := quantity }], r'.accountId = r.accountId := by simp
    refine h.exchange hmem hid (account.withTotals position buys sells account.openOrders) rfl rfl
      ((h.ordered.putAccount _).putReservation _) hsplit hrest
        (hput { r with quantity := quantity } rfl) ?_ rfl hopen_le
    intro side
    have hside := hreserved account.openOrders side
    simp only [exposureOf, true_and, reservedTotal_cons, reservedTotal_nil, Nat.add_zero, onSide]
      at hside ⊢
    by_cases hsame : r.side = side
    · simp only [hsame, if_true] at hside ⊢
      omega
    · simp only [hsame, if_false] at hside ⊢
      omega

/-! ## Amendments -/

/-- A reservation of any quantity, with totals that follow it. -/
theorem Balanced.amend {quantity : Quantity} {totals : U128 × U128} (h : state.Balanced)
    (hr : r ∈ state.reservations) (hmem : account ∈ state.accounts) (hid : account.id = r.accountId)
    (hfollows : Follows account r quantity.val totals) :
    (state.amend account totals r quantity).Balanced := by
  obtain ⟨xs, ys, hsplit, _, hput⟩ := h.ordered.split hr
  have hrest : ∀ r' ∈ [{ r with quantity := quantity }], r'.accountId = r.accountId := by simp
  exact h.exchange hmem hid
    (account.withTotals account.settledPosition totals.1 totals.2 account.openOrders) rfl rfl
    ((h.ordered.putAccount _).putReservation _) hsplit hrest (hput { r with quantity := quantity } rfl)
      hfollows.reserved rfl (h.account account hmem).openOrders_le

theorem Balanced.follows_subReserved (h : state.Balanced) (hr : r ∈ state.reservations)
    (hlookup : state.account? r.accountId = some account) {quantity : Quantity} {totals : U128 × U128}
    (hle : quantity.val ≤ r.quantity.val)
    (hok : subReserved account r.side (Unsigned.monus r.quantity quantity) = .ok totals) :
    Follows account r quantity.val totals := by
  obtain ⟨_, hbuys, hsells⟩ := subReserved_eq_ok hok
  exact Follows.subtracted hle (h.quantity_le hr hlookup) hbuys hsells

theorem Balanced.adjustReservation (h : state.Balanced) {orderId : OrderId} {accountId : AccountId}
    {price : PriceTicks} {newQuantity : Quantity} {amounts : Quantity × Quantity}
    (hok : state.adjustReservation orderId accountId price newQuantity = .ok (amounts, state')) :
    state'.Balanced := by
  unfold RiskEngineState.adjustReservation at hok
  split at hok
  · simp at hok
  next r hreservation =>
  obtain ⟨hr, rfl⟩ := h.ordered.reservation?_eq_some.mp hreservation
  split at hok
  · simp at hok
  next howner =>
  obtain rfl := not_not.mp howner
  split at hok
  · obtain ⟨-, rfl⟩ := Prod.ext_iff.mp (Except.ok.inj hok)
    exact h
  split at hok
  · simp at hok
  next account hlookup =>
  obtain ⟨hmem, hid, _⟩ := h.exists_account hr hlookup
  split at hok
  · next hlt =>
    split at hok
    · simp at hok
    next totals hincrease =>
    obtain ⟨hbuys, hsells, _⟩ := evaluateIncrease_ok hincrease
    obtain ⟨-, rfl⟩ := Prod.ext_iff.mp (Except.ok.inj hok)
    exact h.amend hr hmem hid (Follows.added hlt hbuys hsells)
  · next hge =>
    split at hok
    · simp at hok
    next totals htotals =>
    obtain ⟨-, rfl⟩ := Prod.ext_iff.mp (Except.ok.inj hok)
    exact h.amend hr hmem hid (h.follows_subReserved hr hlookup (Nat.not_lt.mp hge) htotals)

theorem Balanced.restoreReservation (h : state.Balanced) {orderId : OrderId} {accountId : AccountId}
    {priorQuantity : Quantity}
    (hok : state.restoreReservation orderId accountId priorQuantity = .ok ((), state')) :
    state'.Balanced := by
  unfold RiskEngineState.restoreReservation at hok
  split at hok
  · simp at hok
  next r hreservation =>
  obtain ⟨hr, rfl⟩ := h.ordered.reservation?_eq_some.mp hreservation
  split at hok
  · simp at hok
  next howner =>
  obtain rfl := not_not.mp howner
  split at hok
  · obtain ⟨-, rfl⟩ := Prod.ext_iff.mp (Except.ok.inj hok)
    exact h
  split at hok
  · simp at hok
  next account hlookup =>
  obtain ⟨hmem, hid, _⟩ := h.exists_account hr hlookup
  split at hok
  · simp at hok
  next totals htotals =>
  obtain ⟨-, rfl⟩ := Prod.ext_iff.mp (Except.ok.inj hok)
  refine h.amend hr hmem hid ?_
  unfold restoredTotals at htotals
  split at htotals
  · next hlt =>
    obtain ⟨hbuys, hsells⟩ := addReserved_ok htotals
    exact Follows.added hlt hbuys hsells
  · next hge => exact h.follows_subReserved hr hlookup (Nat.not_lt.mp hge) htotals

end DeterministicExchange.Risk.RiskEngineState
