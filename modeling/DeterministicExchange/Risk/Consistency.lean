import DeterministicExchange.Risk.Logical

/-!
# Consistent risk states

A risk state is consistent when the totals of every account are those of its
reservations and the worst positions stay within its limit. In a consistent
state no arithmetic check of a fill, a settlement or a release can fail, and
every operation leads to a consistent state again.
-/

namespace DeterministicExchange.Risk

open Machine

/-! ## Totals -/

/-- What a reservation contributes to a total of an account. -/
def exposureOf (side : Side) (id : AccountId) (r : ReservationRiskState) : ℕ :=
  if r.accountId = id ∧ r.side = side then r.quantity.val else 0

def reservedTotal (side : Side) (id : AccountId) (reservations : List ReservationRiskState) : ℕ :=
  (reservations.map (exposureOf side id)).sum

def openCount (id : AccountId) (reservations : List ReservationRiskState) : ℕ :=
  reservations.countP fun r ↦ r.accountId = id

/-- The reserved total of one side, as the account keeps it. -/
def AccountRiskState.reserved (account : AccountRiskState) : Side → U128
  | .buy => account.reservedBuys
  | .sell => account.reservedSells

/-- The totals of an account are those of its reservations, within its limits. -/
structure AccountConsistent (reservations : List ReservationRiskState) (account : AccountRiskState) :
    Prop where
  reserved : ∀ side, (account.reserved side).val = reservedTotal side account.id reservations
  openOrders : account.openOrders.val = openCount account.id reservations
  openOrders_le : account.openOrders.val ≤ account.limits.maxOpenOrders.val
  long : account.settledPosition.val + account.reservedBuys.val ≤ account.limits.maxAbsPosition.val
  short : -account.limits.maxAbsPosition.val ≤ account.settledPosition.val - account.reservedSells.val

/-- A consistent risk state; `positive` is not part of it, since a rejected amendment passes
through an empty reservation. -/
structure RiskEngineState.Consistent (state : RiskEngineState) : Prop where
  ordered : state.Ordered
  limits : ∀ account ∈ state.accounts, account.limits.invalid = false
  registered : ∀ r ∈ state.reservations, ∃ account ∈ state.accounts, account.id = r.accountId
  account : ∀ account ∈ state.accounts, AccountConsistent state.reservations account

/-- The totals of an account are those of its reservations. -/
structure AccountBalanced (reservations : List ReservationRiskState) (account : AccountRiskState) :
    Prop where
  reserved : ∀ side, (account.reserved side).val = reservedTotal side account.id reservations
  openOrders : account.openOrders.val = openCount account.id reservations
  openOrders_le : account.openOrders.val ≤ account.limits.maxOpenOrders.val

/-- A risk state whose totals are those of its reservations, whatever its positions. -/
structure RiskEngineState.Balanced (state : RiskEngineState) : Prop where
  ordered : state.Ordered
  registered : ∀ r ∈ state.reservations, ∃ account ∈ state.accounts, account.id = r.accountId
  account : ∀ account ∈ state.accounts, AccountBalanced state.reservations account

theorem AccountConsistent.balanced {reservations : List ReservationRiskState} {account : AccountRiskState}
    (h : AccountConsistent reservations account) : AccountBalanced reservations account :=
  ⟨h.reserved, h.openOrders, h.openOrders_le⟩

theorem RiskEngineState.Consistent.balanced {state : RiskEngineState} (h : state.Consistent) :
    state.Balanced := ⟨h.ordered, h.registered, fun account hmem ↦ (h.account account hmem).balanced⟩

@[simp] theorem reservedTotal_append (side : Side) (id : AccountId) (xs ys : List ReservationRiskState) :
    reservedTotal side id (xs ++ ys) = reservedTotal side id xs + reservedTotal side id ys := by
  simp [reservedTotal]

@[simp] theorem reservedTotal_cons (side : Side) (id : AccountId) (r : ReservationRiskState)
    (rs : List ReservationRiskState) :
    reservedTotal side id (r :: rs) = exposureOf side id r + reservedTotal side id rs := by
  simp [reservedTotal]

@[simp] theorem reservedTotal_nil (side : Side) (id : AccountId) : reservedTotal side id [] = 0 := rfl

@[simp] theorem openCount_append (id : AccountId) (xs ys : List ReservationRiskState) :
    openCount id (xs ++ ys) = openCount id xs + openCount id ys := List.countP_append

@[simp] theorem openCount_cons (id : AccountId) (r : ReservationRiskState)
    (rs : List ReservationRiskState) :
    openCount id (r :: rs) = openCount id rs + if r.accountId = id then 1 else 0 := by
  simp [openCount, List.countP_cons]

@[simp] theorem openCount_nil (id : AccountId) : openCount id [] = 0 := rfl

theorem exposureOf_self (r : ReservationRiskState) (side : Side) :
    exposureOf side r.accountId r = if r.side = side then r.quantity.val else 0 := by
  simp [exposureOf]

theorem exposureOf_of_ne {r : ReservationRiskState} {id : AccountId} (h : r.accountId ≠ id)
    (side : Side) : exposureOf side id r = 0 := by
  simp [exposureOf, h]

/-! ## Splitting at a reservation -/

namespace RiskEngineState

variable {state : RiskEngineState}

/-- The reservations around one of them, and what the updates make of it. -/
theorem Ordered.split (h : state.Ordered) {r : ReservationRiskState} (hr : r ∈ state.reservations) :
    ∃ xs ys, state.reservations = xs ++ r :: ys ∧
      (state.dropReservation r.orderId).reservations = xs ++ ys ∧
      ∀ r' : ReservationRiskState, r'.orderId = r.orderId →
        (state.putReservation r').reservations = xs ++ r' :: ys := by
  obtain ⟨xs, ys, hsplit⟩ := List.append_of_mem hr
  have hnodup := h.orderIds_nodup
  rw [hsplit, List.map_append, List.map_cons] at hnodup
  have hout := (List.nodup_cons.mp (List.nodup_middle.mp hnodup)).1
  rw [← List.map_append] at hout
  have hne : ∀ x ∈ xs ++ ys, x.orderId ≠ r.orderId := fun x hx heq ↦
    hout (List.mem_map.mpr ⟨x, hx, heq⟩)
  refine ⟨xs, ys, hsplit, ?_, ?_⟩
  · show state.reservations.filter _ = _
    rw [hsplit, List.filter_append, List.filter_cons_of_neg (by simp),
      List.filter_eq_self.mpr fun x hx ↦ by simpa using hne x (List.mem_append_left _ hx),
      List.filter_eq_self.mpr fun x hx ↦ by simpa using hne x (List.mem_append_right _ hx)]
  · intro r' hid
    have hkeep (zs : List ReservationRiskState) (hzs : ∀ x ∈ zs, x.orderId ≠ r.orderId) :
        zs.map (fun x ↦ if x.orderId = r'.orderId then r' else x) = zs := by
      conv_rhs => rw [← List.map_id zs]
      apply List.map_congr_left
      intro x hx
      exact if_neg fun heq ↦ hzs x hx (heq.trans hid)
    show state.reservations.map _ = _
    rw [hsplit, List.map_append, List.map_cons, if_pos hid.symm,
      hkeep xs fun x hx ↦ hne x (List.mem_append_left _ hx),
      hkeep ys fun x hx ↦ hne x (List.mem_append_right _ hx)]

theorem mem_putAccount {account account' b : AccountRiskState}
    (hmem : account ∈ state.accounts) (hid : account'.id = account.id) :
    b ∈ (state.putAccount account').accounts ↔
      b = account' ∨ b ∈ state.accounts ∧ b.id ≠ account.id := by
  show b ∈ state.accounts.map _ ↔ _
  rw [List.mem_map]
  constructor
  · rintro ⟨a, ha, rfl⟩
    split
    · exact .inl rfl
    · next hne => exact .inr ⟨ha, fun heq ↦ hne (heq.trans hid.symm)⟩
  · rintro (rfl | ⟨hb, hne⟩)
    · exact ⟨account, hmem, if_pos hid.symm⟩
    · exact ⟨b, hb, if_neg fun heq ↦ hne (heq.trans hid)⟩

/-- Replacing an account and changing reservations of that account only. -/
theorem Balanced.update {state' : RiskEngineState} {account account' : AccountRiskState}
    (h : state.Balanced) (hmem : account ∈ state.accounts) (hid : account'.id = account.id)
    (haccounts : state'.accounts = (state.putAccount account').accounts) (hordered : state'.Ordered)
    (hregistered : ∀ r ∈ state'.reservations, r ∈ state.reservations ∨ r.accountId = account.id)
    (hsame : ∀ id, id ≠ account.id → (∀ side, reservedTotal side id state'.reservations =
      reservedTotal side id state.reservations) ∧
      openCount id state'.reservations = openCount id state.reservations)
    (haccount : AccountBalanced state'.reservations account') : state'.Balanced := by
  refine ⟨hordered, ?_, ?_⟩
  · intro r hr
    rcases hregistered r hr with hr | heq
    · obtain ⟨a, ha, haid⟩ := h.registered r hr
      by_cases hne : a.id = account.id
      · refine ⟨account', ?_, by rw [hid, ← hne, haid]⟩
        rw [haccounts, mem_putAccount hmem hid]
        exact .inl rfl
      · refine ⟨a, ?_, haid⟩
        rw [haccounts, mem_putAccount hmem hid]
        exact .inr ⟨ha, hne⟩
    · refine ⟨account', ?_, by rw [hid, heq]⟩
      rw [haccounts, mem_putAccount hmem hid]
      exact .inl rfl
  · intro b hb
    rw [haccounts, mem_putAccount hmem hid] at hb
    rcases hb with rfl | ⟨hb, hne⟩
    · exact haccount
    · have hb' := h.account b hb
      obtain ⟨hreserved, hopen⟩ := hsame b.id hne
      exact ⟨fun side ↦ by rw [hb'.reserved, hreserved], by rw [hb'.openOrders, hopen], hb'.openOrders_le⟩

/-- A balanced state in which one account of a consistent state has other totals. -/
theorem Consistent.update {state' : RiskEngineState} {account account' : AccountRiskState}
    (h : state.Consistent) (hmem : account ∈ state.accounts) (hid : account'.id = account.id)
    (hlimits : account'.limits = account.limits)
    (haccounts : state'.accounts = (state.putAccount account').accounts) (hbalanced : state'.Balanced)
    (hlong : account'.settledPosition.val + account'.reservedBuys.val ≤
      account.limits.maxAbsPosition.val)
    (hshort : -account.limits.maxAbsPosition.val ≤
      account'.settledPosition.val - account'.reservedSells.val) : state'.Consistent := by
  refine ⟨hbalanced.ordered, ?_, hbalanced.registered, ?_⟩
  · intro b hb
    rw [haccounts, mem_putAccount hmem hid] at hb
    rcases hb with rfl | ⟨hb, _⟩
    · rw [hlimits]
      exact h.limits account hmem
    · exact h.limits b hb
  · intro b hb
    obtain ⟨hreserved, hopen, hopen_le⟩ := hbalanced.account b hb
    rw [haccounts, mem_putAccount hmem hid] at hb
    rcases hb with rfl | ⟨hb, _⟩
    · rw [← hlimits] at hlong hshort
      exact ⟨hreserved, hopen, hopen_le, hlong, hshort⟩
    · have hprior := h.account b hb
      exact ⟨hreserved, hopen, hopen_le, hprior.long, hprior.short⟩

end RiskEngineState

/-! ## Arithmetic of one account -/

/-- The part of a quantity that counts on `side`. -/
def onSide (side side' : Side) (quantity : ℕ) : ℕ := if side = side' then quantity else 0

/-- The change of the settled position by a fill. -/
def positionChange (side : Side) (filled : ℕ) : ℤ :=
  match side with
  | .buy => filled
  | .sell => -filled

@[simp] theorem positionChange_zero (side : Side) : positionChange side 0 = 0 := by
  cases side <;> simp [positionChange]

section Arithmetic

variable {account : AccountRiskState} {side : Side}

@[simp] theorem exposure_val (quantity : Quantity) : (exposure quantity).val = quantity.val := rfl

@[simp] theorem signed_val (quantity : Quantity) : (signed quantity).val = quantity.val := rfl

theorem addReserved_ok {added : Quantity} {totals : U128 × U128}
    (h : addReserved account side added = .ok totals) :
    totals.1.val = account.reservedBuys.val + onSide side .buy added.val ∧
      totals.2.val = account.reservedSells.val + onSide side .sell added.val := by
  unfold addReserved at h
  cases side with
  | buy =>
    obtain ⟨buys, hbuys, heq⟩ := except_bind_eq_ok.mp h
    rw [okOr_eq_ok, Unsigned.checkedAdd_eq_some] at hbuys
    obtain rfl := Except.ok.inj heq
    simp only [onSide, if_true, reduceCtorEq, if_false, Nat.add_zero, and_true]
    exact hbuys.symm
  | sell =>
    obtain ⟨sells, hsells, heq⟩ := except_bind_eq_ok.mp h
    rw [okOr_eq_ok, Unsigned.checkedAdd_eq_some] at hsells
    obtain rfl := Except.ok.inj heq
    simp only [onSide, if_true, reduceCtorEq, if_false, Nat.add_zero, true_and]
    exact hsells.symm

theorem subReserved_ok {released : Quantity} (hle : released.val ≤ (account.reserved side).val) :
    ∃ totals, subReserved account side released = .ok totals ∧
      totals.1.val = account.reservedBuys.val - onSide side .buy released.val ∧
      totals.2.val = account.reservedSells.val - onSide side .sell released.val := by
  unfold subReserved
  cases side with
  | buy =>
    have hle' : (exposure released).val ≤ account.reservedBuys.val := hle
    rw [Unsigned.checkedSub_of_le hle']
    exact ⟨_, rfl, rfl, rfl⟩
  | sell =>
    have hle' : (exposure released).val ≤ account.reservedSells.val := hle
    rw [Unsigned.checkedSub_of_le hle']
    exact ⟨_, rfl, rfl, rfl⟩

/-- What a released quantity leaves of the totals. -/
theorem subReserved_eq_ok {released : Quantity} {totals : U128 × U128}
    (h : subReserved account side released = .ok totals) :
    released.val ≤ (account.reserved side).val ∧
      totals.1.val = account.reservedBuys.val - onSide side .buy released.val ∧
      totals.2.val = account.reservedSells.val - onSide side .sell released.val := by
  have hle : released.val ≤ (account.reserved side).val := by
    unfold subReserved at h
    cases side with
    | buy =>
      obtain ⟨buys, hbuys, _⟩ := except_bind_eq_ok.mp h
      rw [okOr_eq_ok, Unsigned.checkedSub_eq_some, exposure_val] at hbuys
      show released.val ≤ account.reservedBuys.val
      omega
    | sell =>
      obtain ⟨sells, hsells, _⟩ := except_bind_eq_ok.mp h
      rw [okOr_eq_ok, Unsigned.checkedSub_eq_some, exposure_val] at hsells
      show released.val ≤ account.reservedSells.val
      omega
  obtain ⟨totals', htotals, hbuys, hsells⟩ := subReserved_ok hle
  rw [h] at htotals
  obtain rfl := Except.ok.inj htotals
  exact ⟨hle, hbuys, hsells⟩

theorem ofUnsigned?_eq_some {a : U128} {b : I128} :
    Signed.ofUnsigned? 128 a = some b ↔ (a.val : ℤ) = b.val := Signed.ofInt?_eq_some

/-- What a passed position check establishes. -/
theorem checkPosition_ok {buys sells : U128} (h : checkPosition account buys sells = .ok ()) :
    account.settledPosition.val + buys.val ≤ account.limits.maxAbsPosition.val ∧
      -(account.limits.maxAbsPosition.val : ℤ) ≤ account.settledPosition.val - sells.val := by
  unfold checkPosition at h
  obtain ⟨b, hb, h⟩ := except_bind_eq_ok.mp h
  obtain ⟨long, hlong, h⟩ := except_bind_eq_ok.mp h
  obtain ⟨s, hs, h⟩ := except_bind_eq_ok.mp h
  obtain ⟨short, hshort, h⟩ := except_bind_eq_ok.mp h
  rw [okOr_eq_ok, ofUnsigned?_eq_some] at hb hs
  have hlong' : account.settledPosition.val + b.val = long.val :=
    Signed.ofInt?_eq_some.mp (okOr_eq_ok.mp hlong)
  have hshort' : account.settledPosition.val - s.val = short.val :=
    Signed.ofInt?_eq_some.mp (okOr_eq_ok.mp hshort)
  split at h
  · simp at h
  · next hbounds =>
    rw [signed_val] at hbounds
    push Not at hbounds
    omega

/-- The totals of an account before a fill leave room for it. -/
theorem exposureAfterFill_ok (hlong : account.settledPosition.val + account.reservedBuys.val ≤
      account.limits.maxAbsPosition.val)
    (hshort : -(account.limits.maxAbsPosition.val : ℤ) ≤
      account.settledPosition.val - account.reservedSells.val)
    {filled released : Quantity} (hfilled : filled.val ≤ released.val)
    (hreleased : released.val ≤ (account.reserved side).val) :
    ∃ position buys sells, exposureAfterFill account side filled released = .ok (position, buys, sells) ∧
      position.val = account.settledPosition.val + positionChange side filled.val ∧
      buys.val = account.reservedBuys.val - onSide side .buy released.val ∧
      sells.val = account.reservedSells.val - onSide side .sell released.val := by
  obtain ⟨totals, htotals, hbuys, hsells⟩ := subReserved_ok hreleased
  have hmax := account.limits.maxAbsPosition.isLt
  have hrange : -2 ^ (128 - 1) ≤ account.settledPosition.val + positionChange side filled.val ∧
      account.settledPosition.val + positionChange side filled.val < 2 ^ (128 - 1) := by
    cases side with
    | buy =>
      have hle : released.val ≤ account.reservedBuys.val := hreleased
      simp only [positionChange]
      constructor <;> norm_num <;> omega
    | sell =>
      have hle : released.val ≤ account.reservedSells.val := hreleased
      simp only [positionChange]
      constructor <;> norm_num <;> omega
  refine ⟨⟨_, hrange⟩, totals.1, totals.2, ?_, rfl, hbuys, hsells⟩
  cases side with
  | buy =>
    have hposition : Signed.checkedAdd account.settledPosition (signed filled) = some ⟨_, hrange⟩ :=
      Signed.ofInt?_of_mem hrange
    simp only [exposureAfterFill, hposition, htotals]
    rfl
  | sell =>
    have heq : account.settledPosition.val - (signed filled).val =
        account.settledPosition.val + positionChange .sell filled.val := by
      simp [positionChange, sub_eq_add_neg]
    have hposition : Signed.checkedSub account.settledPosition (signed filled) = some ⟨_, hrange⟩ := by
      show Signed.ofInt? 128 (account.settledPosition.val - (signed filled).val) = _
      rw [Signed.ofInt?_eq_some, heq]
    simp only [exposureAfterFill, hposition, htotals]
    rfl

end Arithmetic

end DeterministicExchange.Risk
