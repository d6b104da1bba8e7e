import DeterministicExchange.Risk.Preservation
import DeterministicExchange.Risk.Registration
import DeterministicExchange.Risk.State

/-!
# Exporting and restoring risk engines

A represented engine exports its logical state. A state passes validation exactly
when it is restorable, and the rebuilt engine then represents it. Neither
direction faults, for any state.
-/

namespace DeterministicExchange.Risk

open Machine ProbeTable

/-- What a state must satisfy to be restored. -/
structure RiskEngineState.Restorable (ACCOUNTS ORDERS : ℕ) (state : RiskEngineState) : Prop where
  consistent : state.Consistent
  positive : ∀ r ∈ state.reservations, 0 < r.quantity.val
  accounts_le : state.accounts.length ≤ ACCOUNTS
  reservations_le : state.reservations.length ≤ ORDERS

/-! ## Validation -/

theorem checkCanonical_eq_ok {α β : Type} [LinearOrder β] {key : α → β} {duplicate : RiskStateError}
    {l : List α} : checkCanonical key duplicate l = .ok () ↔ l.Pairwise fun a b ↦ key a < key b := by
  induction l with
  | nil => simp [checkCanonical]
  | cons first l ih =>
    cases l with
    | nil => simp [checkCanonical]
    | cons second rest =>
      rw [checkCanonical]
      by_cases heq : key first = key second
      · rw [if_pos heq]
        simp only [reduceCtorEq, false_iff]
        intro hpairwise
        exact ((List.pairwise_cons.mp hpairwise).1 second List.mem_cons_self).ne heq
      rw [if_neg heq]
      by_cases hgt : key second < key first
      · rw [if_pos hgt]
        simp only [reduceCtorEq, false_iff]
        intro hpairwise
        exact ((List.pairwise_cons.mp hpairwise).1 second List.mem_cons_self).asymm hgt
      rw [if_neg hgt, ih, List.pairwise_cons (a := first)]
      have hlt : key first < key second := lt_of_le_of_ne (not_lt.mp hgt) heq
      constructor
      · intro hpairwise
        refine ⟨?_, hpairwise⟩
        intro a ha
        rcases List.mem_cons.mp ha with rfl | ha
        · exact hlt
        · exact hlt.trans ((List.pairwise_cons.mp hpairwise).1 a ha)
      · exact And.right

/-- The sums succeed exactly when the totals fit, and are the totals. -/
theorem sumReservations_eq_ok {id : AccountId} {reservations : List ReservationRiskState}
    {totals totals' : U128 × U128 × U32} :
    sumReservations id reservations totals = .ok totals' ↔
      totals'.1.val = totals.1.val + reservedTotal .buy id reservations ∧
      totals'.2.1.val = totals.2.1.val + reservedTotal .sell id reservations ∧
      totals'.2.2.val = totals.2.2.val + openCount id reservations := by
  induction reservations generalizing totals with
  | nil =>
    simp only [sumReservations, Except.ok.injEq, reservedTotal_nil, openCount_nil, Nat.add_zero,
      Prod.ext_iff, Fin.ext_iff]
    exact ⟨fun ⟨h1, h2, h3⟩ ↦ ⟨h1.symm, h2.symm, h3.symm⟩, fun ⟨h1, h2, h3⟩ ↦ ⟨h1.symm, h2.symm, h3.symm⟩⟩
  | cons r reservations ih =>
    obtain ⟨buys, sells, openOrders⟩ := totals
    rw [sumReservations]
    by_cases howner : r.accountId = id
    swap
    · rw [if_pos howner, ih]
      simp [exposureOf_of_ne howner, howner]
    rw [if_neg (not_not.mpr howner)]
    have hone : (1 : U32).val = 1 := rfl
    cases hside : r.side with
    | buy =>
      simp only [reservedTotal_cons, openCount_cons, exposureOf, howner, hside, if_true, reduceCtorEq,
        and_false, if_false, true_and, Nat.zero_add]
      constructor
      · intro h
        obtain ⟨pair, hpair, h⟩ := except_bind_eq_ok.mp h
        obtain ⟨buys', hbuys, hpair⟩ := except_bind_eq_ok.mp hpair
        obtain ⟨openOrders', hopen, h⟩ := except_bind_eq_ok.mp h
        obtain rfl := Except.ok.inj hpair
        rw [okOr_eq_ok, Unsigned.checkedAdd_eq_some] at hbuys hopen
        rw [exposure_val] at hbuys
        have hrest := ih.mp h
        simp only at hrest
        omega
      · rintro ⟨hbuys, hsells, hopen⟩
        have hbuysLt := totals'.1.isLt
        have hopenLt := totals'.2.2.isLt
        obtain ⟨buys', hadd, hval⟩ := Unsigned.checkedAdd_of_lt (a := buys) (b := exposure r.quantity)
          (by rw [exposure_val]; omega)
        obtain ⟨open', hadd', hval'⟩ := Unsigned.checkedAdd_of_lt (a := openOrders) (b := 1)
          (by rw [hone]; omega)
        rw [exposure_val] at hval
        simp only [hadd, hadd', okOr]
        refine ih.mpr ?_
        simp only
        omega
    | sell =>
      simp only [reservedTotal_cons, openCount_cons, exposureOf, howner, hside, if_true, reduceCtorEq,
        and_false, if_false, true_and, Nat.zero_add]
      constructor
      · intro h
        obtain ⟨pair, hpair, h⟩ := except_bind_eq_ok.mp h
        obtain ⟨sells', hsells, hpair⟩ := except_bind_eq_ok.mp hpair
        obtain ⟨openOrders', hopen, h⟩ := except_bind_eq_ok.mp h
        obtain rfl := Except.ok.inj hpair
        rw [okOr_eq_ok, Unsigned.checkedAdd_eq_some] at hsells hopen
        rw [exposure_val] at hsells
        have hrest := ih.mp h
        simp only at hrest
        omega
      · rintro ⟨hbuys, hsells, hopen⟩
        have hsellsLt := totals'.2.1.isLt
        have hopenLt := totals'.2.2.isLt
        obtain ⟨sells', hadd, hval⟩ := Unsigned.checkedAdd_of_lt (a := sells) (b := exposure r.quantity)
          (by rw [exposure_val]; omega)
        obtain ⟨open', hadd', hval'⟩ := Unsigned.checkedAdd_of_lt (a := openOrders) (b := 1)
          (by rw [hone]; omega)
        rw [exposure_val] at hval
        simp only [hadd, hadd', okOr]
        refine ih.mpr ?_
        simp only
        omega

theorem validateAccountState_eq_ok {account : AccountRiskState} {reservations : List ReservationRiskState} :
    validateAccountState account reservations = .ok () ↔ AccountConsistent reservations account := by
  have hmax := account.limits.maxAbsPosition.isLt
  constructor
  · intro h
    unfold validateAccountState at h
    obtain ⟨⟨buys, sells, openOrders⟩, hsum, h⟩ := except_bind_eq_ok.mp h
    obtain ⟨hbuys, hsells, hopen⟩ := sumReservations_eq_ok.mp hsum
    simp only at h
    split at h
    · simp at h
    next hexposure =>
    push Not at hexposure
    obtain ⟨rfl, rfl⟩ := hexposure
    split at h
    · simp at h
    next hcount =>
    push Not at hcount
    obtain ⟨rfl, hle⟩ := hcount
    obtain ⟨b, hb, h⟩ := except_bind_eq_ok.mp h
    obtain ⟨s, hs, h⟩ := except_bind_eq_ok.mp h
    obtain ⟨long, hlong, h⟩ := except_bind_eq_ok.mp h
    obtain ⟨short, hshort, h⟩ := except_bind_eq_ok.mp h
    rw [okOr_eq_ok, ofUnsigned?_eq_some] at hb hs
    have hlong' : account.settledPosition.val + b.val = long.val :=
      Signed.ofInt?_eq_some.mp (okOr_eq_ok.mp hlong)
    have hshort' : account.settledPosition.val - s.val = short.val :=
      Signed.ofInt?_eq_some.mp (okOr_eq_ok.mp hshort)
    split at h
    · simp at h
    next hbounds =>
    rw [signed_val] at hbounds
    push Not at hbounds
    simp only [Fin.val_zero, Nat.zero_add] at hbuys hsells hopen
    refine ⟨?_, hopen, hle, by omega, by omega⟩
    intro side
    cases side with
    | buy => exact hbuys
    | sell => exact hsells
  · intro h
    have hlong := h.long
    have hshort := h.short
    have hsum : sumReservations account.id reservations (0, 0, 0) =
        .ok (account.reservedBuys, account.reservedSells, account.openOrders) := by
      rw [sumReservations_eq_ok]
      simp only [Fin.val_zero, Nat.zero_add]
      exact ⟨h.reserved .buy, h.reserved .sell, h.openOrders⟩
    obtain ⟨b, hb⟩ : ∃ b : I128, (account.reservedBuys.val : ℤ) = b.val :=
      ⟨⟨account.reservedBuys.val, by norm_num; omega⟩, rfl⟩
    obtain ⟨s, hs⟩ : ∃ s : I128, (account.reservedSells.val : ℤ) = s.val :=
      ⟨⟨account.reservedSells.val, by norm_num; omega⟩, rfl⟩
    obtain ⟨long, hl⟩ : ∃ long : I128, account.settledPosition.val + b.val = long.val :=
      ⟨⟨account.settledPosition.val + b.val, by norm_num; omega⟩, rfl⟩
    obtain ⟨short, hsh⟩ : ∃ short : I128, account.settledPosition.val - s.val = short.val :=
      ⟨⟨account.settledPosition.val - s.val, by norm_num; omega⟩, rfl⟩
    have hle := h.openOrders_le
    refine except_bind_eq_ok.mpr ⟨_, hsum, ?_⟩
    simp only
    rw [if_neg (by simp), if_neg (by push Not; exact ⟨rfl, hle⟩)]
    refine except_bind_eq_ok.mpr ⟨b, okOr_eq_ok.mpr (ofUnsigned?_eq_some.mpr hb), ?_⟩
    refine except_bind_eq_ok.mpr ⟨s, okOr_eq_ok.mpr (ofUnsigned?_eq_some.mpr hs), ?_⟩
    refine except_bind_eq_ok.mpr ⟨long, okOr_eq_ok.mpr (Signed.ofInt?_eq_some.mpr hl), ?_⟩
    refine except_bind_eq_ok.mpr ⟨short, okOr_eq_ok.mpr (Signed.ofInt?_eq_some.mpr hsh), ?_⟩
    rw [if_neg]
    · rfl
    · rw [signed_val]
      push Not
      constructor <;> omega

theorem validateAccounts_eq_ok {reservations : List ReservationRiskState} {accounts : List AccountRiskState} :
    validateAccounts reservations accounts = .ok () ↔
      ∀ account ∈ accounts, AccountConsistent reservations account := by
  induction accounts with
  | nil => simp [validateAccounts]
  | cons account accounts ih =>
    rw [validateAccounts, except_bind_eq_ok, List.forall_mem_cons, ← ih, ← validateAccountState_eq_ok]
    constructor
    · rintro ⟨_, haccount, hrest⟩
      exact ⟨haccount, hrest⟩
    · rintro ⟨haccount, hrest⟩
      exact ⟨(), haccount, hrest⟩

/-- The last reservation stands for all of them in the watermark check. -/
theorem watermark_iff {reservations : List ReservationRiskState} {maximum : Option OrderId}
    (hsorted : reservations.Pairwise fun a b ↦ a.orderId < b.orderId) :
    ¬ (reservations.getLast?.any fun r ↦ maximum.all fun m ↦ m < r.orderId) = true ↔
      ∀ r ∈ reservations, ∃ m ∈ maximum, r.orderId ≤ m := by
  rcases List.eq_nil_or_concat reservations with rfl | ⟨init, last, rfl⟩
  · simp
  rw [List.concat_eq_append] at hsorted ⊢
  rw [List.getLast?_append, List.getLast?_singleton, Option.some_or, Option.any_some]
  have hle : ∀ r ∈ init ++ [last], r.orderId ≤ last.orderId := by
    intro r hr
    rcases List.mem_append.mp hr with hr | hr
    · exact ((List.pairwise_append.mp hsorted).2.2 r hr last (by simp)).le
    · rw [List.mem_singleton.mp hr]
  cases maximum with
  | none =>
    simp only [Option.all_none, not_true_eq_false, Option.mem_def, reduceCtorEq, false_and, exists_false,
      false_iff, not_forall]
    exact ⟨last, by simp, not_false⟩
  | some m =>
    simp only [Option.all_some, decide_eq_true_eq, not_lt, Option.mem_def, Option.some.injEq,
      exists_eq_left']
    constructor
    · intro hlast r hr
      exact (hle r hr).trans hlast
    · intro hall
      exact hall last (by simp)

/-- Validation accepts exactly the restorable states, and returns their records. -/
theorem validateState_eq_ok {ACCOUNTS ORDERS : ℕ} {state : RiskEngineState}
    {records : List AccountRiskState × List ReservationRiskState} :
    validateState ACCOUNTS ORDERS state = .ok records ↔
      state.Restorable ACCOUNTS ORDERS ∧ records = (state.accounts, state.reservations) := by
  unfold validateState
  constructor
  · intro h
    split at h
    · simp at h
    next haccounts =>
    split at h
    · simp at h
    next hreservations =>
    obtain ⟨_, hcanonical, h⟩ := except_bind_eq_ok.mp h
    split at h
    · simp at h
    next hlimits =>
    obtain ⟨_, hcanonical', h⟩ := except_bind_eq_ok.mp h
    split at h
    · simp at h
    next hquantity =>
    split at h
    · simp at h
    next hwatermark =>
    split at h
    · simp at h
    next hunknown =>
    obtain ⟨_, hvalid, h⟩ := except_bind_eq_ok.mp h
    rw [checkCanonical_eq_ok] at hcanonical hcanonical'
    refine ⟨⟨⟨⟨hcanonical, hcanonical', (watermark_iff hcanonical').mp hwatermark⟩, ?_, ?_,
      validateAccounts_eq_ok.mp hvalid⟩, ?_, Nat.not_lt.mp haccounts, Nat.not_lt.mp hreservations⟩,
        (Except.ok.inj h).symm⟩
    · simpa using hlimits
    · simpa using hunknown
    · intro r hr
      have := hquantity
      simp only [List.any_eq_true, decide_eq_true_eq, not_exists, not_and] at this
      exact Nat.pos_of_ne_zero (this r hr)
  · rintro ⟨h, rfl⟩
    have hconsistent := h.consistent
    rw [if_neg (Nat.not_lt.mpr h.accounts_le), if_neg (Nat.not_lt.mpr h.reservations_le)]
    refine except_bind_eq_ok.mpr ⟨(), checkCanonical_eq_ok.mpr hconsistent.ordered.accounts, ?_⟩
    rw [if_neg (by simpa using hconsistent.limits)]
    refine except_bind_eq_ok.mpr ⟨(), checkCanonical_eq_ok.mpr hconsistent.ordered.reservations, ?_⟩
    rw [if_neg, if_neg, if_neg (by simpa using hconsistent.registered)]
    · exact except_bind_eq_ok.mpr ⟨(), validateAccounts_eq_ok.mpr hconsistent.account, rfl⟩
    · exact (watermark_iff hconsistent.ordered.reservations).mpr hconsistent.ordered.watermark
    · simp only [List.any_eq_true, decide_eq_true_eq, not_exists, not_and]
      exact fun r hr ↦ (h.positive r hr).ne'

/-! ## Export -/

variable {ACCOUNTS ORDERS : ℕ} {engine : RiskEngine ACCOUNTS ORDERS} {state : RiskEngineState}

theorem RiskEngine.Represents.exportState (h : engine.Represents state) : engine.exportState = state := by
  have haccounts := h.registered_perm
  have hreservations := h.liveReservations_perm
  obtain ⟨_, _, _, h⟩ := h
  unfold RiskEngine.registered at haccounts
  unfold RiskEngine.liveReservations at hreservations
  unfold RiskEngine.exportState
  rw [KeyOrder.insertionSort_eq haccounts h.ordered.accounts,
    KeyOrder.insertionSort_eq hreservations h.ordered.reservations, h.maximum, h.killed]

/-! ## Rebuilding -/

/-- Placing accounts in ascending order, after the accounts already placed. -/
theorem RiskEngine.Represents.placeAccounts (hA : ACCOUNTS * indexPlanes ≤ 2 ^ 63)
    (accounts : List AccountRiskState) (h : engine.Represents state)
    (hsorted : (state.accounts ++ accounts).Pairwise fun a b ↦ a.id < b.id)
    (hlength : (state.accounts ++ accounts).length ≤ ACCOUNTS)
    (hvacant : ∀ i, state.accounts.length ≤ i → i < ACCOUNTS → engine.accounts[i]? = some none) :
    Run.Builds (2 ^ 32 < ACCOUNTS * indexPlanes)
        (RiskEngine.placeAccounts accounts state.accounts.length engine) fun engine' ↦
      engine'.Represents { state with accounts := state.accounts ++ accounts } ∧
      engine'.reservations = engine.reservations ∧ engine'.reservationIndex = engine.reservationIndex := by
  induction accounts generalizing engine state with
  | nil =>
    refine .inr ⟨engine, rfl, ?_, rfl, rfl⟩
    rw [List.append_nil]
    exact h
  | cons account accounts ih =>
    have hbefore : ∀ a ∈ state.accounts, a.id < account.id := fun a ha ↦
      (List.pairwise_append.mp hsorted).2.2 a ha account List.mem_cons_self
    have hslot : state.accounts.length < ACCOUNTS := by
      rw [List.length_append, List.length_cons] at hlength
      omega
    have hnew : state.account? account.id = none :=
      RiskEngineState.account?_eq_none.mpr fun a ha ↦ (hbefore a ha).ne
    rw [RiskEngine.placeAccounts]
    obtain ⟨error, hinsert, hlarge⟩ | ⟨flat, index, hinsert, hrep⟩ :=
      h.addAccount_builds hA hslot (hvacant _ le_rfl hslot) account hnew
    · rw [hinsert]
      cases error with
      | full => exact .inl ⟨_, rfl, hlarge⟩
      | duplicate => exact .inl ⟨_, rfl, hlarge⟩
    rw [hinsert]
    simp only [Run.write_of_lt _ _ hslot, Run.ok_bind]
    rw [KeyOrder.orderedInsert_of_lt hbefore] at hrep
    have hmiddle : state.accounts ++ account :: accounts = (state.accounts ++ [account]) ++ accounts := by
      simp
    rw [hmiddle] at hsorted hlength
    have hplaced := ih hrep hsorted hlength (by
      intro i hi hlt
      rw [List.length_append, List.length_singleton] at hi
      show (engine.accounts.setIfInBounds state.accounts.length (some account))[i]? = some none
      rw [Vector.getElem?_setIfInBounds, if_neg (by omega)]
      exact hvacant i (by omega) hlt)
    rw [List.length_append, List.length_singleton] at hplaced
    rw [hmiddle]
    exact hplaced

/-- The first slots hold `cells`, and the index resolves them. -/
structure Loaded (engine : RiskEngine ACCOUNTS ORDERS) (place : U64 → ℕ) (cells : List (ℕ × Reservation)) :
    Prop where
  slots : cells.map Prod.fst = List.range cells.length
  value : ∀ cell ∈ cells, engine.reservations[cell.1]? = some (.live cell.2)
  index : engine.reservationIndex.Rep place fun key slot ↦ ∃ r, (slot, r) ∈ cells ∧ r.orderId = key
  placed : ∀ cell ∈ cells, cell.2.indexSlot.val = place cell.2.orderId

theorem Loaded.slot_lt {place : U64 → ℕ} {cells : List (ℕ × Reservation)} (h : Loaded engine place cells)
    {cell : ℕ × Reservation} (hcell : cell ∈ cells) : cell.1 < cells.length := by
  have hmem : cell.1 ∈ cells.map Prod.fst := List.mem_map_of_mem hcell
  rw [h.slots] at hmem
  exact List.mem_range.mp hmem

/-- One more reservation in the next slot. -/
theorem Loaded.place (hR : ORDERS * indexPlanes ≤ 2 ^ 63) {place : U64 → ℕ}
    {cells : List (ℕ × Reservation)} (h : Loaded engine place cells) (reservation : ReservationRiskState)
    (hslot : cells.length < ORDERS) (hnew : ∀ cell ∈ cells, cell.2.orderId ≠ reservation.orderId) :
    (∃ error, engine.reservationIndex.insert reservation.orderId cells.length = .error error ∧
        2 ^ 32 < ORDERS * indexPlanes) ∨
      ∃ flat index, engine.reservationIndex.insert reservation.orderId cells.length = .ok (flat, index) ∧
        Loaded { engine with
          reservations := engine.reservations.setIfInBounds cells.length (.live ⟨reservation.orderId,
            reservation.accountId, flat, reservation.side, reservation.quantity⟩)
          reservationIndex := index } (Function.update place reservation.orderId flat.val)
          (cells ++ [(cells.length, ⟨reservation.orderId, reservation.accountId, flat, reservation.side,
            reservation.quantity⟩)]) := by
  have habsent : ∀ slot, ¬ ∃ r, (slot, r) ∈ cells ∧ r.orderId = reservation.orderId := by
    rintro slot ⟨r, hr, heq⟩
    exact hnew _ hr heq
  have hfresh : ∀ key, ¬ ∃ r, (cells.length, r) ∈ cells ∧ r.orderId = key := by
    rintro key ⟨r, hr, _⟩
    exact (h.slot_lt hr).ne rfl
  obtain hrefused | ⟨flat, index, hinsert, hrep⟩ := h.index.insert_builds hR hslot habsent hfresh
  · exact .inl hrefused
  refine .inr ⟨flat, index, hinsert, ?_, ?_, hrep.congr ?_, ?_⟩
  · rw [List.map_append, h.slots, List.length_append, List.length_singleton, List.range_succ]
    rfl
  · intro cell hcell
    show (engine.reservations.setIfInBounds cells.length _)[cell.1]? = _
    rw [Vector.getElem?_setIfInBounds]
    rcases List.mem_append.mp hcell with hcell | hcell
    · rw [if_neg (h.slot_lt hcell).ne']
      exact h.value cell hcell
    · rw [List.mem_singleton.mp hcell, if_pos rfl, if_pos hslot]
  · intro key slot
    simp only [List.mem_append, List.mem_singleton, Prod.mk.injEq]
    constructor
    · rintro ⟨r, hr | ⟨rfl, rfl⟩, rfl⟩
      · exact .inl ⟨r, hr, rfl⟩
      · exact .inr ⟨rfl, rfl⟩
    · rintro (⟨r, hr, rfl⟩ | ⟨rfl, rfl⟩)
      · exact ⟨r, .inl hr, rfl⟩
      · exact ⟨_, .inr ⟨rfl, rfl⟩, rfl⟩
  · intro cell hcell
    rcases List.mem_append.mp hcell with hcell | hcell
    · rw [Function.update_of_ne (hnew cell hcell)]
      exact h.placed cell hcell
    · rw [List.mem_singleton.mp hcell, Function.update_self]

theorem Loaded.placeReservations (hR : ORDERS * indexPlanes ≤ 2 ^ 63)
    (reservations : List ReservationRiskState) {place : U64 → ℕ} {cells : List (ℕ × Reservation)}
    (h : Loaded engine place cells) (hlength : cells.length + reservations.length ≤ ORDERS)
    (hnodup : (reservations.map ReservationRiskState.orderId).Nodup)
    (hnew : ∀ cell ∈ cells, ∀ r ∈ reservations, cell.2.orderId ≠ r.orderId) :
    Run.Builds (2 ^ 32 < ORDERS * indexPlanes)
        (RiskEngine.placeReservations reservations cells.length engine) fun engine' ↦ ∃ place' more,
      Loaded engine' place' (cells ++ more) ∧
      more.map (fun cell ↦ cell.2.export) = reservations ∧
      engine'.accounts = engine.accounts ∧ engine'.accountIndex = engine.accountIndex ∧
      engine'.maximumOrderId = engine.maximumOrderId ∧ engine'.killed = engine.killed := by
  induction reservations generalizing engine place cells with
  | nil =>
    refine .inr ⟨engine, rfl, place, [], ?_, rfl, rfl, rfl, rfl, rfl⟩
    rw [List.append_nil]
    exact h
  | cons r reservations ih =>
    rw [List.map_cons, List.nodup_cons] at hnodup
    rw [List.length_cons] at hlength
    rw [RiskEngine.placeReservations]
    obtain ⟨error, hinsert, hlarge⟩ | ⟨flat, index, hinsert, hloaded⟩ := h.place hR r (by omega)
      fun cell hcell ↦ hnew cell hcell r List.mem_cons_self
    · rw [hinsert]
      cases error with
      | full => exact .inl ⟨_, rfl, hlarge⟩
      | duplicate => exact .inl ⟨_, rfl, hlarge⟩
    rw [hinsert]
    simp only [Run.write_of_lt _ _ (by omega : cells.length < ORDERS), Run.ok_bind]
    have hplaced := ih hloaded
      (by rw [List.length_append, List.length_singleton]; omega) hnodup.2 (by
        intro cell hcell r' hr'
        rcases List.mem_append.mp hcell with hcell | hcell
        · exact hnew cell hcell r' (List.mem_cons_of_mem _ hr')
        · rw [List.mem_singleton.mp hcell]
          exact fun heq ↦ hnodup.1 (List.mem_map.mpr ⟨r', hr', heq.symm⟩))
    rw [List.length_append, List.length_singleton] at hplaced
    obtain hrefused | ⟨engine', hplace, place', more, hloaded', hmore, hsame⟩ := hplaced
    · exact .inl hrefused
    refine .inr ⟨engine', hplace, place',
      (cells.length, ⟨r.orderId, r.accountId, flat, r.side, r.quantity⟩) :: more, ?_, ?_, hsame⟩
    · rw [← List.append_cons] at hloaded'
      exact hloaded'
    · rw [List.map_cons, hmore]
      rfl

/-- The slots from `slot` on become a free chain; the others stay. -/
theorem freeSlots_spec (count slot : ℕ) (hcount : slot + count = ORDERS)
    (slots : Vector ReservationSlot ORDERS) :
    ∃ slots', RiskEngine.freeSlots count slot slots = .ok slots' ∧
      (∀ i, slot ≤ i → i < ORDERS →
        slots'[i]? = some (.free (if i + 1 < ORDERS then i + 1 else Slab.nil))) ∧
      ∀ i, i < slot → slots'[i]? = slots[i]? := by
  induction count generalizing slot slots with
  | zero => exact ⟨slots, rfl, fun i hi hlt ↦ by omega, fun i _ ↦ rfl⟩
  | succ count ih =>
    have hlt : slot < ORDERS := by omega
    obtain ⟨slots', hfree, hchain, hsame⟩ := ih (slot + 1) (by omega)
      (slots.setIfInBounds slot (.free (if slot + 1 < ORDERS then slot + 1 else Slab.nil)))
    refine ⟨slots', ?_, ?_, ?_⟩
    · rw [RiskEngine.freeSlots, Run.write_of_lt _ _ hlt, Run.ok_bind]
      exact hfree
    · intro i hi hi'
      by_cases heq : i = slot
      · subst heq
        rw [hsame i (Nat.lt_succ_self i), Vector.getElem?_setIfInBounds, if_pos rfl, if_pos hi']
      · exact hchain i (by omega) hi'
    · intro i hi
      rw [hsame i (by omega), Vector.getElem?_setIfInBounds, if_neg (by omega)]

/-- Loaded slots followed by a free chain form a slab. -/
theorem Loaded.slab {place : U64 → ℕ} {cells : List (ℕ × Reservation)} (h : Loaded engine place cells)
    (hle : cells.length ≤ ORDERS) {slots : Vector ReservationSlot ORDERS}
    (hchain : ∀ i, cells.length ≤ i → i < ORDERS →
      slots[i]? = some (.free (if i + 1 < ORDERS then i + 1 else Slab.nil)))
    (hsame : ∀ i, i < cells.length → slots[i]? = engine.reservations[i]?) :
    Slab.Rep slots (if cells.length = ORDERS then Slab.nil else cells.length) cells
      (List.range' cells.length (ORDERS - cells.length)) := by
  refine ⟨?_, Slab.FreeSeg.chain _ _ (Nat.add_sub_cancel' hle) hchain, ?_⟩
  · intro cell hcell
    rw [hsame _ (h.slot_lt hcell)]
    exact h.value cell hcell
  · rw [h.slots, List.range_eq_range', List.range_eq_range']
    refine List.Perm.of_eq ?_
    have happend := List.range'_append_1 (s := 0) (m := cells.length) (n := ORDERS - cells.length)
    rw [Nat.zero_add, Nat.add_sub_cancel' hle] at happend
    exact happend

/-- An engine is rebuilt from a restorable state unless an index has more positions than 32 bits name. -/
def Unindexed (ACCOUNTS ORDERS : ℕ) : Prop :=
  2 ^ 32 < ACCOUNTS * indexPlanes ∨ 2 ^ 32 < ORDERS * indexPlanes

/-- The rebuilt engine represents the restorable state it was built from. -/
theorem RiskEngine.fromState_builds (hA : ACCOUNTS * indexPlanes ≤ 2 ^ 63)
    (hR : ORDERS * indexPlanes ≤ 2 ^ 63) (h : state.Restorable ACCOUNTS ORDERS) :
    Run.Builds (Unindexed ACCOUNTS ORDERS) (RiskEngine.fromState ACCOUNTS ORDERS state)
      fun engine ↦ engine.Represents state := by
  have hordered := h.consistent.ordered
  have hnew : ({ RiskEngine.new ACCOUNTS ORDERS with
      killed := state.killed
      maximumOrderId := state.maximumOrderId } : RiskEngine ACCOUNTS ORDERS).Represents
      ⟨[], [], state.maximumOrderId, state.killed⟩ := by
    obtain ⟨accountCells, cells, free, hrep⟩ := RiskEngine.Represents.new ACCOUNTS ORDERS
    exact ⟨accountCells, cells, free, hrep.accounts, hrep.reservations, hrep.accounts_eq,
      hrep.reservations_eq, ⟨List.Pairwise.nil, List.Pairwise.nil, by simp⟩, rfl, rfl⟩
  unfold RiskEngine.fromState
  rw [validateState_eq_ok.mpr ⟨h, rfl⟩]
  simp only
  have haccountsPlaced := hnew.placeAccounts hA state.accounts hordered.accounts h.accounts_le (by
    intro i _ hi
    simp [RiskEngine.new, hi])
  obtain ⟨error, hplaced, hlarge⟩ | ⟨engine₁, hplaced, hrep₁, hslots₁, hindex₁⟩ := haccountsPlaced
  · have hplaced' : RiskEngine.placeAccounts state.accounts 0 { RiskEngine.new ACCOUNTS ORDERS with
        killed := state.killed
        maximumOrderId := state.maximumOrderId } = .ok (.error error) := hplaced
    simp only [hplaced', Run.ok_bind]
    exact .inl ⟨error, rfl, .inl hlarge⟩
  have hplaced' : RiskEngine.placeAccounts state.accounts 0 { RiskEngine.new ACCOUNTS ORDERS with
      killed := state.killed
      maximumOrderId := state.maximumOrderId } = .ok (.ok engine₁) := hplaced
  simp only [hplaced', Run.ok_bind]
  have hempty : Loaded engine₁ (fun _ ↦ 0) [] := by
    refine ⟨rfl, by simp, ?_, by simp⟩
    rw [hindex₁]
    exact (ProbeIndex.Rep.new ORDERS).congr (by simp)
  have hreservationsPlaced := hempty.placeReservations hR state.reservations
    (by simpa using h.reservations_le) hordered.orderIds_nodup (by simp)
  rw [List.length_nil] at hreservationsPlaced
  obtain ⟨error, hplaced₂, hlarge⟩ | ⟨engine₂, hplaced₂, place₂, cells, hloaded, hexport, haccounts,
      haccountIndex, hmaximum, hkilled⟩ := hreservationsPlaced
  · simp only [hplaced₂, Run.ok_bind]
    exact .inl ⟨error, rfl, .inr hlarge⟩
  simp only [hplaced₂, Run.ok_bind]
  rw [List.nil_append] at hloaded
  have hcells : cells.length = state.reservations.length := by rw [← hexport, List.length_map]
  obtain ⟨slots, hfree, hchain, hsame⟩ := freeSlots_spec (ORDERS - state.reservations.length)
    state.reservations.length (Nat.add_sub_cancel' h.reservations_le) engine₂.reservations
  refine .inr ⟨{ engine₂ with
      reservations := slots
      reservationFreeHead :=
        if state.reservations.length = ORDERS then Slab.nil else state.reservations.length }, ?_, ?_⟩
  · simp only [hfree, Run.ok_bind]
    rfl
  · obtain ⟨accountCells, _, _, hrep⟩ := hrep₁
    obtain ⟨accountPlace, haccountsRep⟩ := hrep.accounts
    rw [← hcells] at hchain hsame
    have hslab := hloaded.slab (hcells ▸ h.reservations_le) hchain hsame
    rw [hcells] at hslab
    refine ⟨accountCells, cells, _, ⟨accountPlace, ?_⟩, ⟨place₂, hslab, hloaded.index, hloaded.placed⟩,
      hrep.accounts_eq, hexport, hordered, hmaximum.trans hrep.maximum, hkilled.trans hrep.killed⟩
    show AccountsRep engine₂.accounts engine₂.accountIndex accountPlace accountCells
    rw [haccounts, haccountIndex]
    exact haccountsRep

theorem RiskEngine.fromState_restorable (hA : ACCOUNTS * indexPlanes ≤ 2 ^ 32)
    (hR : ORDERS * indexPlanes ≤ 2 ^ 32) (h : state.Restorable ACCOUNTS ORDERS) :
    ∃ engine, RiskEngine.fromState ACCOUNTS ORDERS state = .ok (.ok engine) ∧ engine.Represents state :=
  (RiskEngine.fromState_builds (addressable hA) (addressable hR) h).of_not
    (not_or.mpr ⟨hA.not_gt, hR.not_gt⟩)

/-- Restoring is total: it never faults, and what it returns represents the given state. -/
theorem RiskEngine.fromState_spec (hA : ACCOUNTS * indexPlanes ≤ 2 ^ 63)
    (hR : ORDERS * indexPlanes ≤ 2 ^ 63) (state : RiskEngineState) :
    ∃ result, RiskEngine.fromState ACCOUNTS ORDERS state = .ok result ∧
      ∀ engine, result = .ok engine → state.Restorable ACCOUNTS ORDERS ∧ engine.Represents state := by
  cases hvalidate : validateState ACCOUNTS ORDERS state with
  | error error =>
    refine ⟨.error error, ?_, by simp⟩
    unfold RiskEngine.fromState
    rw [hvalidate]
  | ok records =>
    obtain ⟨h, rfl⟩ := validateState_eq_ok.mp hvalidate
    obtain ⟨error, hfrom, _⟩ | ⟨engine, hfrom, hrep⟩ := RiskEngine.fromState_builds hA hR h
    · exact ⟨.error error, hfrom, by simp⟩
    refine ⟨.ok engine, hfrom, ?_⟩
    intro engine' heq
    rw [← Except.ok.inj heq]
    exact ⟨h, hrep⟩

end DeterministicExchange.Risk
