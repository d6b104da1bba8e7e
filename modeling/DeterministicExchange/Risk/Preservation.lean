import DeterministicExchange.Risk.Consistency

/-!
# Operations on consistent risk states

A fill, a settlement and a release of a live reservation succeed on a consistent
state and leave a consistent state. A new reservation followed by its release,
and an amendment followed by its restoration, leave the totals as they were.
-/

namespace DeterministicExchange.Risk

open Machine

/-- The part of an account that trading does not change. -/
def AccountRiskState.profile (account : AccountRiskState) : AccountId × RiskLimits × Bool :=
  (account.id, account.limits, account.killed)

/-- The limits that a single order of an account has to respect. -/
def RiskLimits.Admits (limits : RiskLimits) (price : PriceTicks) (quantity : Quantity) : Prop :=
  quantity.val ≤ limits.maxQuantity.val ∧ limits.minimumPrice.val ≤ price.val ∧
    price.val ≤ limits.maximumPrice.val ∧ |price.val| * quantity.val ≤ limits.maxNotional.val

instance (limits : RiskLimits) (price : PriceTicks) (quantity : Quantity) :
    Decidable (limits.Admits price quantity) := inferInstanceAs (Decidable (_ ∧ _))

/-- What is left of a reservation after a fill. -/
def ReservationRiskState.after (r : ReservationRiskState) (filled : Quantity) :
    List ReservationRiskState :=
  if r.quantity.val = filled.val then [] else [{ r with quantity := Unsigned.monus r.quantity filled }]

/-- An account with new totals. -/
def AccountRiskState.withTotals (account : AccountRiskState) (settledPosition : I128)
    (reservedBuys reservedSells : U128) (openOrders : U32) : AccountRiskState :=
  { account with
    settledPosition := settledPosition
    reservedBuys := reservedBuys
    reservedSells := reservedSells
    openOrders := openOrders }

def reservationOf (order : NewOrder) : ReservationRiskState :=
  ⟨order.orderId, order.accountId, order.side, order.quantity⟩

namespace RiskEngineState

/-- The settled position of an account; an unknown account has none. -/
def settled (state : RiskEngineState) (id : AccountId) : ℤ :=
  (state.account? id).elim 0 fun account ↦ account.settledPosition.val

/-- Kill switches, watermark, account ids and limits are the same. -/
structure SameProfile (state state' : RiskEngineState) : Prop where
  killed : state'.killed = state.killed
  watermark : state'.maximumOrderId = state.maximumOrderId
  profiles : state'.accounts.map AccountRiskState.profile = state.accounts.map AccountRiskState.profile

theorem SameProfile.trans {state state' state'' : RiskEngineState} (h : SameProfile state state')
    (h' : SameProfile state' state'') : SameProfile state state'' :=
  ⟨h'.killed.trans h.killed, h'.watermark.trans h.watermark, h'.profiles.trans h.profiles⟩

/-- The state after an accepted reservation; a release to zero undoes all but the watermark. -/
structure Reserved (state : RiskEngineState) (order : NewOrder) (state' : RiskEngineState) : Prop where
  consistent : state'.Consistent
  reservations : state'.reservations = state.reservations ++ [reservationOf order]
  killed : state'.killed = state.killed
  profiles : state'.accounts.map AccountRiskState.profile = state.accounts.map AccountRiskState.profile
  settled : ∀ id, state'.settled id = state.settled id
  watermark : state'.maximumOrderId = some order.orderId
  fresh : ∀ maximum ∈ state.maximumOrderId, maximum < order.orderId
  quantity : 0 < order.quantity.val
  admits : ∃ account ∈ state.accounts, account.id = order.accountId ∧
    account.limits.Admits order.price order.quantity
  release : state'.settle order.orderId 0 = .ok ((), { state with maximumOrderId := some order.orderId })

/-- The state after the reservation `r` has become `remaining` and its account has settled `moved`. -/
structure Exchanged (state : RiskEngineState) (r : ReservationRiskState)
    (remaining : List ReservationRiskState) (moved : ℤ) (state' : RiskEngineState) : Prop where
  consistent : state'.Consistent
  profile : SameProfile state state'
  settled : ∀ id, state'.settled id = state.settled id + if id = r.accountId then moved else 0
  perm : ∀ rest, state.reservations.Perm (r :: rest) → state'.reservations.Perm (remaining ++ rest)

variable {state : RiskEngineState} {r : ReservationRiskState} {account account' : AccountRiskState}

theorem Ordered.putAccount_profiles (h : state.Ordered) (hmem : account ∈ state.accounts)
    (hprofile : account'.profile = account.profile) :
    (state.putAccount account').accounts.map AccountRiskState.profile =
      state.accounts.map AccountRiskState.profile := by
  have hid : account'.id = account.id := congrArg Prod.fst hprofile
  show (state.accounts.map _).map _ = _
  rw [List.map_map]
  apply List.map_congr_left
  intro a ha
  show (if a.id = account'.id then account' else a).profile = a.profile
  split
  · next heq =>
    have ha' := h.account?_eq_some.mpr ⟨ha, rfl⟩
    rw [heq, hid, h.account?_eq_some.mpr ⟨hmem, rfl⟩] at ha'
    rw [hprofile, Option.some.inj ha']
  · rfl

theorem settled_of_mem (h : state.Ordered) (hmem : account ∈ state.accounts) :
    state.settled account.id = account.settledPosition.val := by
  unfold settled
  rw [h.account?_eq_some.mpr ⟨hmem, rfl⟩]
  rfl

/-- The settled positions after one account is put. -/
theorem Ordered.settled_putAccount (h : state.Ordered) (hmem : account ∈ state.accounts)
    (hid : account'.id = account.id) (id : AccountId) :
    (state.putAccount account').settled id = state.settled id +
      if id = account.id then account'.settledPosition.val - account.settledPosition.val else 0 := by
  have hordered := h.putAccount account'
  by_cases hsame : id = account.id
  · have hput : account' ∈ (state.putAccount account').accounts := (mem_putAccount hmem hid).mpr (.inl rfl)
    have hafter := settled_of_mem hordered hput
    rw [hid] at hafter
    rw [if_pos hsame, hsame, hafter, settled_of_mem h hmem]
    ring
  · rw [if_neg hsame, add_zero]
    unfold settled
    cases hlookup : state.account? id with
    | none =>
      have hnone : (state.putAccount account').account? id = none := by
        rw [account?_eq_none] at hlookup ⊢
        intro a ha
        rcases (mem_putAccount hmem hid).mp ha with rfl | ⟨ha, _⟩
        · rw [hid]
          exact Ne.symm hsame
        · exact hlookup a ha
      rw [hnone]
    | some a =>
      obtain ⟨ha, haid⟩ := h.account?_eq_some.mp hlookup
      have hput : a ∈ (state.putAccount account').accounts :=
        (mem_putAccount hmem hid).mpr (.inr ⟨ha, fun heq ↦ hsame (haid.symm.trans heq)⟩)
      rw [hordered.account?_eq_some.mpr ⟨hput, haid⟩]

/-- Putting a record back over a changed one with the same id. -/
theorem Ordered.putAccount_back (h : state.Ordered) (hmem : account ∈ state.accounts)
    (hid : account'.id = account.id) :
    ((state.putAccount account').putAccount account).accounts = state.accounts :=
  (KeyOrder.replace_replace state.accounts hid.symm).trans (KeyOrder.replace_self h.ids_nodup hmem)

theorem Ordered.putReservation_back (h : state.Ordered) (hr : r ∈ state.reservations)
    {r' : ReservationRiskState} (hid : r'.orderId = r.orderId) :
    ((state.putReservation r').putReservation r).reservations = state.reservations :=
  (KeyOrder.replace_replace state.reservations hid.symm).trans
    (KeyOrder.replace_self h.orderIds_nodup hr)

/-! ## Accounts of live reservations -/

section Live

variable (h : state.Consistent) (hr : r ∈ state.reservations)

include h hr

theorem Consistent.exists_account : ∃ account, state.account? r.accountId = some account ∧
    account ∈ state.accounts ∧ account.id = r.accountId := by
  obtain ⟨account, hmem, hid⟩ := h.registered r hr
  exact ⟨account, h.ordered.account?_eq_some.mpr ⟨hmem, hid⟩, hmem, hid⟩

theorem Consistent.reservation? : state.reservation? r.orderId = some r :=
  h.ordered.reservation?_eq_some.mpr ⟨hr, rfl⟩

theorem Consistent.quantity_le (hmem : account ∈ state.accounts) (hid : account.id = r.accountId) :
    r.quantity.val ≤ (account.reserved r.side).val := by
  obtain ⟨xs, ys, hsplit, _⟩ := h.ordered.split hr
  rw [(h.account account hmem).reserved, hsplit, hid, reservedTotal_append, reservedTotal_cons,
    exposureOf_self, if_pos rfl]
  omega

theorem Consistent.openOrders_pos (hmem : account ∈ state.accounts) (hid : account.id = r.accountId) :
    0 < account.openOrders.val := by
  obtain ⟨xs, ys, hsplit, _⟩ := h.ordered.split hr
  rw [(h.account account hmem).openOrders, hsplit, hid, openCount_append, openCount_cons, if_pos rfl]
  omega

end Live

theorem reservedTotal_of_ne {id : AccountId} {rest : List ReservationRiskState}
    (hne : ∀ r ∈ rest, r.accountId ≠ id) (side : Side) : reservedTotal side id rest = 0 := by
  induction rest with
  | nil => rfl
  | cons r rest ih =>
    rw [reservedTotal_cons, exposureOf_of_ne (hne r (by simp)),
      ih fun r' hr' ↦ hne r' (List.mem_cons_of_mem r hr')]

theorem openCount_of_ne {id : AccountId} {rest : List ReservationRiskState}
    (hne : ∀ r ∈ rest, r.accountId ≠ id) : openCount id rest = 0 := by
  rw [openCount, List.countP_eq_zero]
  intro r hr
  simpa using hne r hr

theorem openCount_of_eq {id : AccountId} {rest : List ReservationRiskState}
    (heq : ∀ r ∈ rest, r.accountId = id) : openCount id rest = rest.length := by
  rw [openCount, List.countP_eq_length]
  intro r hr
  simpa using heq r hr

/-- A reservation and the totals of its account change together. -/
theorem Balanced.exchange {state' : RiskEngineState} {xs ys rest : List ReservationRiskState}
    (h : state.Balanced) (hmem : account ∈ state.accounts) (hid : account.id = r.accountId)
    (account' : AccountRiskState) (hprofile : account'.profile = account.profile)
    (haccounts : state'.accounts = (state.putAccount account').accounts) (hordered : state'.Ordered)
    (hsplit : state.reservations = xs ++ r :: ys) (hrest : ∀ r' ∈ rest, r'.accountId = r.accountId)
    (hreservations : state'.reservations = xs ++ (rest ++ ys))
    (hreserved : ∀ side, (account'.reserved side).val + exposureOf side r.accountId r =
      (account.reserved side).val + reservedTotal side r.accountId rest)
    (hopen : account'.openOrders.val + 1 = account.openOrders.val + rest.length)
    (hopen_le : account'.openOrders.val ≤ account.limits.maxOpenOrders.val) : state'.Balanced := by
  have hid' : account'.id = account.id := congrArg Prod.fst hprofile
  have hlimits : account'.limits = account.limits := congrArg (fun p ↦ p.2.1) hprofile
  have hprior := h.account account hmem
  refine h.update hmem hid' haccounts hordered ?_ ?_ ⟨?_, ?_, ?_⟩
  · intro r' hr'
    rw [hreservations, List.mem_append, List.mem_append] at hr'
    rw [hsplit, List.mem_append, List.mem_cons]
    rcases hr' with hr' | hr' | hr'
    · exact .inl (.inl hr')
    · exact .inr ((hrest r' hr').trans hid.symm)
    · exact .inl (.inr (.inr hr'))
  · intro id hne
    have hne' : ∀ r' ∈ rest, r'.accountId ≠ id := by
      intro r' hr' heq
      exact hne (by rw [← heq, hrest r' hr', hid])
    have hne'' : r.accountId ≠ id := fun heq ↦ hne (heq.symm.trans hid.symm)
    rw [hreservations, hsplit]
    constructor
    · intro side
      simp [reservedTotal_of_ne hne', exposureOf_of_ne hne'']
    · simp [openCount_of_ne hne', hne'']
  · intro side
    have hbefore := hprior.reserved side
    have hchange := hreserved side
    rw [hsplit, hid] at hbefore
    rw [hreservations, hid', hid]
    simp only [reservedTotal_append, reservedTotal_cons] at hbefore ⊢
    omega
  · have hbefore := hprior.openOrders
    rw [hsplit, hid] at hbefore
    rw [hreservations, hid', hid]
    simp only [openCount_append, openCount_cons, if_true, openCount_of_eq hrest] at hbefore ⊢
    omega
  · rw [hlimits]
    exact hopen_le

theorem Consistent.exchange {state' : RiskEngineState} {xs ys rest : List ReservationRiskState} {moved : ℤ}
    (h : state.Consistent) (hmem : account ∈ state.accounts) (hid : account.id = r.accountId)
    (account' : AccountRiskState) (hprofile : account'.profile = account.profile)
    (haccounts : state'.accounts = (state.putAccount account').accounts) (hordered : state'.Ordered)
    (hsplit : state.reservations = xs ++ r :: ys) (hrest : ∀ r' ∈ rest, r'.accountId = r.accountId)
    (hreservations : state'.reservations = xs ++ (rest ++ ys))
    (hreserved : ∀ side, (account'.reserved side).val + exposureOf side r.accountId r =
      (account.reserved side).val + reservedTotal side r.accountId rest)
    (hopen : account'.openOrders.val + 1 = account.openOrders.val + rest.length)
    (hopen_le : account'.openOrders.val ≤ account.limits.maxOpenOrders.val)
    (hlong : account'.settledPosition.val + account'.reservedBuys.val ≤
      account.limits.maxAbsPosition.val)
    (hshort : -account.limits.maxAbsPosition.val ≤
      account'.settledPosition.val - account'.reservedSells.val)
    (hmoved : account'.settledPosition.val = account.settledPosition.val + moved)
    (hkilled : state'.killed = state.killed)
    (hwatermark : state'.maximumOrderId = state.maximumOrderId) : Exchanged state r rest moved state' := by
  have hid' : account'.id = account.id := congrArg Prod.fst hprofile
  have hlimits : account'.limits = account.limits := congrArg (fun p ↦ p.2.1) hprofile
  have hbalanced := h.balanced.exchange hmem hid account' hprofile haccounts hordered hsplit hrest
    hreservations hreserved hopen hopen_le
  have hconsistent := h.update hmem hid' hlimits haccounts hbalanced hlong hshort
  refine ⟨hconsistent, ⟨hkilled, hwatermark, ?_⟩, ?_, ?_⟩
  · rw [haccounts]
    exact h.ordered.putAccount_profiles hmem hprofile
  · intro id
    have hsettled : state'.settled id = (state.putAccount account').settled id := by
      unfold settled RiskEngineState.account?
      rw [haccounts]
    rw [hsettled, h.ordered.settled_putAccount hmem hid' id, hmoved, hid, add_sub_cancel_left]
  · intro others hperm
    rw [hsplit] at hperm
    have hothers : (xs ++ ys).Perm others := (List.perm_middle.symm.trans hperm).cons_inv
    rw [hreservations]
    calc
      (xs ++ (rest ++ ys)).Perm (rest ++ ys ++ xs) := List.perm_append_comm
      _ = rest ++ (ys ++ xs) := List.append_assoc ..
      List.Perm _ (rest ++ others) := (List.perm_append_comm.trans hothers).append_left rest

/-! ## Fills and settlements -/

/-- A fill moves a worst position towards the other one. -/
theorem fill_bounds {side : Side} {position : I128} {buys sells : U128} {filled released : ℕ}
    (hprior : AccountConsistent state.reservations account) (hfilled : filled ≤ released)
    (hreleased : released ≤ (account.reserved side).val)
    (hposition : position.val = account.settledPosition.val + positionChange side filled)
    (hbuys : buys.val = account.reservedBuys.val - onSide side .buy released)
    (hsells : sells.val = account.reservedSells.val - onSide side .sell released) :
    position.val + buys.val ≤ account.limits.maxAbsPosition.val ∧
      -(account.limits.maxAbsPosition.val : ℤ) ≤ position.val - sells.val := by
  have hlong := hprior.long
  have hshort := hprior.short
  cases side with
  | buy =>
    have hle : released ≤ account.reservedBuys.val := hreleased
    simp only [positionChange, onSide, if_true, reduceCtorEq, if_false] at hposition hbuys hsells
    omega
  | sell =>
    have hle : released ≤ account.reservedSells.val := hreleased
    simp only [positionChange, onSide, if_true, reduceCtorEq, if_false] at hposition hbuys hsells
    omega

/-- The totals after a release, per side. -/
theorem released_reserved {side side' : Side} {buys sells : U128} {released : ℕ}
    (hreserved : ∀ side', (account'.reserved side').val = (match side' with
      | .buy => buys
      | .sell => sells).val)
    (hreleased : released ≤ (account.reserved side).val)
    (hbuys : buys.val = account.reservedBuys.val - onSide side .buy released)
    (hsells : sells.val = account.reservedSells.val - onSide side .sell released) :
    (account'.reserved side').val + onSide side side' released = (account.reserved side').val := by
  rw [hreserved]
  cases side <;> cases side' <;>
    simp only [AccountRiskState.reserved, onSide, if_true, reduceCtorEq, if_false] at * <;> omega

/-- A settlement of a live reservation succeeds and drops it. -/
theorem Consistent.settleReservation (h : state.Consistent) (hr : r ∈ state.reservations)
    {filled : Quantity} (hfilled : filled.val ≤ r.quantity.val) :
    ∃ state', state.settleReservation r filled = .ok ((), state') ∧
      Exchanged state r [] (positionChange r.side filled.val) state' := by
  obtain ⟨account, hlookup, hmem, hid⟩ := h.exists_account hr
  have hprior := h.account account hmem
  have hquantity := h.quantity_le hr hmem hid
  obtain ⟨position, buys, sells, hexposure, hposition, hbuys, hsells⟩ :=
    exposureAfterFill_ok hprior.long hprior.short hfilled hquantity
  obtain ⟨hlong, hshort⟩ := fill_bounds hprior hfilled hquantity hposition hbuys hsells
  have hone : (1 : U32).val ≤ account.openOrders.val := h.openOrders_pos hr hmem hid
  obtain ⟨xs, ys, hsplit, hdrop, _⟩ := h.ordered.split hr
  unfold RiskEngineState.settleReservation
  simp only [hlookup, hexposure, Unsigned.checkedSub_of_le hone]
  refine ⟨_, rfl, ?_⟩
  refine h.exchange hmem hid (account.withTotals position buys sells (Unsigned.monus account.openOrders 1))
    rfl rfl ((h.ordered.putAccount _).dropReservation _) hsplit (by simp) hdrop ?_ ?_ ?_ hlong hshort
    hposition rfl rfl
  · intro side
    rw [exposureOf_self, reservedTotal_nil]
    exact released_reserved (fun side' ↦ by cases side' <;> rfl) hquantity hbuys hsells
  · show account.openOrders.val - 1 + 1 = _
    exact Nat.sub_add_cancel hone
  · exact (Nat.sub_le _ _).trans hprior.openOrders_le

theorem Consistent.settle (h : state.Consistent) (hr : r ∈ state.reservations)
    {filled : Quantity} (hfilled : filled.val ≤ r.quantity.val) :
    ∃ state', state.settle r.orderId filled = .ok ((), state') ∧
      Exchanged state r [] (positionChange r.side filled.val) state' := by
  obtain ⟨state', hok, hexchanged⟩ := h.settleReservation hr hfilled
  refine ⟨state', ?_, hexchanged⟩
  unfold RiskEngineState.settle
  simp only [h.reservation? hr]
  rw [if_neg (Nat.not_lt.mpr hfilled), hok]

/-- The owner can always release a live reservation, and gets its whole quantity back. -/
theorem Consistent.cancelReservation (h : state.Consistent) (hr : r ∈ state.reservations) :
    ∃ state', state.cancelReservation r.orderId r.accountId = .ok (r.quantity, state') ∧
      Exchanged state r [] 0 state' := by
  have hzero : (0 : Quantity).val ≤ r.quantity.val := Nat.zero_le _
  obtain ⟨state', hok, hexchanged⟩ := h.settleReservation hr hzero
  rw [show (0 : Quantity).val = 0 from rfl, positionChange_zero] at hexchanged
  refine ⟨state', ?_, hexchanged⟩
  unfold RiskEngineState.cancelReservation
  simp only [h.reservation? hr]
  rw [if_neg (not_not.mpr rfl), hok]

/-- A fill of a live reservation succeeds and leaves the rest of it. -/
theorem Consistent.recordFill (h : state.Consistent) (hr : r ∈ state.reservations)
    {filled : Quantity} (hpos : 0 < filled.val) (hfilled : filled.val ≤ r.quantity.val) :
    ∃ state', state.recordFill r.orderId filled = .ok ((), state') ∧
      Exchanged state r (r.after filled) (positionChange r.side filled.val) state' := by
  obtain ⟨account, hlookup, hmem, hid⟩ := h.exists_account hr
  have hprior := h.account account hmem
  have hquantity := hfilled.trans (h.quantity_le hr hmem hid)
  obtain ⟨position, buys, sells, hexposure, hposition, hbuys, hsells⟩ :=
    exposureAfterFill_ok hprior.long hprior.short le_rfl hquantity
  obtain ⟨hlong, hshort⟩ := fill_bounds hprior le_rfl hquantity hposition hbuys hsells
  have hone : (1 : U32).val ≤ account.openOrders.val := h.openOrders_pos hr hmem hid
  obtain ⟨xs, ys, hsplit, hdrop, hput⟩ := h.ordered.split hr
  have hreserved (openOrders : U32) (side : Side) :
      ((account.withTotals position buys sells openOrders).reserved side).val +
        onSide r.side side filled.val = (account.reserved side).val :=
    released_reserved (fun side' ↦ by cases side' <;> rfl) hquantity hbuys hsells
  unfold RiskEngineState.recordFill
  rw [if_neg hpos.ne']
  simp only [h.reservation? hr, Unsigned.checkedSub_of_le hfilled, hlookup, hexposure]
  by_cases hall : r.quantity.val = filled.val
  · have hzero : (Unsigned.monus r.quantity filled).val = 0 := by
      rw [Unsigned.monus_val, hall, Nat.sub_self]
    simp only [hzero, if_true, Unsigned.checkedSub_of_le hone]
    refine ⟨_, rfl, ?_⟩
    rw [ReservationRiskState.after, if_pos hall]
    refine h.exchange hmem hid
      (account.withTotals position buys sells (Unsigned.monus account.openOrders 1)) rfl rfl
      ((h.ordered.putAccount _).dropReservation _) hsplit (by simp) hdrop ?_ ?_ ?_ hlong hshort hposition
      rfl rfl
    · intro side
      rw [exposureOf_self, reservedTotal_nil, hall]
      exact hreserved _ side
    · show account.openOrders.val - 1 + 1 = _
      exact Nat.sub_add_cancel hone
    · exact (Nat.sub_le _ _).trans hprior.openOrders_le
  · have hleft : (Unsigned.monus r.quantity filled).val ≠ 0 := by
      rw [Unsigned.monus_val]
      omega
    simp only [hleft, if_false]
    refine ⟨_, rfl, ?_⟩
    rw [ReservationRiskState.after, if_neg hall]
    refine h.exchange hmem hid (account.withTotals position buys sells account.openOrders) rfl rfl
      ((h.ordered.putAccount _).putReservation _) hsplit (by simp)
      (hput { r with quantity := Unsigned.monus r.quantity filled } rfl) ?_ ?_ ?_ hlong hshort hposition
      rfl rfl
    · intro side
      have hside := hreserved account.openOrders side
      simp only [exposureOf, true_and, reservedTotal_cons, reservedTotal_nil, Nat.add_zero, onSide,
        Unsigned.monus_val] at hside ⊢
      by_cases hsame : r.side = side
      · simp only [hsame, if_true] at hside ⊢
        omega
      · simp only [hsame, if_false] at hside ⊢
        omega
    · rfl
    · exact hprior.openOrders_le

/-! ## New reservations -/

theorem notional_ok {price : PriceTicks} {quantity : Quantity} {n : U128}
    (h : notional price quantity = .ok n) : (n.val : ℤ) = |price.val| * quantity.val := by
  obtain ⟨absolute, habsolute, h⟩ := except_bind_eq_ok.mp h
  obtain ⟨unsigned, hunsigned, h⟩ := except_bind_eq_ok.mp h
  have habs : |price.val| = absolute.val := Signed.ofInt?_eq_some.mp (okOr_eq_ok.mp habsolute)
  have hnonneg : 0 ≤ absolute.val := habs ▸ abs_nonneg _
  rw [okOr_eq_ok, Signed.toUnsigned?, if_pos hnonneg, Unsigned.ofNat?_eq_some] at hunsigned
  have hproduct : unsigned.val * quantity.val = n.val :=
    Unsigned.checkedMul_eq_some.mp (okOr_eq_ok.mp h)
  rw [habs, ← hproduct, ← hunsigned, Nat.cast_mul, Int.toNat_of_nonneg hnonneg]

/-- What a passed evaluation of an order establishes. -/
theorem evaluateLimits_ok {order : NewOrder} {buys sells : U128} {openOrders : U32}
    (h : evaluateLimits account order = .ok (buys, sells, openOrders)) :
    account.limits.Admits order.price order.quantity ∧
      buys.val = account.reservedBuys.val + onSide order.side .buy order.quantity.val ∧
      sells.val = account.reservedSells.val + onSide order.side .sell order.quantity.val ∧
      account.settledPosition.val + buys.val ≤ account.limits.maxAbsPosition.val ∧
      -(account.limits.maxAbsPosition.val : ℤ) ≤ account.settledPosition.val - sells.val ∧
      openOrders.val = account.openOrders.val + 1 ∧
      openOrders.val ≤ account.limits.maxOpenOrders.val := by
  unfold evaluateLimits at h
  split at h
  · simp at h
  split at h
  · simp at h
  next hquantity =>
  split at h
  · simp at h
  next hprice =>
  push Not at hprice
  obtain ⟨n, hn, h⟩ := except_bind_eq_ok.mp h
  split at h
  · simp at h
  next hnotional =>
  obtain ⟨totals, htotals, h⟩ := except_bind_eq_ok.mp h
  obtain ⟨_, hposition, h⟩ := except_bind_eq_ok.mp h
  obtain ⟨openOrders', hopen, h⟩ := except_bind_eq_ok.mp h
  split at h
  · simp at h
  next hmax =>
  have heq := Except.ok.inj h
  obtain ⟨rfl, heq'⟩ := Prod.ext_iff.mp heq
  obtain ⟨rfl, rfl⟩ := Prod.ext_iff.mp heq'
  obtain ⟨hbuys, hsells⟩ := addReserved_ok htotals
  obtain ⟨hlong, hshort⟩ := checkPosition_ok hposition
  have hopen' : account.openOrders.val + (1 : U32).val = openOrders'.val :=
    Unsigned.checkedAdd_eq_some.mp (okOr_eq_ok.mp hopen)
  have hvalue := notional_ok hn
  refine ⟨⟨Nat.not_lt.mp hquantity, hprice.1, hprice.2, ?_⟩, hbuys, hsells, hlong, hshort, hopen'.symm,
    Nat.not_lt.mp hmax⟩
  rw [← hvalue]
  exact_mod_cast Nat.not_lt.mp hnotional

theorem Ordered.lt_of_fresh (h : state.Ordered) {orderId : OrderId}
    (hfresh : ∀ maximum ∈ state.maximumOrderId, maximum < orderId) :
    ∀ r ∈ state.reservations, r.orderId < orderId := by
  intro r hr
  obtain ⟨maximum, hmaximum, hle⟩ := h.watermark r hr
  exact hle.trans_lt (hfresh maximum hmaximum)

/-- Other totals leave every settled position as it was. -/
theorem Ordered.settled_withTotals (h : state.Ordered) (hmem : account ∈ state.accounts)
    (buys sells : U128) (openOrders : U32) (id : AccountId) :
    (state.putAccount (account.withTotals account.settledPosition buys sells openOrders)).settled id =
      state.settled id := by
  have hid : (account.withTotals account.settledPosition buys sells openOrders).id = account.id := rfl
  rw [h.settled_putAccount hmem hid id]
  simp [AccountRiskState.withTotals]

/-- Adding a reservation and its share of the totals. -/
theorem Balanced.addReservation {order : NewOrder} {buys sells : U128} {openOrders : U32}
    (h : state.Balanced) (hmem : account ∈ state.accounts) (hid : account.id = order.accountId)
    (hlimits : evaluateLimits account order = .ok (buys, sells, openOrders))
    (hfresh : ∀ maximum ∈ state.maximumOrderId, maximum < order.orderId) :
    ((state.putAccount (account.withTotals account.settledPosition buys sells openOrders)).addReservation
      (reservationOf order)).Balanced := by
  obtain ⟨_, hbuys, hsells, _, _, hopen, hmax⟩ := evaluateLimits_ok hlimits
  have hprior := h.account account hmem
  have hid' : (account.withTotals account.settledPosition buys sells openOrders).id = account.id := rfl
  refine h.update hmem hid' rfl ((h.ordered.putAccount _).addReservation hfresh) ?_ ?_ ?_
  · intro r hr
    rcases List.mem_append.mp hr with hr | hr
    · exact .inl hr
    · rw [List.mem_singleton.mp hr]
      exact .inr hid.symm
  · intro id hne
    have hne' : (reservationOf order).accountId ≠ id := fun heq ↦ hne (heq.symm.trans hid.symm)
    show (∀ side, reservedTotal side id (state.reservations ++ [reservationOf order]) = _) ∧
      openCount id (state.reservations ++ [reservationOf order]) = _
    constructor
    · intro side
      simp [exposureOf_of_ne hne']
    · simp [hne']
  · refine ⟨?_, ?_, hmax⟩
    · intro side
      have hbefore := hprior.reserved side
      show _ = reservedTotal side account.id (state.reservations ++ [reservationOf order])
      rw [reservedTotal_append, reservedTotal_cons, reservedTotal_nil, hid,
        show order.accountId = (reservationOf order).accountId from rfl, exposureOf_self]
      rw [hid] at hbefore
      cases side with
      | buy => exact hbuys.trans (congrArg₂ (· + ·) hbefore rfl)
      | sell => exact hsells.trans (congrArg₂ (· + ·) hbefore rfl)
    · have howner : (reservationOf order).accountId = account.id := hid.symm
      show openOrders.val = openCount account.id (state.reservations ++ [reservationOf order])
      rw [hopen, openCount_append, openCount_cons, openCount_nil, if_pos howner, hprior.openOrders]

theorem Consistent.addReservation {order : NewOrder} {buys sells : U128} {openOrders : U32}
    (h : state.Consistent) (hmem : account ∈ state.accounts) (hid : account.id = order.accountId)
    (hlimits : evaluateLimits account order = .ok (buys, sells, openOrders))
    (hfresh : ∀ maximum ∈ state.maximumOrderId, maximum < order.orderId) :
    ((state.putAccount (account.withTotals account.settledPosition buys sells openOrders)).addReservation
      (reservationOf order)).Consistent := by
  obtain ⟨_, _, _, hlong, hshort, _, _⟩ := evaluateLimits_ok hlimits
  have hid' : (account.withTotals account.settledPosition buys sells openOrders).id = account.id := rfl
  have hbalanced := h.balanced.addReservation hmem hid hlimits hfresh
  exact h.update hmem hid' rfl rfl hbalanced hlong hshort

/-- Releasing a reservation just added restores the totals. -/
theorem Consistent.settle_addReservation {order : NewOrder} {buys sells : U128} {openOrders : U32}
    (h : state.Consistent) (hmem : account ∈ state.accounts) (hid : account.id = order.accountId)
    (hlimits : evaluateLimits account order = .ok (buys, sells, openOrders))
    (hfresh : ∀ maximum ∈ state.maximumOrderId, maximum < order.orderId) :
    ((state.putAccount (account.withTotals account.settledPosition buys sells openOrders)).addReservation
      (reservationOf order)).settle order.orderId 0 =
        .ok ((), { state with maximumOrderId := some order.orderId }) := by
  have hnext := h.addReservation hmem hid hlimits hfresh
  obtain ⟨_, hbuys, hsells, hlong, hshort, hopen, hmax⟩ := evaluateLimits_ok hlimits
  set account' := account.withTotals account.settledPosition buys sells openOrders with haccount'
  set next := (state.putAccount account').addReservation (reservationOf order) with hnext_eq
  have hr : reservationOf order ∈ next.reservations := List.mem_append_right _ (List.mem_singleton_self _)
  have hid' : account'.id = account.id := rfl
  have hmem' : account' ∈ next.accounts := (mem_putAccount hmem hid').mpr (.inl rfl)
  have hlookup : next.account? (reservationOf order).accountId = some account' :=
    hnext.ordered.account?_eq_some.mpr ⟨hmem', hid⟩
  have hquantity := hnext.quantity_le hr hmem' hid
  have hzero : (0 : Quantity).val ≤ (reservationOf order).quantity.val := Nat.zero_le _
  obtain ⟨position, buys', sells', hexposure, hposition, hbuys', hsells'⟩ :=
    exposureAfterFill_ok hlong hshort hzero hquantity
  have hone : (1 : U32).val ≤ account'.openOrders.val := hnext.openOrders_pos hr hmem' hid
  have hback : account'.withTotals position buys' sells' (Unsigned.monus account'.openOrders 1) =
      account := by
    have hposition' : position = account.settledPosition := by
      apply Subtype.ext
      rw [hposition]
      show account.settledPosition.val + positionChange order.side 0 = _
      cases order.side <;> simp [positionChange]
    have hbuys'' : buys' = account.reservedBuys := by
      apply Fin.ext
      rw [hbuys']
      exact Nat.sub_eq_of_eq_add hbuys
    have hsells'' : sells' = account.reservedSells := by
      apply Fin.ext
      rw [hsells']
      exact Nat.sub_eq_of_eq_add hsells
    have hopen' : Unsigned.monus account'.openOrders 1 = account.openOrders := by
      apply Fin.ext
      exact Nat.sub_eq_of_eq_add hopen
    rw [hposition', hbuys'', hsells'', hopen']
    rfl
  unfold RiskEngineState.settle
  simp only [show next.reservation? order.orderId = some (reservationOf order) from hnext.reservation? hr]
  rw [if_neg (Nat.not_lt.mpr hzero)]
  unfold RiskEngineState.settleReservation
  simp only [hlookup, hexposure, Unsigned.checkedSub_of_le hone]
  have hdropped : (next.dropReservation order.orderId).reservations = state.reservations := by
    show (state.reservations ++ [reservationOf order]).filter _ = _
    rw [List.filter_append, List.filter_cons_of_neg (by simp [reservationOf]), List.filter_nil,
      List.append_nil, List.filter_eq_self]
    intro r hr
    simpa using (h.ordered.lt_of_fresh hfresh r hr).ne
  have haccounts : (next.putAccount account).accounts = state.accounts :=
    h.ordered.putAccount_back hmem hid'
  show Except.ok ((), ((next.putAccount (account'.withTotals position buys' sells'
    (Unsigned.monus account'.openOrders 1))).dropReservation order.orderId)) = _
  rw [hback]
  show Except.ok ((), RiskEngineState.mk (next.putAccount account).accounts
    (next.dropReservation order.orderId).reservations (some order.orderId) state.killed) = _
  rw [haccounts, hdropped]

/-- What an accepted reservation has passed, and where it leads. -/
theorem Ordered.checkAndReserve_eq_ok (h : state.Ordered) {ORDERS : ℕ} {order : NewOrder}
    {state' : RiskEngineState} (hok : state.checkAndReserve ORDERS order = .ok ((), state')) :
    ∃ account buys sells openOrders, account ∈ state.accounts ∧ account.id = order.accountId ∧
      evaluateLimits account order = .ok (buys, sells, openOrders) ∧ 0 < order.quantity.val ∧
      (∀ maximum ∈ state.maximumOrderId, maximum < order.orderId) ∧
      state' = (state.putAccount (account.withTotals account.settledPosition buys sells
        openOrders)).addReservation (reservationOf order) := by
  unfold RiskEngineState.checkAndReserve at hok
  split at hok
  · simp at hok
  split at hok
  · simp at hok
  next hquantity =>
  split at hok
  · simp at hok
  next hmaximum =>
  split at hok
  · simp at hok
  split at hok
  · simp at hok
  next account hlookup =>
  split at hok
  · simp at hok
  next buys sells openOrders hlimits =>
  obtain ⟨hmem, hid⟩ := h.account?_eq_some.mp hlookup
  have hfresh : ∀ maximum ∈ state.maximumOrderId, maximum < order.orderId := by
    intro maximum hmem
    by_contra hle
    apply hmaximum
    rw [Option.any_eq_true]
    exact ⟨maximum, hmem, decide_eq_true (not_lt.mp hle)⟩
  obtain ⟨-, rfl⟩ := Prod.ext_iff.mp (Except.ok.inj hok)
  exact ⟨account, buys, sells, openOrders, hmem, hid, hlimits, Nat.pos_of_ne_zero hquantity, hfresh, rfl⟩

/-- An accepted order is reserved in full, within the limits of its account. -/
theorem Consistent.checkAndReserve (h : state.Consistent) {ORDERS : ℕ} {order : NewOrder}
    {state' : RiskEngineState} (hok : state.checkAndReserve ORDERS order = .ok ((), state')) :
    Reserved state order state' := by
  obtain ⟨account, buys, sells, openOrders, hmem, hid, hlimits, hquantity, hfresh, rfl⟩ :=
    h.ordered.checkAndReserve_eq_ok hok
  exact
    { consistent := h.addReservation hmem hid hlimits hfresh
      reservations := rfl
      killed := rfl
      profiles := h.ordered.putAccount_profiles hmem rfl
      settled := h.ordered.settled_withTotals hmem buys sells openOrders
      watermark := rfl
      fresh := hfresh
      quantity := hquantity
      admits := ⟨account, hmem, hid, (evaluateLimits_ok hlimits).1⟩
      release := h.settle_addReservation hmem hid hlimits hfresh }

/-- A later order id as the watermark. -/
theorem Consistent.raiseWatermark (h : state.Consistent) {orderId : OrderId}
    (hle : ∀ maximum ∈ state.maximumOrderId, maximum ≤ orderId) :
    RiskEngineState.Consistent { state with maximumOrderId := some orderId } := by
  refine ⟨⟨h.ordered.accounts, h.ordered.reservations, ?_⟩, h.limits, h.registered, h.account⟩
  intro r hr
  obtain ⟨maximum, hmaximum, hle'⟩ := h.ordered.watermark r hr
  exact ⟨orderId, rfl, hle'.trans (hle maximum hmaximum)⟩

/-! ## Amendments -/

theorem evaluateIncrease_ok {side : Side} {price : PriceTicks} {added newTotal : Quantity}
    {totals : U128 × U128} (h : evaluateIncrease account side price added newTotal = .ok totals) :
    totals.1.val = account.reservedBuys.val + onSide side .buy added.val ∧
      totals.2.val = account.reservedSells.val + onSide side .sell added.val ∧
      account.settledPosition.val + totals.1.val ≤ account.limits.maxAbsPosition.val ∧
      -(account.limits.maxAbsPosition.val : ℤ) ≤ account.settledPosition.val - totals.2.val ∧
      |price.val| * newTotal.val ≤ account.limits.maxNotional.val := by
  unfold evaluateIncrease at h
  obtain ⟨totals', htotals, h⟩ := except_bind_eq_ok.mp h
  obtain ⟨n, hn, h⟩ := except_bind_eq_ok.mp h
  split at h
  · simp at h
  next hnotional =>
  obtain ⟨_, hposition, h⟩ := except_bind_eq_ok.mp h
  obtain rfl := Except.ok.inj h
  obtain ⟨hbuys, hsells⟩ := addReserved_ok htotals
  obtain ⟨hlong, hshort⟩ := checkPosition_ok hposition
  refine ⟨hbuys, hsells, hlong, hshort, ?_⟩
  rw [← notional_ok hn]
  exact_mod_cast Nat.not_lt.mp hnotional

/-- The reserved totals of an account follow a reservation to a new quantity. -/
def Follows (account : AccountRiskState) (r : ReservationRiskState) (quantity : ℕ)
    (totals : U128 × U128) : Prop :=
  match r.side with
  | .buy => totals.1.val + r.quantity.val = account.reservedBuys.val + quantity ∧
    totals.2 = account.reservedSells
  | .sell => totals.2.val + r.quantity.val = account.reservedSells.val + quantity ∧
    totals.1 = account.reservedBuys

theorem Follows.added {quantity : Quantity} {totals : U128 × U128}
    (hlt : r.quantity.val < quantity.val)
    (hbuys : totals.1.val = account.reservedBuys.val +
      onSide r.side .buy (Unsigned.monus quantity r.quantity).val)
    (hsells : totals.2.val = account.reservedSells.val +
      onSide r.side .sell (Unsigned.monus quantity r.quantity).val) :
    Follows account r quantity.val totals := by
  rw [Unsigned.monus_val] at hbuys hsells
  unfold Follows
  cases hside : r.side with
  | buy =>
    simp only [hside, onSide, if_true, reduceCtorEq, if_false] at hbuys hsells
    exact ⟨by omega, Fin.ext hsells⟩
  | sell =>
    simp only [hside, onSide, if_true, reduceCtorEq, if_false] at hbuys hsells
    exact ⟨by omega, Fin.ext hbuys⟩

theorem Follows.subtracted {quantity : Quantity} {totals : U128 × U128}
    (hle : quantity.val ≤ r.quantity.val) (hreserved : r.quantity.val ≤ (account.reserved r.side).val)
    (hbuys : totals.1.val = account.reservedBuys.val -
      onSide r.side .buy (Unsigned.monus r.quantity quantity).val)
    (hsells : totals.2.val = account.reservedSells.val -
      onSide r.side .sell (Unsigned.monus r.quantity quantity).val) :
    Follows account r quantity.val totals := by
  rw [Unsigned.monus_val] at hbuys hsells
  unfold Follows
  cases hside : r.side with
  | buy =>
    simp only [hside, onSide, if_true, reduceCtorEq, if_false] at hbuys hsells
    rw [hside] at hreserved
    have hreserved' : r.quantity.val ≤ account.reservedBuys.val := hreserved
    exact ⟨by omega, Fin.ext hsells⟩
  | sell =>
    simp only [hside, onSide, if_true, reduceCtorEq, if_false] at hbuys hsells
    rw [hside] at hreserved
    have hreserved' : r.quantity.val ≤ account.reservedSells.val := hreserved
    exact ⟨by omega, Fin.ext hbuys⟩

theorem Follows.reserved {quantity : Quantity} {totals : U128 × U128}
    (h : Follows account r quantity.val totals) (side : Side) :
    ((account.withTotals account.settledPosition totals.1 totals.2 account.openOrders).reserved side).val +
        exposureOf side r.accountId r =
      (account.reserved side).val +
        reservedTotal side r.accountId [{ r with quantity := quantity }] := by
  unfold Follows at h
  simp only [exposureOf, true_and, reservedTotal_cons, reservedTotal_nil, Nat.add_zero]
  cases hside : r.side <;> cases side <;>
    simp_all [AccountRiskState.reserved, AccountRiskState.withTotals]

/-- The totals that follow a reservation lead back from its new quantity. -/
theorem Follows.restoredTotals {quantity : Quantity} {totals : U128 × U128}
    (h : Follows account r quantity.val totals) :
    RiskEngineState.restoredTotals
      { account with reservedBuys := totals.1, reservedSells := totals.2 } r.side quantity r.quantity =
        .ok (account.reservedBuys, account.reservedSells) := by
  unfold Follows at h
  unfold RiskEngineState.restoredTotals
  cases hside : r.side with
  | buy =>
    simp only [hside] at h
    obtain ⟨hsum, hother⟩ := h
    split
    · next hlt =>
      have hadd : Unsigned.checkedAdd totals.1 (exposure (Unsigned.monus r.quantity quantity)) =
          some account.reservedBuys := by
        rw [Unsigned.checkedAdd_eq_some, exposure_val, Unsigned.monus_val]
        omega
      simp only [addReserved, hadd, hother]
      rfl
    · next hlt =>
      have hsub : Unsigned.checkedSub totals.1 (exposure (Unsigned.monus quantity r.quantity)) =
          some account.reservedBuys := by
        rw [Unsigned.checkedSub_eq_some, exposure_val, Unsigned.monus_val]
        omega
      simp only [subReserved, hsub, hother]
      rfl
  | sell =>
    simp only [hside] at h
    obtain ⟨hsum, hother⟩ := h
    split
    · next hlt =>
      have hadd : Unsigned.checkedAdd totals.2 (exposure (Unsigned.monus r.quantity quantity)) =
          some account.reservedSells := by
        rw [Unsigned.checkedAdd_eq_some, exposure_val, Unsigned.monus_val]
        omega
      simp only [addReserved, hadd, hother]
      rfl
    · next hlt =>
      have hsub : Unsigned.checkedSub totals.2 (exposure (Unsigned.monus quantity r.quantity)) =
          some account.reservedSells := by
        rw [Unsigned.checkedSub_eq_some, exposure_val, Unsigned.monus_val]
        omega
      simp only [subReserved, hsub, hother]
      rfl

section Amend

variable {quantity : Quantity} {totals : U128 × U128} (h : state.Consistent)
  (hr : r ∈ state.reservations) (hmem : account ∈ state.accounts) (hid : account.id = r.accountId)
  (hfollows : Follows account r quantity.val totals)
  (hlong : account.settledPosition.val + totals.1.val ≤ account.limits.maxAbsPosition.val)
  (hshort : -(account.limits.maxAbsPosition.val : ℤ) ≤ account.settledPosition.val - totals.2.val)

include h hr hmem hid hfollows hlong hshort

theorem Consistent.amend :
    Exchanged state r [{ r with quantity := quantity }] 0 (state.amend account totals r quantity) := by
  obtain ⟨xs, ys, hsplit, _, hput⟩ := h.ordered.split hr
  refine h.exchange hmem hid
    (account.withTotals account.settledPosition totals.1 totals.2 account.openOrders) rfl rfl
    ((h.ordered.putAccount _).putReservation _) hsplit (by simp)
    (hput { r with quantity := quantity } rfl) ?_ rfl (h.account account hmem).openOrders_le hlong hshort
    (add_zero _).symm rfl rfl
  exact hfollows.reserved

/-- Restoring the quantity from before an amendment gives the state from before it. -/
theorem Consistent.restore_amend (hne : quantity ≠ r.quantity) :
    (state.amend account totals r quantity).restoreReservation r.orderId r.accountId r.quantity =
      .ok ((), state) := by
  have hexchanged := h.amend hr hmem hid hfollows hlong hshort
  obtain ⟨xs, ys, hsplit, _, hput⟩ := h.ordered.split hr
  set account' : AccountRiskState :=
    { account with reservedBuys := totals.1, reservedSells := totals.2 } with haccount'
  set next := state.amend account totals r quantity with hnext
  have hid' : account'.id = account.id := rfl
  have hmem' : account' ∈ next.accounts := (mem_putAccount hmem hid').mpr (.inl rfl)
  have hr' : { r with quantity := quantity } ∈ next.reservations := by
    show _ ∈ (state.putReservation { r with quantity := quantity }).reservations
    rw [hput { r with quantity := quantity } rfl]
    simp
  have hlookup : next.account? r.accountId = some account' :=
    hexchanged.consistent.ordered.account?_eq_some.mpr ⟨hmem', hid⟩
  unfold RiskEngineState.restoreReservation
  simp only [show next.reservation? r.orderId = some { r with quantity := quantity } from
    hexchanged.consistent.reservation? hr']
  rw [if_neg (not_not.mpr rfl), if_neg hne]
  simp only [hlookup, haccount', hfollows.restoredTotals]
  have haccounts : (next.putAccount account).accounts = state.accounts :=
    h.ordered.putAccount_back hmem hid'
  have hreservations : (next.putReservation r).reservations = state.reservations :=
    h.ordered.putReservation_back hr
      (by rfl : ({ r with quantity := quantity } : ReservationRiskState).orderId = r.orderId)
  show Except.ok ((), RiskEngineState.mk (next.putAccount account).accounts
    (next.putReservation r).reservations state.maximumOrderId state.killed) = _
  rw [haccounts, hreservations]

end Amend

theorem Exchanged.refl (h : state.Consistent) (r : ReservationRiskState) : Exchanged state r [r] 0 state :=
  ⟨h, ⟨rfl, rfl, rfl⟩, fun _ ↦ by simp, fun _ hperm ↦ hperm⟩

theorem released_of_le {newQuantity prior : Quantity} (hle : prior.val ≤ newQuantity.val) :
    (0 : Quantity) = Unsigned.monus prior newQuantity := by
  apply Fin.ext
  rw [Unsigned.monus_val, Nat.sub_eq_zero_of_le hle]
  rfl

/-- An accepted amendment is undone exactly by a restoration of the prior quantity. -/
theorem Consistent.adjustReservation (h : state.Consistent) {orderId : OrderId} {accountId : AccountId}
    {price : PriceTicks} {newQuantity released prior : Quantity} {state' : RiskEngineState}
    (hok : state.adjustReservation orderId accountId price newQuantity =
      .ok ((released, prior), state')) :
    ∃ r ∈ state.reservations, r.orderId = orderId ∧ r.accountId = accountId ∧ prior = r.quantity ∧
      released = Unsigned.monus r.quantity newQuantity ∧
      Exchanged state r [{ r with quantity := newQuantity }] 0 state' ∧
      state'.restoreReservation orderId accountId prior = .ok ((), state) ∧
      (r.quantity.val < newQuantity.val → ∀ account ∈ state.accounts, account.id = accountId →
        |price.val| * newQuantity.val ≤ account.limits.maxNotional.val) := by
  unfold RiskEngineState.adjustReservation at hok
  split at hok
  · simp at hok
  next r hlookup =>
  obtain ⟨hr, rfl⟩ := h.ordered.reservation?_eq_some.mp hlookup
  split at hok
  · simp at hok
  next howner =>
  obtain rfl := not_not.mp howner
  refine ⟨r, hr, rfl, rfl, ?_⟩
  obtain ⟨account, haccount, hmem, hid⟩ := h.exists_account hr
  have hprior := h.account account hmem
  have hquantity := h.quantity_le hr hmem hid
  split at hok
  · next heq =>
    obtain ⟨hpair, rfl⟩ := Prod.ext_iff.mp (Except.ok.inj hok)
    obtain ⟨rfl, rfl⟩ := Prod.ext_iff.mp hpair
    subst heq
    refine ⟨rfl, released_of_le le_rfl, Exchanged.refl h r, ?_, fun hlt ↦ absurd hlt (lt_irrefl _)⟩
    unfold RiskEngineState.restoreReservation
    simp only [hlookup]
    rw [if_neg (not_not.mpr rfl), if_pos trivial]
  next hne =>
  simp only [haccount] at hok
  split at hok
  · next hlt =>
    split at hok
    · simp at hok
    next totals hincrease =>
    obtain ⟨hbuys, hsells, hlong, hshort, hnotional⟩ := evaluateIncrease_ok hincrease
    have hfollows := Follows.added hlt hbuys hsells
    obtain ⟨hpair, rfl⟩ := Prod.ext_iff.mp (Except.ok.inj hok)
    obtain ⟨rfl, rfl⟩ := Prod.ext_iff.mp hpair
    refine ⟨rfl, released_of_le hlt.le, h.amend hr hmem hid hfollows hlong hshort,
      h.restore_amend hr hmem hid hfollows hlong hshort hne, ?_⟩
    intro _ account' hmem' hid'
    rw [List.inj_on_of_nodup_map h.ordered.ids_nodup hmem' hmem (hid'.trans hid.symm)]
    exact hnotional
  · next hge =>
    have hle := Nat.not_lt.mp hge
    have hmonus : (Unsigned.monus r.quantity newQuantity).val ≤ (account.reserved r.side).val :=
      (Nat.sub_le _ _).trans hquantity
    obtain ⟨totals, htotals, hbuys, hsells⟩ := subReserved_ok hmonus
    simp only [htotals] at hok
    have hlong : account.settledPosition.val + totals.1.val ≤ account.limits.maxAbsPosition.val := by
      have := hprior.long
      omega
    have hshort : -(account.limits.maxAbsPosition.val : ℤ) ≤
        account.settledPosition.val - totals.2.val := by
      have := hprior.short
      omega
    have hfollows := Follows.subtracted hle hquantity hbuys hsells
    obtain ⟨hpair, rfl⟩ := Prod.ext_iff.mp (Except.ok.inj hok)
    obtain ⟨rfl, rfl⟩ := Prod.ext_iff.mp hpair
    exact ⟨rfl, rfl, h.amend hr hmem hid hfollows hlong hshort,
      h.restore_amend hr hmem hid hfollows hlong hshort hne, fun hlt ↦ absurd hlt (Nat.not_lt.mpr hle)⟩

/-! ## Registration and kill switches -/

theorem Consistent.empty : RiskEngineState.empty.Consistent :=
  ⟨Ordered.empty, by simp [RiskEngineState.empty], by simp [RiskEngineState.empty],
    by simp [RiskEngineState.empty]⟩

theorem Consistent.setKillSwitch (h : state.Consistent) (killed : Bool) :
    { state with killed := killed }.Consistent :=
  ⟨⟨h.ordered.accounts, h.ordered.reservations, h.ordered.watermark⟩, h.limits, h.registered, h.account⟩

theorem Ordered.setAccountKillSwitch_eq_ok (h : state.Ordered) {accountId : AccountId} {killed : Bool}
    {state' : RiskEngineState} (hok : state.setAccountKillSwitch accountId killed = .ok ((), state')) :
    ∃ account ∈ state.accounts, state' = state.putAccount { account with killed := killed } := by
  unfold RiskEngineState.setAccountKillSwitch at hok
  split at hok
  · simp at hok
  next account haccount =>
  obtain ⟨hmem, _⟩ := h.account?_eq_some.mp haccount
  obtain ⟨_, rfl⟩ := Prod.ext_iff.mp (Except.ok.inj hok)
  exact ⟨account, hmem, rfl⟩

/-- Switching an account off or on leaves its totals. -/
theorem Balanced.putKilled (h : state.Balanced) (hmem : account ∈ state.accounts) (killed : Bool) :
    (state.putAccount { account with killed := killed }).Balanced := by
  have hprior := h.account account hmem
  have hid : ({ account with killed := killed } : AccountRiskState).id = account.id := rfl
  refine h.update hmem hid rfl (h.ordered.putAccount _) (fun r hr ↦ .inl hr)
    (fun _ _ ↦ ⟨fun _ ↦ rfl, rfl⟩) ⟨?_, hprior.openOrders, hprior.openOrders_le⟩
  intro side
  rw [show ({ account with killed := killed } : AccountRiskState).reserved side = account.reserved side by
    cases side <;> rfl]
  exact hprior.reserved side

theorem Consistent.setAccountKillSwitch (h : state.Consistent) {accountId : AccountId} {killed : Bool}
    {state' : RiskEngineState} (hok : state.setAccountKillSwitch accountId killed = .ok ((), state')) :
    state'.Consistent ∧ state'.reservations = state.reservations ∧
      state'.maximumOrderId = state.maximumOrderId := by
  obtain ⟨account, hmem, rfl⟩ := h.ordered.setAccountKillSwitch_eq_ok hok
  have hprior := h.account account hmem
  have hid : ({ account with killed := killed } : AccountRiskState).id = account.id := rfl
  exact ⟨h.update hmem hid rfl rfl (h.balanced.putKilled hmem killed) hprior.long hprior.short, rfl, rfl⟩

theorem Ordered.positions_setAccountKillSwitch (h : state.Ordered) {accountId : AccountId} {killed : Bool}
    {state' : RiskEngineState} (hok : state.setAccountKillSwitch accountId killed = .ok ((), state')) :
    ∀ account' ∈ state'.accounts, ∃ account ∈ state.accounts,
      account'.settledPosition = account.settledPosition := by
  obtain ⟨account, hmem, rfl⟩ := h.setAccountKillSwitch_eq_ok hok
  have hid : ({ account with killed := killed } : AccountRiskState).id = account.id := rfl
  intro account' hmem'
  rcases (mem_putAccount hmem hid).mp hmem' with rfl | ⟨hmem', _⟩
  · exact ⟨account, hmem, rfl⟩
  · exact ⟨account', hmem', rfl⟩

theorem registerAccount_eq_ok {ACCOUNTS : ℕ} {id : AccountId} {limits : RiskLimits}
    {state' : RiskEngineState} (hok : state.registerAccount ACCOUNTS id limits = .ok ((), state')) :
    limits.invalid = false ∧ state.account? id = none ∧
      state' = { state with
        accounts := state.accounts.orderedInsert (fun a b ↦ a.id ≤ b.id)
          ⟨id, limits, Signed.zero 128, 0, 0, 0, false⟩ } := by
  unfold RiskEngineState.registerAccount at hok
  split at hok
  · simp at hok
  next hvalid =>
  split at hok
  · simp at hok
  next hnew =>
  split at hok
  · simp at hok
  obtain ⟨_, rfl⟩ := Prod.ext_iff.mp (Except.ok.inj hok)
  exact ⟨Bool.eq_false_iff.mpr hvalid, by simpa using hnew, rfl⟩

/-- A new account has nothing reserved, and no reservation names it. -/
theorem Balanced.insertAccount (h : state.Balanced) {id : AccountId} (limits : RiskLimits)
    (hnew : state.account? id = none) :
    RiskEngineState.Balanced { state with
      accounts := state.accounts.orderedInsert (fun a b ↦ a.id ≤ b.id)
        ⟨id, limits, Signed.zero 128, 0, 0, 0, false⟩ } := by
  have hout := account?_eq_none.mp hnew
  have hforeign : ∀ r ∈ state.reservations, r.accountId ≠ id := by
    intro r hr heq
    obtain ⟨account, hmem, hid⟩ := h.registered r hr
    exact hout account hmem (hid.trans heq)
  refine ⟨⟨KeyOrder.orderedInsert h.ordered.accounts fun a ha heq ↦ hout a ha heq,
    h.ordered.reservations, h.ordered.watermark⟩, ?_, ?_⟩
  · intro r hr
    obtain ⟨account, hmem, hid⟩ := h.registered r hr
    exact ⟨account, (List.mem_orderedInsert _).mpr (.inr hmem), hid⟩
  · intro account hmem
    rcases (List.mem_orderedInsert _).mp hmem with rfl | hmem
    · refine ⟨?_, (openCount_of_ne hforeign).symm, Nat.zero_le _⟩
      intro side
      rw [reservedTotal_of_ne hforeign side]
      cases side <;> rfl
    · exact h.account account hmem

theorem Consistent.registerAccount (h : state.Consistent) {ACCOUNTS : ℕ} {id : AccountId}
    {limits : RiskLimits} {state' : RiskEngineState}
    (hok : state.registerAccount ACCOUNTS id limits = .ok ((), state')) :
    state'.Consistent ∧ state'.reservations = state.reservations ∧
      state'.maximumOrderId = state.maximumOrderId := by
  obtain ⟨hvalid, hnew, rfl⟩ := registerAccount_eq_ok hok
  have hbalanced := h.balanced.insertAccount limits hnew
  refine ⟨⟨hbalanced.ordered, ?_, hbalanced.registered, ?_⟩, rfl, rfl⟩
  · intro account hmem
    rcases (List.mem_orderedInsert _).mp hmem with rfl | hmem
    · exact hvalid
    · exact h.limits account hmem
  · intro account hmem
    obtain ⟨hreserved, hopen, hopen_le⟩ := hbalanced.account account hmem
    rcases (List.mem_orderedInsert _).mp hmem with rfl | hmem
    · refine ⟨hreserved, hopen, hopen_le, Int.natCast_nonneg _, ?_⟩
      show -(limits.maxAbsPosition.val : ℤ) ≤ 0 - ((0 : ℕ) : ℤ)
      omega
    · have hprior := h.account account hmem
      exact ⟨hreserved, hopen, hopen_le, hprior.long, hprior.short⟩

theorem positions_registerAccount {ACCOUNTS : ℕ} {id : AccountId} {limits : RiskLimits}
    {state' : RiskEngineState} (hok : state.registerAccount ACCOUNTS id limits = .ok ((), state')) :
    ∀ account' ∈ state'.accounts, account'.settledPosition.val = 0 ∨ account' ∈ state.accounts := by
  obtain ⟨_, _, rfl⟩ := registerAccount_eq_ok hok
  intro account' hmem'
  rcases (List.mem_orderedInsert _).mp hmem' with rfl | hmem'
  · exact .inl rfl
  · exact .inr hmem'

end RiskEngineState

end DeterministicExchange.Risk
