import DeterministicExchange.Gateway.Invariant
import DeterministicExchange.Gateway.Refinement
import DeterministicExchange.Gateway.State
import DeterministicExchange.Risk.Restore

/-!
# Exporting and restoring gateways

A represented gateway exports the state of its logical gateway. A state is
accepted exactly when it is the state of a restorable gateway: one whose risk and
book agree and whose resting orders respect the limits of their accounts. The
rebuilt gateway represents that logical gateway.
-/

namespace DeterministicExchange

open Machine Book Risk

namespace Logical.Gateway

variable {ACCOUNTS RISK_ORDERS LEVELS ORDERS : ℕ} {gateway : Logical.Gateway}

/-- The exported form of a logical gateway. -/
def state (LEVELS ORDERS : ℕ) (gateway : Logical.Gateway) : GatewayState LEVELS ORDERS where
  instrument := gateway.book.instrument
  book := gateway.book.state LEVELS ORDERS
  risk := gateway.risk
  expectedSequence := gateway.expectedSequence
  maximumReceivedOrderId := gateway.maximumReceivedOrderId

/-- Every resting order respects the limits of its account. -/
def Limited (gateway : Logical.Gateway) : Prop :=
  ∀ account ∈ gateway.risk.accounts, ∀ entry ∈ gateway.book.entries,
    entry.2.2.accountId = account.id → account.limits.Admits entry.2.1 entry.2.2.quantity

/-- What a gateway must satisfy to be restored. -/
structure Restorable (ACCOUNTS RISK_ORDERS LEVELS ORDERS : ℕ) (gateway : Logical.Gateway) : Prop where
  invariant : gateway.Invariant LEVELS ORDERS
  limited : gateway.Limited
  accounts_le : gateway.risk.accounts.length ≤ ACCOUNTS
  reservations_le : gateway.risk.reservations.length ≤ RISK_ORDERS

theorem Invariant.positive (h : gateway.Invariant LEVELS ORDERS) :
    ∀ r ∈ gateway.risk.reservations, 0 < r.quantity.val := by
  intro r hr
  obtain ⟨entry, hentry, rfl⟩ := h.backed_entry hr
  exact h.book.compatible.quantity_pos entry hentry

/-- Agreeing gateways with one state are equal. -/
theorem Invariant.eq_of_state {gateway' : Logical.Gateway} (h : gateway.Invariant LEVELS ORDERS)
    (h' : gateway'.Invariant LEVELS ORDERS)
    (hsame : gateway.state LEVELS ORDERS = gateway'.state LEVELS ORDERS) :
    gateway = gateway' := by
  have hbook : gateway.book = gateway'.book :=
    calc
      gateway.book = Logical.bookOf (gateway.book.state LEVELS ORDERS) := (bookOf_state h.book).symm
      _ = Logical.bookOf (gateway'.book.state LEVELS ORDERS) :=
        congrArg (fun state ↦ Logical.bookOf state.book) hsame
      _ = gateway'.book := bookOf_state h'.book
  obtain ⟨risk, book, expected, maximum⟩ := gateway
  obtain ⟨risk', book', expected', maximum'⟩ := gateway'
  obtain rfl : book = book' := hbook
  obtain rfl : risk = risk' := congrArg GatewayState.risk hsame
  obtain rfl : expected = expected' := congrArg GatewayState.expectedSequence hsame
  obtain rfl : maximum = maximum' := congrArg GatewayState.maximumReceivedOrderId hsame
  rfl

theorem Restorable.risk (h : gateway.Restorable ACCOUNTS RISK_ORDERS LEVELS ORDERS) :
    gateway.risk.Restorable ACCOUNTS RISK_ORDERS :=
  ⟨h.invariant.risk, h.invariant.positive, h.accounts_le, h.reservations_le⟩

/-! ## Validation across components -/

/-- The limit checks of a resting order with a positive price. -/
theorem checkLimits_eq_ok {limits : RiskLimits} {price : PriceTicks} {quantity : Quantity}
    (hprice : 0 < price.val) :
    (do
      let unsigned ← okOr GatewayStateError.orderLimit (Signed.toUnsigned? 128 price)
      let notional ← okOr GatewayStateError.orderLimit (Unsigned.checkedMul unsigned (exposure quantity))
      if limits.maxQuantity.val < quantity.val ∨ price.val < limits.minimumPrice.val ∨
          limits.maximumPrice.val < price.val ∨ limits.maxNotional.val < notional.val then
        .error .orderLimit
      else return ()) = Except.ok () ↔ limits.Admits price quantity := by
  have hupper := price.property.2
  have hquantity := quantity.isLt
  have hlt : price.val.toNat < 2 ^ 128 := by
    norm_num at hupper
    omega
  have hunsigned : Signed.toUnsigned? 128 price = some ⟨price.val.toNat, hlt⟩ := by
    rw [Signed.toUnsigned?, if_pos hprice.le, Unsigned.ofNat?_of_lt hlt]
  have hproduct : price.val.toNat * (exposure quantity).val < 2 ^ 128 := by
    rw [exposure_val]
    calc
      price.val.toNat * quantity.val < 2 ^ 64 * 2 ^ 64 := by
        apply Nat.mul_lt_mul'' _ hquantity
        norm_num at hupper
        omega
      _ = 2 ^ 128 := by norm_num
  have hmul : Unsigned.checkedMul ⟨price.val.toNat, hlt⟩ (exposure quantity) =
      some ⟨price.val.toNat * (exposure quantity).val, hproduct⟩ := Unsigned.ofNat?_of_lt hproduct
  have hnotional : |price.val| * quantity.val = ((price.val.toNat * (exposure quantity).val : ℕ) : ℤ) := by
    rw [abs_of_pos hprice, Nat.cast_mul, Int.toNat_of_nonneg hprice.le, exposure_val]
  rw [hunsigned]
  show (do
    let notional ← okOr GatewayStateError.orderLimit
      (Unsigned.checkedMul ⟨price.val.toNat, hlt⟩ (exposure quantity))
    _) = _ ↔ _
  rw [hmul]
  show (if _ then _ else _) = _ ↔ _
  unfold RiskLimits.Admits
  rw [hnotional]
  split
  · next hexceeded =>
    simp only [reduceCtorEq, false_iff]
    rintro ⟨h1, h2, h3, h4⟩
    rcases hexceeded with h | h | h | h
    · omega
    · omega
    · omega
    · exact absurd h4 (not_le.mpr (by exact_mod_cast h))
  · next hwithin =>
    push Not at hwithin
    refine iff_of_true rfl ⟨hwithin.1, hwithin.2.1, hwithin.2.2.1, ?_⟩
    exact_mod_cast hwithin.2.2.2

/-- What the check of one resting order establishes. -/
def OrderAgrees (gateway : Logical.Gateway) (entry : Entry) : Prop :=
  entry.2.2.sequence < gateway.expectedSequence ∧
    (∃ maximum ∈ gateway.maximumReceivedOrderId, entry.2.2.id ≤ maximum) ∧
    backing entry ∈ gateway.risk.reservations ∧
    ∃ account ∈ gateway.risk.accounts, account.id = entry.2.2.accountId ∧
      account.limits.Admits entry.2.1 entry.2.2.quantity

theorem watermark_check {maximum : Option OrderId} {id : OrderId} :
    ¬ (maximum.all fun m ↦ m < id) = true ↔ ∃ m ∈ maximum, id ≤ m := by
  cases maximum with
  | none => simp
  | some m => simp

theorem validateOrder_eq_ok (hordered : gateway.risk.Ordered) {entry : Entry} (hprice : 0 < entry.2.1.val) :
    DeterministicExchange.Gateway.validateOrder (gateway.state LEVELS ORDERS)
        (orderState entry.1 entry.2.1 entry.2.2) = .ok () ↔ gateway.OrderAgrees entry := by
  unfold DeterministicExchange.Gateway.validateOrder OrderAgrees
  show (if gateway.expectedSequence.val ≤ entry.2.2.sequence.val then _
    else if (gateway.maximumReceivedOrderId.all fun maximum ↦ maximum < entry.2.2.id) = true then _
    else _) = _ ↔ _
  have hfind : (gateway.state LEVELS ORDERS).risk.reservations.find? (fun reservation ↦
      reservation.orderId = (orderState entry.1 entry.2.1 entry.2.2).orderId) =
      gateway.risk.reservation? entry.2.2.id := rfl
  rw [hfind]
  by_cases hsequence : gateway.expectedSequence.val ≤ entry.2.2.sequence.val
  · rw [if_pos hsequence]
    simp only [reduceCtorEq, false_iff]
    rintro ⟨hlt, _⟩
    exact absurd hlt (not_lt.mpr hsequence)
  rw [if_neg hsequence]
  by_cases hwatermark : (gateway.maximumReceivedOrderId.all fun maximum ↦ maximum < entry.2.2.id) = true
  · rw [if_pos hwatermark]
    simp only [reduceCtorEq, false_iff]
    rintro ⟨_, hle, _⟩
    exact watermark_check.mpr hle hwatermark
  rw [if_neg hwatermark]
  have hfixed : entry.2.2.sequence < gateway.expectedSequence ∧
      ∃ maximum ∈ gateway.maximumReceivedOrderId, entry.2.2.id ≤ maximum :=
    ⟨not_le.mp hsequence, watermark_check.mp hwatermark⟩
  cases hreservation : gateway.risk.reservation? entry.2.2.id with
  | none =>
    simp only [reduceCtorEq, false_iff]
    rintro ⟨_, _, hmem, _⟩
    exact RiskEngineState.reservation?_eq_none.mp hreservation _ hmem rfl
  | some r =>
    obtain ⟨hr, hid⟩ := hordered.reservation?_eq_some.mp hreservation
    simp only
    by_cases hmismatch : r.accountId ≠ entry.2.2.accountId ∨ r.side ≠ entry.1 ∨
        r.quantity ≠ entry.2.2.quantity
    · have hmismatch' : r.accountId ≠ (orderState entry.1 entry.2.1 entry.2.2).accountId ∨
          r.side ≠ (orderState entry.1 entry.2.1 entry.2.2).side ∨
          r.quantity ≠ (orderState entry.1 entry.2.1 entry.2.2).quantity := hmismatch
      rw [if_pos hmismatch']
      simp only [reduceCtorEq, false_iff]
      rintro ⟨_, _, hmem, _⟩
      have hsame : backing entry = r :=
        List.inj_on_of_nodup_map hordered.orderIds_nodup hmem hr (hid.symm)
      rw [← hsame] at hmismatch
      simp [backing] at hmismatch
    · have hmatch : backing entry = r := by
        push Not at hmismatch
        obtain ⟨haccount, hside, hquantity⟩ := hmismatch
        unfold backing
        rw [← hid, ← haccount, ← hside, ← hquantity]
      have hmismatch' : ¬ (r.accountId ≠ (orderState entry.1 entry.2.1 entry.2.2).accountId ∨
          r.side ≠ (orderState entry.1 entry.2.1 entry.2.2).side ∨
          r.quantity ≠ (orderState entry.1 entry.2.1 entry.2.2).quantity) := hmismatch
      rw [if_neg hmismatch']
      have hfindAccount : (gateway.state LEVELS ORDERS).risk.accounts.find? (fun account ↦
          account.id = (orderState entry.1 entry.2.1 entry.2.2).accountId) =
          gateway.risk.account? entry.2.2.accountId := rfl
      rw [hfindAccount]
      cases haccount : gateway.risk.account? entry.2.2.accountId with
      | none =>
        simp only [reduceCtorEq, false_iff]
        rintro ⟨_, _, _, account, hmem, hid', _⟩
        exact RiskEngineState.account?_eq_none.mp haccount account hmem hid'
      | some account =>
        obtain ⟨hmem, hid'⟩ := hordered.account?_eq_some.mp haccount
        simp only
        refine (checkLimits_eq_ok hprice).trans ?_
        constructor
        · intro hadmits
          exact ⟨hfixed.1, hfixed.2, hmatch ▸ hr, account, hmem, hid', hadmits⟩
        · rintro ⟨_, _, _, account', hmem', hid'', hadmits⟩
          have hsame : account' = account := List.inj_on_of_nodup_map hordered.ids_nodup hmem' hmem
            (hid''.trans hid'.symm)
          rw [← hsame]
          exact hadmits

theorem validateOrders_eq_ok {state : GatewayState LEVELS ORDERS} {orders : List BookOrderState}
    {count total : ℕ} :
    DeterministicExchange.Gateway.validateOrders state orders count = .ok total ↔
      (∀ order ∈ orders, DeterministicExchange.Gateway.validateOrder state order = .ok ()) ∧
        total = count + orders.length := by
  induction orders generalizing count with
  | nil => simp [DeterministicExchange.Gateway.validateOrders, eq_comm]
  | cons order orders ih =>
    rw [DeterministicExchange.Gateway.validateOrders, except_bind_eq_ok, List.forall_mem_cons,
      List.length_cons]
    constructor
    · rintro ⟨_, horder, hrest⟩
      obtain ⟨hall, htotal⟩ := ih.mp hrest
      exact ⟨⟨horder, hall⟩, by omega⟩
    · rintro ⟨⟨horder, hall⟩, htotal⟩
      exact ⟨(), horder, ih.mpr ⟨hall, by omega⟩⟩

theorem exceeds_eq_false {a b : Option OrderId} :
    DeterministicExchange.Gateway.exceeds a b = false ↔ ∀ x ∈ a, ∃ y ∈ b, x ≤ y := by
  cases a with
  | none => simp [DeterministicExchange.Gateway.exceeds]
  | some x =>
    cases b with
    | none => simp [DeterministicExchange.Gateway.exceeds]
    | some y => simp [DeterministicExchange.Gateway.exceeds]

theorem Invariant.orderAgrees (h : gateway.Invariant LEVELS ORDERS) (hlimited : gateway.Limited)
    {entry : Entry} (hentry : entry ∈ gateway.book.entries) : gateway.OrderAgrees entry := by
  have hr : backing entry ∈ gateway.risk.reservations := h.backed.mem_iff.mpr (List.mem_map_of_mem hentry)
  obtain ⟨maximum, hmaximum, hle⟩ := h.risk.ordered.watermark _ hr
  obtain ⟨received, hreceived, hle'⟩ := h.watermark maximum hmaximum
  obtain ⟨account, hmem, hid⟩ := h.risk.registered _ hr
  exact ⟨h.sequences entry hentry, ⟨received, hreceived, hle.trans hle'⟩, hr, account, hmem, hid,
    hlimited account hmem entry hentry hid.symm⟩

/-- Orders that are each backed, and as many reservations, make the agreement. -/
theorem backed_of_length (hbook : gateway.book.Restorable LEVELS ORDERS)
    (hmem : ∀ entry ∈ gateway.book.entries, backing entry ∈ gateway.risk.reservations)
    (hlength : gateway.book.entries.length = gateway.risk.reservations.length) :
    gateway.risk.reservations.Perm (gateway.book.entries.map backing) := by
  have hnodup : (gateway.book.entries.map backing).Nodup := by
    have hids := hbook.ids
    refine List.Nodup.of_map (fun r : ReservationRiskState ↦ r.orderId) ?_
    rw [List.map_map]
    exact hids
  have hsub : (gateway.book.entries.map backing).Subperm gateway.risk.reservations := by
    refine List.subperm_of_subset hnodup ?_
    intro r hr
    obtain ⟨entry, hentry, rfl⟩ := List.mem_map.mp hr
    exact hmem entry hentry
  exact (hsub.perm_of_length_le (by rw [List.length_map, hlength])).symm

/-- The check across components accepts exactly agreement within the limits. -/
theorem validateCrossComponentState_eq_ok (hbook : gateway.book.Restorable LEVELS ORDERS)
    (hrisk : gateway.risk.Consistent) :
    DeterministicExchange.Gateway.validateCrossComponentState (gateway.state LEVELS ORDERS) = .ok () ↔
      gateway.Invariant LEVELS ORDERS ∧ gateway.Limited := by
  have hprice := hbook.compatible.price_pos
  have horders : OrderBook.stateOrders (gateway.state LEVELS ORDERS).book =
      gateway.book.entries.map fun entry ↦ orderState entry.1 entry.2.1 entry.2.2 :=
    stateOrders_state hbook
  unfold DeterministicExchange.Gateway.validateCrossComponentState
  constructor
  · intro h
    split at h
    · simp at h
    next hexpected =>
    split at h
    · simp at h
    next hexceeds =>
    obtain ⟨total, horders', h⟩ := except_bind_eq_ok.mp h
    split at h
    · simp at h
    next hlength =>
    rw [horders] at horders'
    obtain ⟨hall, rfl⟩ := validateOrders_eq_ok.mp horders'
    have hagrees : ∀ entry ∈ gateway.book.entries, gateway.OrderAgrees entry := fun entry hentry ↦
      (validateOrder_eq_ok hrisk.ordered (hprice entry hentry)).mp
        (hall _ (List.mem_map_of_mem hentry))
    rw [not_not, Nat.zero_add, List.length_map] at hlength
    have hlength' : gateway.book.entries.length = gateway.risk.reservations.length := hlength
    refine ⟨⟨hrisk, hbook, backed_of_length hbook (fun e he ↦ (hagrees e he).2.2.1) hlength',
      Nat.pos_of_ne_zero hexpected, fun e he ↦ (hagrees e he).1,
      exceeds_eq_false.mp (Bool.eq_false_iff.mpr hexceeds)⟩, ?_⟩
    intro account haccount entry hentry howner
    obtain ⟨_, _, _, account', hmem, hid, hadmits⟩ := hagrees entry hentry
    have hsame : account' = account :=
      List.inj_on_of_nodup_map hrisk.ordered.ids_nodup hmem haccount (hid.trans howner)
    rw [← hsame]
    exact hadmits
  · rintro ⟨h, hlimited⟩
    have hexpected : (gateway.state LEVELS ORDERS).expectedSequence.val ≠ 0 := h.expected_pos.ne'
    have hexceeds : ¬ DeterministicExchange.Gateway.exceeds (gateway.state LEVELS ORDERS).risk.maximumOrderId
        (gateway.state LEVELS ORDERS).maximumReceivedOrderId = true :=
      Bool.eq_false_iff.mp (exceeds_eq_false.mpr h.watermark)
    rw [if_neg hexpected, if_neg hexceeds]
    refine except_bind_eq_ok.mpr ⟨0 + gateway.book.entries.length, ?_, ?_⟩
    · rw [horders, validateOrders_eq_ok, List.length_map]
      refine ⟨?_, rfl⟩
      intro order horder
      obtain ⟨entry, hentry, rfl⟩ := List.mem_map.mp horder
      exact (validateOrder_eq_ok hrisk.ordered (hprice entry hentry)).mpr (h.orderAgrees hlimited hentry)
    · have hlength := h.backed.length_eq
      rw [List.length_map] at hlength
      have hcount : ¬ 0 + gateway.book.entries.length ≠
          (gateway.state LEVELS ORDERS).risk.reservations.length :=
        not_not.mpr ((Nat.zero_add _).trans hlength.symm)
      rw [if_neg hcount]
      rfl

end Logical.Gateway

/-! ## Export and rebuilding -/

/-- The index arrays of a gateway are addressable: an array has at most `2 ^ 63` bytes. -/
structure Addressable (ACCOUNTS RISK_ORDERS LEVELS ORDERS_PER_LEVEL : ℕ) : Prop where
  book : indexCapacity LEVELS ORDERS_PER_LEVEL ≤ 2 ^ 63
  accounts : ACCOUNTS * indexPlanes ≤ 2 ^ 63
  reservations : RISK_ORDERS * indexPlanes ≤ 2 ^ 63

theorem IndexCapacities.addressable {ACCOUNTS RISK_ORDERS LEVELS ORDERS_PER_LEVEL : ℕ}
    (hc : IndexCapacities ACCOUNTS RISK_ORDERS LEVELS ORDERS_PER_LEVEL) :
    Addressable ACCOUNTS RISK_ORDERS LEVELS ORDERS_PER_LEVEL :=
  ⟨Machine.addressable hc.book, Machine.addressable hc.accounts, Machine.addressable hc.reservations⟩

namespace Gateway

variable {ACCOUNTS RISK_ORDERS LEVELS ORDERS_PER_LEVEL : ℕ}
  {gateway : Gateway ACCOUNTS RISK_ORDERS LEVELS ORDERS_PER_LEVEL} {logical : Logical.Gateway}

theorem Represents.exportState (hc : Addressable ACCOUNTS RISK_ORDERS LEVELS ORDERS_PER_LEVEL)
    (h : gateway.Represents logical) :
    gateway.exportState = .ok (logical.state LEVELS ORDERS_PER_LEVEL) := by
  unfold Gateway.exportState
  rw [h.book.exportState hc.book, Run.ok_bind, h.risk.exportState, h.expectedSequence, h.maximumReceived]
  rfl

/-- The state of a restorable gateway restores to a gateway that represents it. -/
theorem fromState_restorable (hc : IndexCapacities ACCOUNTS RISK_ORDERS LEVELS ORDERS_PER_LEVEL)
    (h : logical.Restorable ACCOUNTS RISK_ORDERS LEVELS ORDERS_PER_LEVEL) :
    ∃ gateway : Gateway ACCOUNTS RISK_ORDERS LEVELS ORDERS_PER_LEVEL,
      fromState ACCOUNTS RISK_ORDERS (logical.state LEVELS ORDERS_PER_LEVEL) = .ok (.ok gateway) ∧
        gateway.Represents logical := by
  obtain ⟨book, hbook, hbookRep, _⟩ := OrderBook.fromState_state hc.book h.invariant.book
  obtain ⟨risk, hrisk, hriskRep⟩ := RiskEngine.fromState_restorable hc.accounts hc.reservations h.risk
  have hbook' : OrderBook.fromState (logical.state LEVELS ORDERS_PER_LEVEL).instrument
      (logical.state LEVELS ORDERS_PER_LEVEL).book = .ok (.ok book) := hbook
  have hrisk' : RiskEngine.fromState ACCOUNTS RISK_ORDERS (logical.state LEVELS ORDERS_PER_LEVEL).risk =
      .ok (.ok risk) := hrisk
  have hcross := (Logical.Gateway.validateCrossComponentState_eq_ok h.invariant.book
    h.invariant.risk).mpr ⟨h.invariant, h.limited⟩
  refine ⟨⟨risk, book, logical.expectedSequence, logical.maximumReceivedOrderId⟩, ?_,
    hriskRep, hbookRep, rfl, rfl⟩
  unfold fromState
  simp only [hbook', Run.ok_bind, hrisk', hcross]
  rfl

/-- Restoring is total: it never faults, and what it returns represents the given state. -/
theorem fromState_spec (hc : Addressable ACCOUNTS RISK_ORDERS LEVELS ORDERS_PER_LEVEL)
    (state : GatewayState LEVELS ORDERS_PER_LEVEL) :
    ∃ result, fromState ACCOUNTS RISK_ORDERS state = .ok result ∧
      ∀ gateway : Gateway ACCOUNTS RISK_ORDERS LEVELS ORDERS_PER_LEVEL, result = .ok gateway →
        ∃ logical : Logical.Gateway, state = logical.state LEVELS ORDERS_PER_LEVEL ∧
          logical.Restorable ACCOUNTS RISK_ORDERS LEVELS ORDERS_PER_LEVEL ∧ gateway.Represents logical := by
  obtain ⟨bookResult, hbook, hbookSpec⟩ := OrderBook.fromState_spec hc.book state.instrument state.book
  unfold fromState
  rw [hbook, Run.ok_bind]
  cases bookResult with
  | error error => exact ⟨.error (.book error), rfl, by simp⟩
  | ok book =>
    obtain ⟨logicalBook, hstate, hrestorable, hinstrument, hbookRep⟩ := hbookSpec book rfl
    obtain ⟨riskResult, hrisk, hriskSpec⟩ := RiskEngine.fromState_spec hc.accounts hc.reservations state.risk
    simp only [hrisk, Run.ok_bind]
    cases riskResult with
    | error error => exact ⟨.error (.risk error), rfl, by simp⟩
    | ok risk =>
      obtain ⟨hriskRestorable, hriskRep⟩ := hriskSpec risk rfl
      simp only
      set logical : Logical.Gateway :=
        ⟨state.risk, logicalBook, state.expectedSequence, state.maximumReceivedOrderId⟩ with hlogical
      have hsame : state = logical.state LEVELS ORDERS_PER_LEVEL := by
        obtain ⟨instrument, bookState, riskState, expected, maximum⟩ := state
        simp only [Logical.Gateway.state, hlogical]
        rw [← hstate, hinstrument]
      cases hcross : validateCrossComponentState state with
      | error error => exact ⟨.error error, rfl, by simp⟩
      | ok _ =>
        refine ⟨.ok ⟨risk, book, state.expectedSequence, state.maximumReceivedOrderId⟩, rfl, ?_⟩
        rw [hsame] at hcross
        have hbookRestorable : logical.book.Restorable LEVELS ORDERS_PER_LEVEL := hrestorable
        obtain ⟨hinvariant, hlimited⟩ := (Logical.Gateway.validateCrossComponentState_eq_ok hbookRestorable
          hriskRestorable.consistent).mp hcross
        intro gateway heq
        obtain rfl := Except.ok.inj heq
        exact ⟨logical, hsame, ⟨hinvariant, hlimited, hriskRestorable.accounts_le,
          hriskRestorable.reservations_le⟩, hriskRep, hbookRep, rfl, rfl⟩

end Gateway

end DeterministicExchange
