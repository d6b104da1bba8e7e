import DeterministicExchange.Gateway.Invariant
import DeterministicExchange.Model.BookRefinement
import DeterministicExchange.Model.Reservations

/-!
# Consistency of the reference gateway

Maps that keep a consistent risk state show the accounts of that state, and the check of the
reference gateway accepts them together with a book that the reservations back. The check adds up
the reservations of every account, none of which overflows in a consistent risk state.
-/

namespace DeterministicExchange.Model

open Machine DeterministicExchange.Risk

/-! ## Views -/

namespace Keeps

variable {engine : ModelEngine} {risk : RiskEngineState}

/-- Both gateways project the same position. -/
theorem accountView (h : Keeps engine.accounts engine.reservations risk) (id : AccountId) :
    engine.accountView id = (risk.account? id).bind RiskEngine.projected := by
  have hview : engine.accountView id = (engine.accounts.get id).bind fun account ↦
      (Signed.ofUnsigned? 128 account.reservedBuys).bind fun buys ↦
        (Signed.checkedAdd account.settledPosition buys).bind fun long ↦
          (Signed.ofUnsigned? 128 account.reservedSells).bind fun sells ↦
            (Signed.checkedSub long sells).bind fun projected ↦ some (projected, account.openOrders) := rfl
  have hprojected (account : AccountRiskState) : RiskEngine.projected account =
      (Signed.ofUnsigned? 128 account.reservedBuys).bind fun buys ↦
        (Signed.ofUnsigned? 128 account.reservedSells).bind fun sells ↦
          (Signed.checkedAdd account.settledPosition buys).bind fun long ↦
            (Signed.checkedSub long sells).bind fun projected ↦ some (projected, account.openOrders) := rfl
  rw [hview, h.accounts]
  cases risk.account? id with
  | none => rfl
  | some account =>
    rw [Option.map_some, Option.bind_some, Option.bind_some, hprojected]
    refine congrArg (Option.bind _) ?_
    funext buys
    exact Option.bind_comm _ _

theorem reservedTotal (h : Keeps engine.accounts engine.reservations risk) (id : AccountId) (side : Side) :
    engine.reservedTotal id side =
      ((risk.account? id).map fun account ↦ account.reserved side).getD 0 := by
  unfold ModelEngine.reservedTotal
  rw [h.accounts]
  cases risk.account? id with
  | none => rfl
  | some account => exact reserved_of account side

end Keeps

/-! ## Totals -/

/-- The totals of the reservations that have been counted. -/
structure Counts (totals : ModelEngine.Totals) (rs : List ReservationRiskState) : Prop where
  reserved : ∀ side id, (((totals.reserved side).get id).getD 0).val = Risk.reservedTotal side id rs
  openCount : ∀ id, ((totals.openCounts.get id).getD 0).val = Risk.openCount id rs

namespace Counts

open ModelEngine

variable {totals : Totals} {accounts : OrderedMap AccountId ModelAccount}
    {rs rest : List ReservationRiskState}
  {r : ReservationRiskState}

theorem empty : Counts .empty [] := by
  refine ⟨fun side id ↦ ?_, fun id ↦ rfl⟩
  cases side <;> rfl

theorem reserved_setReserved (totals : Totals) (side side' : Side) (map : OrderedMap AccountId U128) :
    (totals.setReserved side map).reserved side' = if side' = side then map else totals.reserved side' := by
  cases side <;> cases side' <;> rfl

/-- One reservation is counted, as long as its totals fit. -/
theorem count (h : Counts totals rs) {account : ModelAccount} (hpos : 0 < r.quantity.val)
    (hget : accounts.get r.accountId = some account) (hkilled : account.killed = false)
    (htotal : Risk.reservedTotal r.side r.accountId rs + r.quantity.val < 2 ^ 128)
    (hopen : Risk.openCount r.accountId rs + 1 < 2 ^ 32) :
    ∃ totals', Totals.count accounts totals (r.orderId, .of r) = .ok totals' ∧
      Counts totals' (rs ++ [r]) := by
  have hroom : (((totals.reserved (ModelReservation.of r).side).get (ModelReservation.of r).accountId).getD
      0).val + (exposure (ModelReservation.of r).remaining).val < 2 ^ 128 := by
    rw [h.reserved, exposure_val]
    exact htotal
  have hroom' : ((totals.openCounts.get (ModelReservation.of r).accountId).getD 0).val + (1 : U32).val <
      2 ^ 32 := by
    rw [h.openCount]
    exact hopen
  obtain ⟨total, hadd, hvalue⟩ := Run.addWord_of_lt hroom
  obtain ⟨openCount, hcount, hopenValue⟩ := Run.addWord_of_lt hroom'
  have hget' : accounts.get (ModelReservation.of r).accountId = some account := hget
  have hpos' : (decide (0 < (ModelReservation.of r).remaining.val)) = true := decide_eq_true hpos
  refine ⟨{ totals.setReserved r.side ((totals.reserved r.side).insert r.accountId total) with
    openCounts := totals.openCounts.insert r.accountId openCount }, ?_, fun side id ↦ ?_, fun id ↦ ?_⟩
  · unfold Totals.count
    dsimp only
    rw [hadd, Run.ok_bind, hcount, Run.ok_bind, hpos', require_true, Run.ok_bind, hget', Run.expect_some,
      Run.ok_bind, hkilled, Bool.not_false, require_true, Run.ok_bind]
    rfl
  · rw [reservedTotal_append, reservedTotal_cons, reservedTotal_nil, ← h.reserved side id]
    have hreserved : (({ totals.setReserved r.side ((totals.reserved r.side).insert r.accountId total) with
        openCounts := totals.openCounts.insert r.accountId openCount } : Totals).reserved side) =
        if side = r.side then (totals.reserved r.side).insert r.accountId total else
          totals.reserved side := by
      rw [← reserved_setReserved]
      cases side <;> rfl
    rw [hreserved]
    by_cases hside : side = r.side
    · subst hside
      rw [if_pos rfl, OrderedMap.get_insert]
      by_cases hid : id = r.accountId
      · subst hid
        rw [if_pos rfl, exposureOf_self, if_pos rfl]
        exact hvalue
      · rw [if_neg hid, exposureOf_of_ne (Ne.symm hid)]
        rfl
    · rw [if_neg hside]
      have hother : exposureOf side id r = 0 := if_neg fun hboth ↦ hside hboth.2.symm
      rw [hother]
      rfl
  · rw [openCount_append, openCount_cons, openCount_nil, ← h.openCount id, OrderedMap.get_insert]
    by_cases hid : id = r.accountId
    · subst hid
      rw [if_pos rfl, if_pos rfl]
      exact hopenValue
    · rw [if_neg hid, if_neg (Ne.symm hid)]
      rfl

/-- All reservations of a consistent risk state are counted. -/
theorem foldlM {engine : ModelEngine} {risk : RiskEngineState}
    (hkeeps : Keeps engine.accounts engine.reservations risk) (hconsistent : risk.Consistent)
    (hpos : ∀ r ∈ risk.reservations, 0 < r.quantity.val)
    (hlive : ∀ account ∈ risk.accounts, account.killed = false) (h : Counts totals rs)
    (hsplit : risk.reservations = rs ++ rest) :
    ∃ totals', (rest.map fun r ↦ (r.orderId, ModelReservation.of r)).foldlM (Totals.count engine.accounts)
        totals = .ok totals' ∧ Counts totals' risk.reservations := by
  induction rest generalizing rs totals with
  | nil =>
    rw [List.append_nil] at hsplit
    exact ⟨totals, rfl, hsplit ▸ h⟩
  | cons r rest ih =>
    have hr : r ∈ risk.reservations := by
      rw [hsplit]
      exact List.mem_append_right _ List.mem_cons_self
    obtain ⟨account, haccount, hmem, hid⟩ := hconsistent.exists_account hr
    have htotals := hconsistent.account account hmem
    have htotal : Risk.reservedTotal r.side r.accountId rs + r.quantity.val < 2 ^ 128 := by
      have hsum := htotals.reserved r.side
      rw [hid, hsplit, reservedTotal_append, reservedTotal_cons, exposureOf_self, if_pos rfl] at hsum
      have hlt := (account.reserved r.side).isLt
      omega
    have hopen : Risk.openCount r.accountId rs + 1 < 2 ^ 32 := by
      have hsum := htotals.openOrders
      rw [hid, hsplit, openCount_append, openCount_cons, if_pos rfl] at hsum
      have hlt := account.openOrders.isLt
      omega
    obtain ⟨totals₁, hcount, h₁⟩ := h.count (hpos r hr) (hkeeps.get_account haccount) (hlive account hmem)
      htotal hopen
    obtain ⟨totals₂, hrest, h₂⟩ := ih h₁ (by rw [hsplit, List.append_assoc, List.singleton_append])
    refine ⟨totals₂, ?_, h₂⟩
    rw [List.map_cons, List.foldlM_cons, hcount, Run.ok_bind, hrest]

/-- An account carries the totals that were counted. -/
theorem check (h : Counts totals rs) {account : AccountRiskState} (haccount : AccountConsistent rs account) :
    totals.check (account.id, .of account) = .ok () := by
  have hbuys : (ModelAccount.of account).reservedBuys = (totals.buys.get account.id).getD 0 :=
    Fin.ext ((haccount.reserved .buy).trans (h.reserved .buy account.id).symm)
  have hsells : (ModelAccount.of account).reservedSells = (totals.sells.get account.id).getD 0 :=
    Fin.ext ((haccount.reserved .sell).trans (h.reserved .sell account.id).symm)
  have hopen : (ModelAccount.of account).openOrders = (totals.openCounts.get account.id).getD 0 :=
    Fin.ext (haccount.openOrders.trans (h.openCount account.id).symm)
  unfold Totals.check
  dsimp only
  rw [decide_eq_true hbuys, require_true, Run.ok_bind, decide_eq_true hsells, require_true, Run.ok_bind,
    decide_eq_true hopen, require_true]

end Counts

/-! ## The check -/

namespace Keeps

variable {engine : ModelEngine} {risk : RiskEngineState}

theorem accounts_rows (h : Keeps engine.accounts engine.reservations risk) (hordered : risk.Ordered) :
    engine.accounts.rows = risk.accounts.map fun account ↦ (account.id, ModelAccount.of account) := by
  refine OrderedMap.rows_eq hordered.accounts fun id value ↦ ?_
  rw [h.accounts, Option.map_eq_some_iff]
  constructor
  · rintro ⟨account, haccount, rfl⟩
    obtain ⟨hmem, hid⟩ := hordered.account?_eq_some.mp haccount
    exact ⟨account, hmem, hid, rfl⟩
  · rintro ⟨account, hmem, hid, rfl⟩
    exact ⟨account, hordered.account?_eq_some.mpr ⟨hmem, hid⟩, rfl⟩

theorem reservations_rows (h : Keeps engine.accounts engine.reservations risk) (hordered : risk.Ordered) :
    engine.reservations.rows = risk.reservations.map fun r ↦ (r.orderId, ModelReservation.of r) := by
  refine OrderedMap.rows_eq hordered.reservations fun id value ↦ ?_
  rw [h.reservations, Option.map_eq_some_iff]
  constructor
  · rintro ⟨r, hlookup, rfl⟩
    obtain ⟨hmem, hid⟩ := hordered.reservation?_eq_some.mp hlookup
    exact ⟨r, hmem, hid, rfl⟩
  · rintro ⟨r, hmem, hid, rfl⟩
    exact ⟨r, hordered.reservation?_eq_some.mpr ⟨hmem, hid⟩, rfl⟩

/-- A resting order that a reservation backs is accepted. -/
theorem checkResting (h : Keeps engine.accounts engine.reservations risk) (hordered : risk.Ordered)
    {entry : Logical.Entry} (hbacked : Logical.backing entry ∈ risk.reservations) :
    engine.checkResting entry.1 entry.2.2 = .ok () := by
  have hlookup : risk.reservation? entry.2.2.id = some (Logical.backing entry) :=
    hordered.reservation?_eq_some.mpr ⟨hbacked, rfl⟩
  have hquantity : (ModelReservation.of (Logical.backing entry)).remaining = entry.2.2.quantity := rfl
  have haccount : (ModelReservation.of (Logical.backing entry)).accountId = entry.2.2.accountId := rfl
  have hside : (ModelReservation.of (Logical.backing entry)).side = entry.1 := rfl
  unfold ModelEngine.checkResting
  rw [h.get_reservation hlookup, Run.expect_some, Run.ok_bind, decide_eq_true hquantity, require_true,
    Run.ok_bind, decide_eq_true haccount, require_true, Run.ok_bind, decide_eq_true hside, require_true]

/-- The reference gateway accepts its state when its risk state is consistent and backs its book. -/
theorem assertConsistent (h : Keeps engine.accounts engine.reservations risk) (hconsistent : risk.Consistent)
    {logical : Logical.Book} (hbook : Mirrors engine.book logical)
    (hlive : ∀ account ∈ risk.accounts, account.killed = false)
    (hbacked : ∀ entry ∈ logical.entries, Logical.backing entry ∈ risk.reservations)
    (hpos : ∀ r ∈ risk.reservations, 0 < r.quantity.val) :
    engine.assertConsistent = .ok () := by
  obtain ⟨totals, hcount, hcounts⟩ := Counts.foldlM h hconsistent hpos hlive Counts.empty
    (List.nil_append risk.reservations).symm
  have haccounts : engine.accounts.rows.forM totals.check = .ok () := by
    rw [h.accounts_rows hconsistent.ordered]
    apply Run.forM_eq_ok
    intro row hrow
    obtain ⟨account, hmem, rfl⟩ := List.mem_map.mp hrow
    exact hcounts.check (hconsistent.account account hmem)
  have hresting (side : Side) : (engine.book.side side).forM (fun level ↦
      level.orders.forM (engine.checkResting side)) = .ok () := by
    apply Run.forM_eq_ok
    intro level hlevel
    apply Run.forM_eq_ok
    intro order horder
    have hentry : (side, level.price, order) ∈ logical.entries :=
      Logical.mem_book_entries.mpr ⟨level, (hbook side).mem_iff.mp hlevel, rfl, horder⟩
    exact h.checkResting hconsistent.ordered (hbacked _ hentry)
  unfold ModelEngine.assertConsistent
  rw [h.reservations_rows hconsistent.ordered, hcount, Run.ok_bind, haccounts, Run.ok_bind]
  apply Run.forM_eq_ok
  intro row hrow
  rcases List.mem_cons.mp hrow with rfl | hrow
  · exact hresting .buy
  · obtain rfl := List.mem_singleton.mp hrow
    exact hresting .sell

end Keeps

end DeterministicExchange.Model
