import DeterministicExchange.Book.Atomicity
import DeterministicExchange.Book.Effects

/-!
# Price-time priority and conservation of quantity

The opposing orders of a taker, listed from the best price to the worst and in
queue order within a price, are the order in which they may be traded. A walk
takes the first of them, each completely but possibly the last one, and what it
takes, what rests and what is discarded add up to the quantity of the taker.
-/

namespace DeterministicExchange.Logical

open Machine DeterministicExchange.Book

variable {LEVELS ORDERS : ℕ} {side side' : Side} {limit price : PriceTicks} {order : Order}
  {orders : List Order} {levels rest : List Level} {remaining left : Quantity} {fills : List Fill}

/-! ## Priority -/

/-- The first price is at least as good as the second one. -/
def NoWorse (side : Side) (price price' : PriceTicks) : Prop :=
  price = price' ∨ SortedIndex.before (descending side) price price' = true

/-- A limit that a price satisfies is satisfied by every price that is no worse. -/
theorem crosses_of_noWorse {price' : PriceTicks} (h : NoWorse side.opposite price price')
    (hcrosses : crosses side limit price' = true) : crosses side limit price = true := by
  rcases h with rfl | hbefore
  · exact hcrosses
  · cases side with
    | buy =>
      have hlt : price.val < price'.val := by
        simpa [SortedIndex.before, descending, Side.opposite] using hbefore
      have hle : price'.val ≤ limit.val := by simpa [crosses] using hcrosses
      simpa [crosses] using hlt.le.trans hle
    | sell =>
      have hlt : price'.val < price.val := by
        simpa [SortedIndex.before, descending, Side.opposite] using hbefore
      have hle : limit.val ≤ price'.val := by simpa [crosses] using hcrosses
      simpa [crosses] using hle.trans hlt.le

/-- Strictly sorted levels list their orders from the best price to the worst. -/
theorem entries_noWorse
    (h : levels.Pairwise fun a b ↦ SortedIndex.before (descending side) a.price b.price = true) :
    (entries side levels).Pairwise fun a b ↦ NoWorse side a.2.1 b.2.1 := by
  rw [entries, List.pairwise_flatMap]
  constructor
  · intro level _
    rw [List.pairwise_map]
    exact List.pairwise_of_forall fun _ _ ↦ .inl rfl
  · apply h.imp
    intro level level' hbefore entry hentry entry' hentry'
    obtain ⟨_, _, rfl⟩ := List.mem_map.mp hentry
    obtain ⟨_, _, rfl⟩ := List.mem_map.mp hentry'
    exact .inr hbefore

/-! ## Walks -/

/-- A walk over orders in priority order: it takes the first of them, each completely but the last
one, and leaves the others as they were. -/
structure Walked (side : Side) (limit : PriceTicks) (makers : List Entry) (taken : Quantity)
    (fills : List Fill) (after : List Entry) (left : Quantity) : Prop where
  length_le : fills.length ≤ makers.length
  maker : ∀ (i : ℕ) fill entry, fills[i]? = some fill → makers[i]? = some entry →
    fill.makerId = entry.2.2.id ∧ fill.price = entry.2.1 ∧ crosses side limit fill.price = true ∧
      0 < fill.quantity.val ∧ fill.quantity.val ≤ entry.2.2.quantity.val
  consumed : ∀ (i : ℕ) fill entry, fills[i]? = some fill → makers[i]? = some entry →
    i + 1 < fills.length → fill.quantity = entry.2.2.quantity
  total : (fills.map fun fill ↦ fill.quantity.val).sum + left.val = taken.val
  after : after = (List.zipWith (fun entry traded ↦ makerRest entry.1 entry.2.1 entry.2.2 traded) makers
    (fills.map Fill.quantity)).flatten ++ makers.drop fills.length

theorem Walked.nil (makers : List Entry) (taken : Quantity) :
    Walked side limit makers taken [] makers taken where
  length_le := Nat.zero_le _
  maker i fill entry hfill _ := absurd hfill nofun
  consumed i fill entry hfill _ _ := absurd hfill nofun
  total := Nat.zero_add _
  after := by simp

/-- Nothing is taken when no quantity is left. -/
theorem Matched.of_zero (h : Matched side limit levels remaining fills rest left)
    (hzero : remaining.val = 0) : fills = [] ∧ rest = levels ∧ left = remaining := by
  cases h with
  | done => exact ⟨rfl, rfl, rfl⟩
  | fill => omega

/-- A walk that takes the whole head order and goes on. -/
theorem Walked.cons_full {makers after : List Entry} (hcrosses : crosses side limit price = true)
    (hpos : 0 < order.quantity.val) (hle : order.quantity.val ≤ remaining.val)
    (h : Walked side limit makers (Unsigned.monus remaining order.quantity) fills after left) :
    Walked side limit ((side', price, order) :: makers) remaining
      (⟨order.id, price, order.quantity⟩ :: fills) after left where
  length_le := Nat.succ_le_succ h.length_le
  maker i fill entry hfill hentry := by
    cases i with
    | zero =>
      obtain rfl := Option.some.inj hfill
      obtain rfl := Option.some.inj hentry
      exact ⟨rfl, rfl, hcrosses, hpos, le_rfl⟩
    | succ i => exact h.maker i fill entry hfill hentry
  consumed i fill entry hfill hentry hlast := by
    cases i with
    | zero =>
      obtain rfl := Option.some.inj hfill
      obtain rfl := Option.some.inj hentry
      rfl
    | succ i => exact h.consumed i fill entry hfill hentry (Nat.lt_of_succ_lt_succ hlast)
  total := by
    have htotal := h.total
    rw [Unsigned.monus_val] at htotal
    rw [List.map_cons, List.sum_cons]
    show order.quantity.val + _ + _ = _
    omega
  after := by
    have hnothing : makerRest side' price order order.quantity = [] := if_neg (lt_irrefl _)
    rw [h.after, List.map_cons, List.zipWith_cons_cons, List.flatten_cons, hnothing, List.nil_append,
      List.length_cons, List.drop_succ_cons]

/-- A walk that ends within the head order. -/
theorem Walked.single {makers : List Entry} (hcrosses : crosses side limit price = true)
    (hpos : 0 < remaining.val) (hlt : remaining.val < order.quantity.val) :
    Walked side limit ((side', price, order) :: makers) remaining [⟨order.id, price, remaining⟩]
      (makerRest side' price order remaining ++ makers) (Unsigned.monus remaining remaining) where
  length_le := Nat.succ_le_succ (Nat.zero_le _)
  maker i fill entry hfill hentry := by
    cases i with
    | zero =>
      obtain rfl := Option.some.inj hfill
      obtain rfl := Option.some.inj hentry
      exact ⟨rfl, rfl, hcrosses, hpos, hlt.le⟩
    | succ i => exact absurd hfill nofun
  consumed i fill entry hfill _ hlast := absurd hlast (by simp)
  total := by simp
  after := by simp

/-- Matching walks the orders of a side in priority order. -/
theorem Matched.walked (side' : Side) (h : Matched side limit levels remaining fills rest left)
    (hpos : ∀ entry ∈ entries side' levels, 0 < entry.2.2.quantity.val) :
    Walked side limit (entries side' levels) remaining fills (entries side' rest) left := by
  induction h with
  | done levels remaining _ => exact .nil _ _
  | fill price order orders levels remaining traded fills rest left hremaining hcrosses htraded hnext ih =>
    have hentries : entries side' (⟨price, order :: orders⟩ :: levels) = (side', price, order) ::
        (orders.map (fun o ↦ (side', price, o)) ++ entries side' levels) := by
      rw [entries_cons, List.map_cons, List.cons_append]
    have hconsume := entries_consume side' price order orders levels traded
    rw [hentries] at hpos ⊢
    by_cases hpartly : remaining.val < order.quantity.val
    · obtain rfl : traded = remaining := htraded.trans (min_eq_left hpartly.le)
      obtain ⟨rfl, rfl, rfl⟩ := hnext.of_zero (by simp)
      rw [hconsume]
      exact .single hcrosses hremaining hpartly
    · obtain rfl : traded = order.quantity := htraded.trans (min_eq_right (Nat.le_of_not_lt hpartly))
      have hnothing : makerRest side' price order order.quantity = [] := if_neg (lt_irrefl _)
      rw [hnothing, List.nil_append] at hconsume
      rw [hconsume] at ih
      exact .cons_full hcrosses (hpos _ List.mem_cons_self) (Nat.le_of_not_lt hpartly)
        (ih fun entry hentry ↦ hpos entry (List.mem_cons_of_mem _ hentry))

theorem sorted_consume {descending : Bool} (traded : Quantity)
    (h : (⟨price, order :: orders⟩ :: levels).Pairwise fun a b ↦
      SortedIndex.before descending a.price b.price = true) :
    (consume price order orders levels traded).Pairwise fun a b ↦
      SortedIndex.before descending a.price b.price = true := by
  obtain ⟨hhead, htail⟩ := List.pairwise_cons.mp h
  unfold consume Level.kept
  split
  · exact List.pairwise_cons.mpr ⟨hhead, htail⟩
  · split
    · exact htail
    · exact List.pairwise_cons.mpr ⟨hhead, htail⟩

/-- A walk stops when nothing is left to take or nothing within the limit is left to trade. -/
theorem Matched.stopped (h : Matched side limit levels remaining fills rest left)
    (hsorted : levels.Pairwise fun a b ↦
      SortedIndex.before (descending side.opposite) a.price b.price = true) :
    left.val = 0 ∨ ∀ entry ∈ entries side.opposite rest, crosses side limit entry.2.1 = false := by
  induction h with
  | done levels remaining hstop =>
    refine hstop.imp_right fun hstop entry hentry ↦ ?_
    obtain ⟨_, level, hlevel, hprice, _⟩ := mem_entries.mp hentry
    cases levels with
    | nil => exact absurd hlevel List.not_mem_nil
    | cons best levels =>
      have hbest := hstop best rfl
      have hnoWorse : NoWorse side.opposite best.price level.price := by
        rcases List.mem_cons.mp hlevel with rfl | hlevel
        · exact .inl rfl
        · exact .inr (List.rel_of_pairwise_cons hsorted hlevel)
      rw [← hprice]
      by_contra hcrosses
      rw [crosses_of_noWorse hnoWorse (by simpa using hcrosses)] at hbest
      exact absurd hbest nofun
  | fill price order orders levels remaining traded fills rest left _ _ _ _ ih =>
    exact ih (sorted_consume traded hsorted)

/-! ## Accepted orders -/

/-- The orders that a taker may trade with, in the order in which it may trade with them. -/
def Book.makers (book : Book) (order : NewOrder) : List Entry :=
  Logical.entries order.side.opposite (book.side order.side.opposite)

/-- What an accepted order does to a book, in terms of the reports it leaves. -/
structure PriceTime (order : NewOrder) (summary : MatchSummary) (reports : List ExecutionReport)
    (book book' : Book) : Prop where
  /-- Makers are listed from the best price on, and in queue order within a price. -/
  priority : (book.makers order).Pairwise fun a b ↦ NoWorse order.side.opposite a.2.1 b.2.1
  distinct : (reports.map ExecutionReport.makerOrderId).Nodup
  length_le : reports.length ≤ (book.makers order).length
  /-- The reports name the first makers, at their own prices. -/
  maker : ∀ (i : ℕ) report entry, reports[i]? = some report → (book.makers order)[i]? = some entry →
    report.makerOrderId = entry.2.2.id ∧ report.price = entry.2.1 ∧
      crosses order.side order.price report.price = true ∧ 0 < report.quantity.val ∧
      report.quantity.val ≤ entry.2.2.quantity.val
  taker : ∀ report ∈ reports, report.takerOrderId = order.orderId ∧
    report.instrumentId = order.instrumentId ∧ report.sequence = order.sequence
  /-- Every maker but the last one is fully consumed. -/
  consumed : ∀ (i : ℕ) report entry, reports[i]? = some report → (book.makers order)[i]? = some entry →
    i + 1 < reports.length → report.quantity = entry.2.2.quantity
  filled : (reports.map fun report ↦ report.quantity.val).sum = summary.filledQuantity.val
  conserved : summary.filledQuantity.val + summary.restingQuantity.val +
    summary.discardedQuantity.val = order.quantity.val
  reportCount : summary.reportCount = reports.length
  /-- What is not filled found no order within its limit. -/
  exhausted : summary.filledQuantity.val < order.quantity.val →
    ∀ entry ∈ book'.makers order, crosses order.side order.price entry.2.1 = false
  rests : 0 < summary.restingQuantity.val →
    (order.timeInForce = .gtc ∨ order.timeInForce = .postOnly) ∧
      ∃ ahead, queueAt order.price (book'.side order.side) =
        some (ahead ++ [Book.restingOrder order summary.restingQuantity])
  postOnly : order.timeInForce = .postOnly → reports = []
  fok : order.timeInForce = .fok → summary.filledQuantity = order.quantity
  ioc : 0 < summary.discardedQuantity.val → order.timeInForce = .ioc
  /-- A partially filled maker keeps its place, price and sequence; later makers are untouched. -/
  makers : book'.makers order =
    (List.zipWith (fun entry traded ↦ makerRest entry.1 entry.2.1 entry.2.2 traded) (book.makers order)
      (reports.map ExecutionReport.quantity)).flatten ++ (book.makers order).drop reports.length
  /-- The other orders on the side of the taker are untouched. -/
  others : others order.orderId (Logical.entries order.side (book'.side order.side)) =
    Logical.entries order.side (book.side order.side)

theorem queueAt_appendOrder (descending : Bool) (price : PriceTicks) (order : Order)
    (levels : List Level) :
    ∃ ahead, queueAt price (appendOrder descending price order levels) = some (ahead ++ [order]) := by
  induction levels with
  | nil => exact ⟨[], by simp [appendOrder, queueAt]⟩
  | cons level levels ih =>
    rw [appendOrder]
    split
    · next heq => exact ⟨level.orders, by simp [queueAt, heq]⟩
    · next hne =>
      split
      · exact ⟨[], by simp [queueAt]⟩
      · obtain ⟨ahead, hahead⟩ := ih
        refine ⟨ahead, ?_⟩
        unfold queueAt at hahead ⊢
        rw [List.find?_cons_of_neg (by simpa using hne)]
        exact hahead

namespace Book

variable {book book' : Book} {order : NewOrder} {summary : MatchSummary} {resting discarded : Quantity}

/-- An order that may rest discards nothing. -/
theorem discarded_of_rests (htif : order.timeInForce = .gtc ∨ order.timeInForce = .postOnly)
    (h : book.remainderOutcome LEVELS ORDERS order left = .ok (resting, discarded)) : discarded = 0 := by
  unfold remainderOutcome at h
  rcases htif with htif | htif
  all_goals
    rw [htif] at h
    simp only at h
    split at h
    · split at h
      · exact absurd h nofun
      · exact (Prod.mk.inj (Except.ok.inj h)).2.symm
    · exact (Prod.mk.inj (Except.ok.inj h)).2.symm

/-- How the remainder of a walk depends on the time in force. -/
theorem remainderOutcome_timeInForce
    (h : book.remainderOutcome LEVELS ORDERS order left = .ok (resting, discarded)) :
    (0 < resting.val → order.timeInForce = .gtc ∨ order.timeInForce = .postOnly) ∧
      (order.timeInForce = .fok → left.val = 0) ∧ (0 < discarded.val → order.timeInForce = .ioc) := by
  have hnone : ¬ 0 < (0 : Quantity).val := lt_irrefl _
  have hkept (hrests : order.timeInForce = .gtc ∨ order.timeInForce = .postOnly)
      (h : book.remainderOutcome LEVELS ORDERS order left = .ok (resting, discarded)) : discarded = 0 :=
    discarded_of_rests hrests h
  cases htif : order.timeInForce with
  | fok =>
    unfold remainderOutcome at h
    rw [htif] at h
    simp only at h
    split at h
    · exact absurd h nofun
    · next hzero =>
      obtain ⟨rfl, rfl⟩ := Prod.mk.inj (Except.ok.inj h)
      exact ⟨fun hpos ↦ absurd hpos hnone, fun _ ↦ by omega, fun hpos ↦ absurd hpos hnone⟩
  | ioc =>
    unfold remainderOutcome at h
    rw [htif] at h
    obtain ⟨rfl, rfl⟩ := Prod.mk.inj (Except.ok.inj h)
    exact ⟨fun hpos ↦ absurd hpos hnone, nofun, fun _ ↦ rfl⟩
  | gtc =>
    obtain rfl := hkept (.inl htif) h
    exact ⟨fun _ ↦ .inl rfl, nofun, fun hpos ↦ absurd hpos hnone⟩
  | postOnly =>
    obtain rfl := hkept (.inr htif) h
    exact ⟨fun _ ↦ .inr rfl, nofun, fun hpos ↦ absurd hpos hnone⟩

/-- A post-only order that was admitted trades with nobody. -/
theorem matchLevels_of_wouldTrade_false (h : book.wouldTrade order.side order.price = false)
    (taken : Quantity) :
    (matchLevels order.side order.price (book.side order.side.opposite) taken).1 = [] := by
  rw [matchLevels_of_stop]
  right
  intro level hlevel
  unfold wouldTrade at h
  rw [Option.mem_def.mp hlevel, Option.any_some] at h
  exact h

theorem side_opposite_settleWalk (book : Book) (order : NewOrder) (levels : List Level)
    (resting : Quantity) :
    (book.settleWalk order levels resting).side order.side.opposite = levels := by
  unfold settleWalk
  split
  · rw [append, side_opposite_setSide, side_setSide]
  · rw [side_setSide]

theorem side_settleWalk (book : Book) (order : NewOrder) (levels : List Level) (resting : Quantity) :
    (book.settleWalk order levels resting).side order.side =
      if 0 < resting.val then appendOrder (descending order.side) order.price (restingOrder order resting)
        (book.side order.side)
      else book.side order.side := by
  have htraded : (book.setSide order.side.opposite levels).side order.side = book.side order.side := by
    cases order.side <;> rfl
  unfold settleWalk
  split
  · rw [append, side_setSide, htraded]
  · exact htraded

theorem Orderly.makers_ids (h : book.Orderly) (order : NewOrder) :
    ((book.makers order).map fun entry ↦ entry.2.2.id).Nodup := by
  have hids := h.ids
  rw [((entries_perm_sides book order.side).map _).nodup_iff, List.map_append] at hids
  exact List.Nodup.of_append_right hids

/-- The makers of a walk are the first orders in priority order. -/
theorem makerIds_of_walked {makers after : List Entry} {taken : Quantity}
    (h : Walked side limit makers taken fills after left) :
    fills.map Fill.makerId = (makers.take fills.length).map fun entry ↦ entry.2.2.id := by
  apply List.ext_getElem
  · rw [List.length_map, List.length_map, List.length_take, min_eq_left h.length_le]
  · intro i hi hi'
    rw [List.length_map] at hi
    have hmaker : i < makers.length := hi.trans_le h.length_le
    rw [List.getElem_map, List.getElem_map, List.getElem_take]
    exact (h.maker i _ _ (List.getElem?_eq_getElem hi) (List.getElem?_eq_getElem hmaker)).1

theorem Orderly.submit (h : book.Orderly) {capacity : ℕ}
    (hok : book.submit LEVELS ORDERS capacity order = .ok (summary, fills, book')) :
    PriceTime order summary (fills.map (Fill.report order)) book book' := by
  unfold Book.submit at hok
  split at hok
  · exact absurd hok nofun
  next hadmission =>
  obtain ⟨_, _, _, hfind, hpostOnly⟩ := admitted hadmission
  unfold Book.trade at hok
  simp only at hok
  split at hok
  · exact absurd hok nofun
  split at hok
  · exact absurd hok nofun
  next resting discarded houtcome =>
  have hpos : ∀ entry ∈ book.makers order, 0 < entry.2.2.quantity.val := by
    intro entry hentry
    obtain ⟨_, level, hlevel, _, horder⟩ := mem_entries.mp hentry
    exact h.quantity_pos _ level hlevel _ horder
  have hmatched := matchLevels_matched order.side order.price (h.nonempty order.side.opposite)
    order.quantity
  have hstopped := hmatched.stopped (h.sorted order.side.opposite)
  have hwalked := hmatched.walked order.side.opposite hpos
  have hnoTrade (hwould : book.wouldTrade order.side order.price = false) :
      (matchLevels order.side order.price (book.side order.side.opposite) order.quantity).1 = [] :=
    matchLevels_of_wouldTrade_false hwould order.quantity
  set walk := matchLevels order.side order.price (book.side order.side.opposite) order.quantity
  obtain ⟨hsum, _⟩ := remainderOutcome_ok houtcome
  obtain ⟨hrests, hfok, hioc⟩ := remainderOutcome_timeInForce houtcome
  obtain ⟨rfl, hpair⟩ := Prod.mk.inj (Except.ok.inj hok)
  obtain ⟨rfl, rfl⟩ := Prod.mk.inj hpair
  have hleft := hmatched.left_le
  have htotal := hwalked.total
  have hfilled : (matchSummary order resting discarded walk.1.length).filledQuantity.val =
      order.quantity.val - resting.val - discarded.val := rfl
  have hquantity : (matchSummary order resting discarded walk.1.length).filledQuantity.val + walk.2.2.val =
      order.quantity.val := by omega
  have hmakers : (book.settleWalk order walk.2.1 resting).makers order =
      Logical.entries order.side.opposite walk.2.1 := by
    unfold makers
    rw [side_opposite_settleWalk]
  have hreport (i : ℕ) (report : ExecutionReport)
      (hreport : (walk.1.map (Fill.report order))[i]? = some report) :
      ∃ fill, walk.1[i]? = some fill ∧ Fill.report order fill = report := by
    rw [List.getElem?_map] at hreport
    exact Option.map_eq_some_iff.mp hreport
  constructor
  case priority => exact entries_noWorse (h.sorted _)
  case distinct =>
    have hids : (walk.1.map (Fill.report order)).map ExecutionReport.makerOrderId =
        ((book.makers order).map fun entry ↦ entry.2.2.id).take walk.1.length := by
      rw [List.map_map, ← List.map_take]
      exact makerIds_of_walked hwalked
    rw [hids]
    exact (h.makers_ids order).sublist (List.take_sublist _ _)
  case length_le =>
    rw [List.length_map]
    exact hwalked.length_le
  case maker =>
    intro i report entry hget hentry
    obtain ⟨fill, hfill, rfl⟩ := hreport i report hget
    exact hwalked.maker i fill entry hfill hentry
  case taker =>
    intro report hmem
    obtain ⟨fill, _, rfl⟩ := List.mem_map.mp hmem
    exact ⟨rfl, rfl, rfl⟩
  case consumed =>
    intro i report entry hget hentry hlast
    obtain ⟨fill, hfill, rfl⟩ := hreport i report hget
    rw [List.length_map] at hlast
    exact hwalked.consumed i fill entry hfill hentry hlast
  case filled =>
    rw [List.map_map]
    show (walk.1.map fun fill ↦ fill.quantity.val).sum = _
    omega
  case conserved =>
    show _ + resting.val + discarded.val = _
    omega
  case reportCount =>
    rw [List.length_map]
    rfl
  case exhausted =>
    intro hpartly
    rw [hmakers]
    rcases hstopped with hdone | hstopped
    · omega
    · exact hstopped
  case rests =>
    intro (hresting : 0 < resting.val)
    refine ⟨hrests hresting, ?_⟩
    rw [side_settleWalk, if_pos hresting]
    exact queueAt_appendOrder _ _ _ _
  case postOnly =>
    intro htif
    rw [hnoTrade (hpostOnly htif)]
    rfl
  case fok =>
    intro htif
    have hzero := hfok htif
    exact Fin.ext (by omega)
  case ioc => exact hioc
  case makers =>
    rw [hmakers, hwalked.after, List.map_map, List.length_map]
    rfl
  case others =>
    have habsent : ∀ entry ∈ Logical.entries order.side (book.side order.side),
        entry.2.2.id ≠ order.orderId := fun entry hentry ↦
      find_eq_none.mp hfind entry
        ((entries_perm_sides book order.side).mem_iff.mpr (List.mem_append_left _ hentry))
    rw [side_settleWalk]
    split
    · have hothers := others_appendOrder (descending order.side) order.side order.price
        (restingOrder order resting) (book.side order.side)
      exact hothers.trans (others_of_absent habsent)
    · exact others_of_absent habsent

end Book

end DeterministicExchange.Logical

namespace DeterministicExchange.Book

open Machine OrderIndex

variable {LEVELS ORDERS REPORTS : ℕ}

/-- Accepted orders trade in price-time order and conserve quantity. -/
theorem submit_priceTime (hO : 1 ≤ ORDERS) (hcap : 4 * LEVELS * ORDERS ≤ 2 ^ 32)
    {book book' : OrderBook LEVELS ORDERS} (h : book.Invariant) {order : NewOrder}
    {reports reports' : ReportBuffer REPORTS} {summary : MatchSummary}
    (hrun : book.submit order reports = .ok (.ok summary, book', reports')) :
    ∃ new, reports'.entries = reports.entries ++ new ∧
      Logical.PriceTime order summary new book.toLogical book'.toLogical := by
  have hcap' : indexCapacity LEVELS ORDERS ≤ 2 ^ 32 := (indexCapacity_eq LEVELS ORDERS).trans_le hcap
  have hrep := h.represents_toLogical hcap'
  have hsubmit := hrep.submit hO hcap' order reports
  cases hspec : book.toLogical.submit LEVELS ORDERS reports.remainingCapacity order with
  | error reason =>
    have hrejected := hrun.symm.trans (hsubmit.of_error hspec)
    exact absurd (Prod.mk.inj (Except.ok.inj hrejected)).1 nofun
  | ok outcome =>
    obtain ⟨state, hrun', hrep', hentries⟩ := hsubmit.of_ok hspec
    obtain ⟨hsummary, hstate⟩ := Prod.mk.inj (Except.ok.inj (hrun.symm.trans hrun'))
    obtain rfl := Except.ok.inj hsummary
    rw [← hstate] at hrep' hentries
    refine ⟨_, hentries, ?_⟩
    rw [hrep'.toLogical_eq hcap']
    exact hrep.orderly.submit hspec

/-- A taker that fills three of the five resting. -/
def partialTaker : NewOrder := ⟨2, 8, 1, ⟨99, by decide⟩, 3, 2, .sell, .ioc⟩

theorem fullBook_partialTaker :
    ∃ book' reports', fullBook.submit partialTaker (ReportBuffer.new 4) =
        .ok (.ok ⟨.filled, 3, 0, 0, 1⟩, book', reports') ∧
      ∃ new, reports'.entries = (ReportBuffer.new 4).entries ++ new ∧
        Logical.PriceTime partialTaker ⟨.filled, 3, 0, 0, 1⟩ new fullBook.toLogical book'.toLogical := by
  have hresult : (fullBook.submit partialTaker (ReportBuffer.new 4)).map Prod.fst =
      .ok (.ok ⟨.filled, 3, 0, 0, 1⟩) := by decide
  obtain ⟨⟨book', reports'⟩, hrun⟩ := Run.exists_eq_ok hresult
  exact ⟨book', reports', hrun, submit_priceTime (by decide) (by decide) fullBook_invariant hrun⟩

end DeterministicExchange.Book
