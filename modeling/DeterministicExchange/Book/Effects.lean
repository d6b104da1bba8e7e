import DeterministicExchange.Book.Trading

/-!
# Effects on the resting orders, in book order

The entries of a book list its orders side by side, level by level and in queue
order. An accepted command removes, reduces or adds few of them and leaves the
list as it was elsewhere, so no other order changes its queue position.
-/

namespace DeterministicExchange.Logical

open Machine DeterministicExchange.Book

variable {LEVELS ORDERS : ℕ} {book book' : Book} {side : Side} {price : PriceTicks}
  {levels : List Level} {id : OrderId}

/-! ## Reductions -/

/-- The quantity that reports trade with the maker `id`. -/
def tradedWith (id : OrderId) (reports : List ExecutionReport) : ℕ :=
  ((reports.filter fun report ↦ report.makerOrderId = id).map fun report ↦ report.quantity.val).sum

/-- A quantity after `traded` has left it. -/
def reduced (quantity : Quantity) (traded : ℕ) : Quantity :=
  ⟨quantity.val - traded, (Nat.sub_le _ _).trans_lt quantity.isLt⟩

/-- What is left of a resting order after reports, if anything is left. -/
def afterReports (reports : List ExecutionReport) (entry : Entry) : Option Entry :=
  if tradedWith entry.2.2.id reports < entry.2.2.quantity.val then
    some (entry.1, entry.2.1,
      { entry.2.2 with quantity := reduced entry.2.2.quantity (tradedWith entry.2.2.id reports) })
  else none

@[simp] theorem tradedWith_nil (id : OrderId) : tradedWith id [] = 0 := rfl

@[simp] theorem tradedWith_cons (id : OrderId) (report : ExecutionReport) (reports : List ExecutionReport) :
    tradedWith id (report :: reports) =
      (if report.makerOrderId = id then report.quantity.val else 0) + tradedWith id reports := by
  unfold tradedWith
  by_cases heq : report.makerOrderId = id
  · simp [heq]
  · simp [heq]

theorem tradedWith_eq_zero {reports : List ExecutionReport}
    (h : ∀ report ∈ reports, report.makerOrderId ≠ id) : tradedWith id reports = 0 := by
  unfold tradedWith
  rw [List.filter_eq_nil_iff.mpr fun report hreport ↦ by simpa using h report hreport]
  rfl

@[simp] theorem reduced_zero (quantity : Quantity) : reduced quantity 0 = quantity := rfl

theorem afterReports_of_untraded {reports : List ExecutionReport} {entry : Entry}
    (hpos : 0 < entry.2.2.quantity.val) (h : tradedWith entry.2.2.id reports = 0) :
    afterReports reports entry = some entry := by
  unfold afterReports
  rw [h, if_pos hpos, reduced_zero]

theorem afterReports_eq_some {reports : List ExecutionReport} {entry entry' : Entry}
    (h : afterReports reports entry = some entry') :
    entry'.1 = entry.1 ∧ entry'.2.1 = entry.2.1 ∧ entry'.2.2.id = entry.2.2.id ∧
      entry'.2.2.accountId = entry.2.2.accountId ∧ entry'.2.2.sequence = entry.2.2.sequence ∧
      entry'.2.2.quantity.val + tradedWith entry.2.2.id reports = entry.2.2.quantity.val ∧
      0 < entry'.2.2.quantity.val := by
  unfold afterReports at h
  split at h
  · next hlt =>
    obtain rfl := Option.some.inj h
    refine ⟨rfl, rfl, rfl, rfl, rfl, ?_, ?_⟩
    · show entry.2.2.quantity.val - _ + _ = _
      omega
    · show 0 < entry.2.2.quantity.val - _
      omega
  · simp at h

/-- Reports act one after the other. -/
theorem afterReports_cons (report : ExecutionReport) (reports : List ExecutionReport) (entry : Entry) :
    (afterReports [report] entry).bind (afterReports reports) = afterReports (report :: reports) entry := by
  unfold afterReports
  simp only [tradedWith_cons, tradedWith_nil, Nat.add_zero]
  set first := if report.makerOrderId = entry.2.2.id then report.quantity.val else 0
  by_cases hfirst : first < entry.2.2.quantity.val
  · rw [if_pos hfirst, Option.bind_some]
    show (if tradedWith entry.2.2.id reports < entry.2.2.quantity.val - first then _ else _) = _
    by_cases hboth : first + tradedWith entry.2.2.id reports < entry.2.2.quantity.val
    · rw [if_pos hboth, if_pos (by omega)]
      unfold reduced
      simp only [Nat.sub_sub]
    · rw [if_neg hboth, if_neg (by omega)]
  · rw [if_neg hfirst, if_neg (by omega)]
    rfl

/-! ## Matching -/

theorem entries_consume (side : Side) (price : PriceTicks) (order : Order) (orders : List Order)
    (levels : List Level) (traded : Quantity) :
    entries side (consume price order orders levels traded) =
      makerRest side price order traded ++ (orders.map (fun o ↦ (side, price, o)) ++
        entries side levels) := by
  unfold consume makerRest
  split
  · rfl
  · rw [entries_append, entries_kept, List.nil_append]

/-- A walk reduces the makers and leaves the others in their places. -/
theorem Matched.entries_eq {limit : PriceTicks} {remaining left : Quantity} {fills : List Fill}
    {rest : List Level} (taker : NewOrder) (side' : Side)
    (h : Matched side limit levels remaining fills rest left)
    (hpos : ∀ entry ∈ entries side' levels, 0 < entry.2.2.quantity.val)
    (hids : ((entries side' levels).map fun entry ↦ entry.2.2.id).Nodup) :
    entries side' rest = (entries side' levels).filterMap (afterReports (fills.map (Fill.report taker))) := by
  induction h with
  | done levels remaining _ =>
    rw [List.filterMap_congr (fun entry hentry ↦ afterReports_of_untraded (hpos entry hentry) rfl),
      List.filterMap_some]
  | fill price order orders levels remaining traded fills rest left hremaining _ htraded _ ih =>
    set tail := orders.map (fun o ↦ (side', price, o)) ++ entries side' levels with htail
    have hentries : entries side' (⟨price, order :: orders⟩ :: levels) = (side', price, order) :: tail := by
      rw [entries_cons, List.map_cons, List.cons_append]
    set report := Fill.report taker ⟨order.id, price, traded⟩ with hreport
    rw [hentries] at hpos hids
    rw [List.map_cons, List.nodup_cons] at hids
    have htailSame : tail.filterMap (afterReports [report]) = tail := by
      rw [List.filterMap_congr (g := some), List.filterMap_some]
      intro entry hentry
      refine afterReports_of_untraded (hpos entry (List.mem_cons_of_mem _ hentry)) ?_
      have hne : order.id ≠ entry.2.2.id := fun heq ↦ hids.1 (List.mem_map.mpr ⟨entry, hentry, heq.symm⟩)
      have hmaker : report.makerOrderId ≠ entry.2.2.id := hne
      simp [hmaker]
    have hstep : entries side' (consume price order orders levels traded) =
        ((side', price, order) :: tail).filterMap (afterReports [report]) := by
      rw [entries_consume, List.filterMap_cons, htailSame]
      have hmaker : tradedWith order.id [report] = traded.val := by
        simp [hreport, Fill.report, OrderBook.report]
      unfold afterReports makerRest
      simp only [hmaker]
      split
      · rfl
      · rfl
    have hpos' : ∀ entry ∈ entries side' (consume price order orders levels traded),
        0 < entry.2.2.quantity.val := by
      intro entry hentry
      rw [hstep] at hentry
      obtain ⟨prior, _, hprior⟩ := List.mem_filterMap.mp hentry
      exact (afterReports_eq_some hprior).2.2.2.2.2.2
    have hids' : ((entries side' (consume price order orders levels traded)).map
        fun entry ↦ entry.2.2.id).Nodup := by
      rw [entries_consume, List.map_append]
      unfold makerRest
      split
      · exact List.nodup_cons.mpr hids
      · exact hids.2
    rw [ih hpos' hids', hentries, hstep, List.filterMap_filterMap, List.map_cons]
    apply List.filterMap_congr
    intro entry _
    exact afterReports_cons report _ entry

/-- Every maker of a walk rested on the side walked over. -/
theorem Matched.makers {limit : PriceTicks} {remaining left : Quantity} {fills : List Fill}
    {rest : List Level} (side' : Side) (h : Matched side limit levels remaining fills rest left) :
    ∀ fill ∈ fills, ∃ entry ∈ entries side' levels, entry.2.2.id = fill.makerId := by
  induction h with
  | done levels remaining _ => simp
  | fill price order orders levels remaining traded fills rest left _ _ _ _ ih =>
    have hentries : entries side' (⟨price, order :: orders⟩ :: levels) =
        (side', price, order) :: (orders.map (fun o ↦ (side', price, o)) ++ entries side' levels) := by
      rw [entries_cons, List.map_cons, List.cons_append]
    intro fill hfill
    rw [hentries]
    rcases List.mem_cons.mp hfill with rfl | hfill
    · exact ⟨_, List.mem_cons_self, rfl⟩
    · obtain ⟨entry, hentry, hid⟩ := ih fill hfill
      rw [entries_consume] at hentry
      rcases List.mem_append.mp hentry with hmaker | htail
      · unfold makerRest at hmaker
        split at hmaker
        · rw [List.mem_singleton.mp hmaker] at hid
          exact ⟨_, List.mem_cons_self, hid⟩
        · simp at hmaker
      · exact ⟨entry, List.mem_cons_of_mem _ htail, hid⟩

/-- A walk trades no more with an order than the order has. -/
theorem Matched.traded_le {limit : PriceTicks} {remaining left : Quantity} {fills : List Fill}
    {rest : List Level} (taker : NewOrder) (side' : Side)
    (h : Matched side limit levels remaining fills rest left)
    (hids : ((entries side' levels).map fun entry ↦ entry.2.2.id).Nodup) :
    ∀ entry ∈ entries side' levels,
      tradedWith entry.2.2.id (fills.map (Fill.report taker)) ≤ entry.2.2.quantity.val := by
  induction h with
  | done levels remaining _ => exact fun entry _ ↦ Nat.zero_le _
  | fill price order orders levels remaining traded fills rest left hremaining _ htraded hrest ih =>
    set tail := orders.map (fun o ↦ (side', price, o)) ++ entries side' levels with htail
    have hentries : entries side' (⟨price, order :: orders⟩ :: levels) = (side', price, order) :: tail := by
      rw [entries_cons, List.map_cons, List.cons_append]
    rw [hentries, List.map_cons, List.nodup_cons] at hids
    have hle : traded.val ≤ order.quantity.val := htraded ▸ min_le_right remaining order.quantity
    have hconsume := entries_consume side' price order orders levels traded
    have hids' : ((entries side' (consume price order orders levels traded)).map
        fun entry ↦ entry.2.2.id).Nodup := by
      rw [hconsume, List.map_append]
      unfold makerRest
      split
      · exact List.nodup_cons.mpr hids
      · exact hids.2
    intro entry hentry
    rw [hentries] at hentry
    rw [List.map_cons, tradedWith_cons]
    rcases List.mem_cons.mp hentry with rfl | hentry
    · have hself : (Fill.report taker ⟨order.id, price, traded⟩).makerOrderId = order.id := rfl
      have hquantity : (Fill.report taker ⟨order.id, price, traded⟩).quantity = traded := rfl
      rw [if_pos hself, hquantity]
      show traded.val + tradedWith order.id (fills.map (Fill.report taker)) ≤ order.quantity.val
      by_cases hpartly : traded.val < order.quantity.val
      · have hmem : (side', price, { order with quantity := Unsigned.monus order.quantity traded }) ∈
            entries side' (consume price order orders levels traded) := by
          rw [hconsume, makerRest, if_pos hpartly]
          exact List.mem_append_left _ (List.mem_singleton_self _)
        have hrec := ih hids' _ hmem
        have hrec' : tradedWith order.id (fills.map (Fill.report taker)) ≤
            order.quantity.val - traded.val := hrec
        omega
      · have hzero : tradedWith order.id (fills.map (Fill.report taker)) = 0 := by
          apply tradedWith_eq_zero
          intro report hreport
          obtain ⟨fill, hfill, rfl⟩ := List.mem_map.mp hreport
          obtain ⟨maker, hmaker, hid⟩ := hrest.makers side' fill hfill
          rw [hconsume, makerRest, if_neg hpartly, List.nil_append] at hmaker
          intro heq
          exact hids.1 (List.mem_map.mpr ⟨maker, hmaker, hid.trans heq⟩)
        omega
    · have hne : (Fill.report taker ⟨order.id, price, traded⟩).makerOrderId ≠ entry.2.2.id := fun heq ↦
        hids.1 (List.mem_map.mpr ⟨entry, hentry, heq.symm⟩)
      rw [if_neg hne, Nat.zero_add]
      refine ih hids' entry ?_
      rw [hconsume]
      exact List.mem_append_right _ hentry

/-! ## One side -/

/-- The entries of all orders but one. -/
def others (id : OrderId) (es : List Entry) : List Entry := es.filter fun entry ↦ entry.2.2.id ≠ id

def own (id : OrderId) (es : List Entry) : List Entry := es.filter fun entry ↦ entry.2.2.id = id

theorem mem_others {entry : Entry} {es : List Entry} :
    entry ∈ others id es ↔ entry ∈ es ∧ entry.2.2.id ≠ id := by simp [others]

theorem mem_own {entry : Entry} {es : List Entry} :
    entry ∈ own id es ↔ entry ∈ es ∧ entry.2.2.id = id := by simp [own]

@[simp] theorem others_append (id : OrderId) (es es' : List Entry) :
    others id (es ++ es') = others id es ++ others id es' := List.filter_append ..

theorem others_cons (id : OrderId) (entry : Entry) (es : List Entry) :
    others id (entry :: es) = (if entry.2.2.id ≠ id then [entry] else []) ++ others id es := by
  unfold others
  rw [List.filter_cons]
  by_cases heq : entry.2.2.id = id
  · simp [heq]
  · simp [heq]

@[simp] theorem others_others (id : OrderId) (es : List Entry) : others id (others id es) = others id es := by
  simp [others, List.filter_filter]

theorem others_of_absent {es : List Entry} (h : ∀ entry ∈ es, entry.2.2.id ≠ id) : others id es = es := by
  unfold others
  rw [List.filter_eq_self]
  intro entry hentry
  exact decide_eq_true (h entry hentry)

theorem entries_eraseOrder (side : Side) (id : OrderId) (levels : List Level) :
    entries side (eraseOrder id levels) = others id (entries side levels) := by
  induction levels with
  | nil => rfl
  | cons level levels ih =>
    have hqueue : others id (level.orders.map fun order ↦ (side, level.price, order)) =
        (level.orders.filter fun order ↦ order.id ≠ id).map fun order ↦ (side, level.price, order) := by
      unfold others
      rw [List.filter_map]
      rfl
    rw [entries_cons, others_append, hqueue, ← ih]
    unfold eraseOrder
    rw [List.map_cons, List.filter_cons]
    split
    · rw [entries_cons]
    · next hempty =>
      have hnil : level.orders.filter (fun order ↦ order.id ≠ id) = [] := by simpa using hempty
      rw [hnil, List.map_nil, List.nil_append]

theorem others_amendOrder (side : Side) (id : OrderId) (quantity : Quantity) (levels : List Level) :
    others id (entries side (amendOrder id quantity levels)) = others id (entries side levels) := by
  have hqueue (price : PriceTicks) (orders : List Order) :
      others id ((orders.map fun order ↦ if order.id = id then { order with quantity } else order).map
        fun order ↦ (side, price, order)) = others id (orders.map fun order ↦ (side, price, order)) := by
    induction orders with
    | nil => rfl
    | cons order orders ih =>
      rw [List.map_cons, List.map_cons, List.map_cons, others_cons, others_cons, ih]
      by_cases heq : order.id = id
      · simp [heq]
      · simp [heq]
  induction levels with
  | nil => rfl
  | cons level levels ih =>
    unfold amendOrder at ih ⊢
    rw [List.map_cons, entries_cons, entries_cons, others_append, others_append, ih, hqueue]

theorem others_appendOrder (descending : Bool) (side : Side) (price : PriceTicks) (order : Order)
    (levels : List Level) :
    others order.id (entries side (appendOrder descending price order levels)) =
      others order.id (entries side levels) := by
  have hself (p : PriceTicks) : others order.id [(side, p, order)] = [] := by simp [others]
  induction levels with
  | nil => exact hself price
  | cons level levels ih =>
    rw [appendOrder]
    split
    · rw [entries_cons, entries_cons, List.map_append, others_append, others_append, others_append,
        List.map_singleton, hself, List.append_nil]
    split
    · rw [entries_cons, others_append, List.map_singleton, hself, List.nil_append]
    · rw [entries_cons, entries_cons, others_append, others_append, ih]

/-! ## The book -/

namespace Book

/-- A side changed in `f` only, where the other side is a fixed point of `f`. -/
theorem entries_setSide {f : List Entry → List Entry} (happend : ∀ es es', f (es ++ es') = f es ++ f es')
    (hside : Logical.entries side levels = f (Logical.entries side (book.side side)))
    (hother : f (Logical.entries side.opposite (book.side side.opposite)) =
      Logical.entries side.opposite (book.side side.opposite)) :
    (book.setSide side levels).entries = f book.entries := by
  unfold Book.entries
  rw [happend]
  cases side with
  | buy => exact congrArg₂ (· ++ ·) hside hother.symm
  | sell => exact congrArg₂ (· ++ ·) hother.symm hside

theorem others_setSide
    (hside : others id (Logical.entries side levels) = others id (Logical.entries side (book.side side))) :
    others id (book.setSide side levels).entries = others id book.entries := by
  unfold Book.entries
  rw [others_append, others_append]
  cases side with
  | buy => exact congrArg₂ (· ++ ·) hside rfl
  | sell => exact congrArg₂ (· ++ ·) rfl hside

theorem others_erase (book : Book) (side : Side) (id : OrderId) :
    others id (book.erase side id).entries = others id book.entries := by
  apply others_setSide
  rw [entries_eraseOrder, others_others]

theorem others_append_order (book : Book) (side : Side) (price : PriceTicks) (order : Order) :
    others order.id (book.append side price order).entries = others order.id book.entries :=
  others_setSide (others_appendOrder ..)

/-- A cancel leaves every other order where it was. -/
theorem others_cancel {cancel : CancelOrder} {cancelled : CancelledOrder}
    (hok : book.cancel cancel = .ok (cancelled, book')) :
    others cancel.orderId book'.entries = others cancel.orderId book.entries := by
  unfold Book.cancel at hok
  split at hok
  · simp at hok
  · obtain ⟨-, rfl⟩ := Prod.ext_iff.mp (Except.ok.inj hok)
    exact others_erase ..

/-- A replace leaves every other order where it was. -/
theorem others_replace {replace : ReplaceOrder} {replaced : ReplacedOrder}
    (hok : book.replace LEVELS ORDERS replace = .ok (replaced, book')) :
    others replace.orderId book'.entries = others replace.orderId book.entries := by
  unfold Book.replace at hok
  split at hok
  · simp at hok
  next side oldPrice old _ =>
  simp only at hok
  split at hok
  · simp at hok
  split at hok
  · simp at hok
  split at hok
  · obtain ⟨-, rfl⟩ := Prod.ext_iff.mp (Except.ok.inj hok)
    exact others_setSide (others_amendOrder ..)
  split at hok
  · simp at hok
  · obtain ⟨-, rfl⟩ := Prod.ext_iff.mp (Except.ok.inj hok)
    exact (others_append_order (book.erase side replace.orderId) side replace.price
      ⟨replace.orderId, replace.accountId, replace.quantity, replace.sequence⟩).trans (others_erase ..)

/-- A new order reduces its makers and leaves every other order where it was. -/
theorem Restorable.others_submit (h : book.Restorable LEVELS ORDERS) {capacity : ℕ} {order : NewOrder}
    {summary : MatchSummary} {fills : List Fill}
    (hok : book.submit LEVELS ORDERS capacity order = .ok (summary, fills, book')) :
    others order.orderId book'.entries =
        book.entries.filterMap (afterReports (fills.map (Fill.report order))) ∧
      (∀ fill ∈ fills, ∃ entry ∈ book.entries, entry.2.2.id = fill.makerId ∧
        entry.1 = order.side.opposite) ∧
      ∀ entry ∈ book.entries,
        tradedWith entry.2.2.id (fills.map (Fill.report order)) ≤ entry.2.2.quantity.val := by
  unfold Book.submit at hok
  split at hok
  · simp at hok
  next hadmission =>
  obtain ⟨_, _, _, hfind, _⟩ := admitted hadmission
  unfold Book.trade at hok
  simp only at hok
  split at hok
  · simp at hok
  split at hok
  · simp at hok
  next resting discarded houtcome =>
  have hmatched := matchLevels_matched order.side order.price (h.shaped order.side.opposite).nonempty
    order.quantity
  set walk := matchLevels order.side order.price (book.side order.side.opposite) order.quantity
  obtain ⟨-, hpair⟩ := Prod.ext_iff.mp (Except.ok.inj hok)
  obtain ⟨rfl, rfl⟩ := Prod.ext_iff.mp hpair
  have hsub : ∀ entry ∈ Logical.entries order.side.opposite (book.side order.side.opposite),
      entry ∈ book.entries := fun entry hentry ↦
    (entries_perm_sides book order.side).mem_iff.mpr (List.mem_append_right _ hentry)
  have hids := h.ids
  rw [((entries_perm_sides book order.side).map _).nodup_iff, List.map_append] at hids
  have hpos := h.compatible.quantity_pos
  have hmakers : ∀ fill ∈ walk.1, ∃ entry ∈ Logical.entries order.side.opposite
      (book.side order.side.opposite), entry.2.2.id = fill.makerId := hmatched.makers order.side.opposite
  have huntraded : ∀ entry ∈ Logical.entries order.side (book.side order.side),
      tradedWith entry.2.2.id (walk.1.map (Fill.report order)) = 0 := by
    intro entry hentry
    apply tradedWith_eq_zero
    intro report hreport heq
    obtain ⟨fill, hfill, rfl⟩ := List.mem_map.mp hreport
    obtain ⟨maker, hmakerMem, hmakerId⟩ := hmakers fill hfill
    exact absurd (List.mem_map.mpr ⟨maker, hmakerMem, hmakerId.trans heq⟩)
      (List.disjoint_left.mp (List.disjoint_of_nodup_append hids) (List.mem_map_of_mem hentry))
  have htraded : (book.setSide order.side.opposite walk.2.1).entries =
      book.entries.filterMap (afterReports (walk.1.map (Fill.report order))) := by
    refine entries_setSide (fun _ _ ↦ List.filterMap_append)
      (hmatched.entries_eq order _ (fun e he ↦ hpos e (hsub e he)) (List.Nodup.of_append_right hids)) ?_
    have hopposite : order.side.opposite.opposite = order.side := by cases order.side <;> rfl
    rw [hopposite, List.filterMap_congr (g := some), List.filterMap_some]
    intro entry hentry
    exact afterReports_of_untraded (hpos entry
      ((entries_perm_sides book order.side).mem_iff.mpr (List.mem_append_left _ hentry)))
      (huntraded entry hentry)
  refine ⟨?_, fun fill hfill ↦ ?_, fun entry hentry ↦ ?_⟩
  · have habsent : ∀ entry ∈ (book.setSide order.side.opposite walk.2.1).entries,
        entry.2.2.id ≠ order.orderId := by
      intro entry hentry
      rw [htraded] at hentry
      obtain ⟨prior, hprior, hafter⟩ := List.mem_filterMap.mp hentry
      rw [(afterReports_eq_some hafter).2.2.1]
      exact find_eq_none.mp hfind prior hprior
    rw [← htraded]
    unfold settleWalk
    simp only
    split
    · exact (others_append_order _ _ _ (restingOrder order resting)).trans (others_of_absent habsent)
    · exact others_of_absent habsent
  · obtain ⟨entry, hentry, hid⟩ := hmakers fill hfill
    exact ⟨entry, hsub entry hentry, hid, (mem_entries.mp hentry).1⟩
  · rcases List.mem_append.mp ((entries_perm_sides book order.side).mem_iff.mp hentry) with hentry | hentry
    · rw [huntraded entry hentry]
      exact Nat.zero_le _
    · exact hmatched.traded_le order _ (List.Nodup.of_append_right hids) entry hentry

end Book

/-- The orders with one id, in a collection made of at most one of them and of others. -/
theorem own_of_perm {new rest es : List Entry} (hperm : es.Perm (new ++ rest))
    (hnew : ∀ entry ∈ new, entry.2.2.id = id) (hrest : ∀ entry ∈ rest, entry.2.2.id ≠ id)
    (hlength : new.length ≤ 1) : own id es = new := by
  have hfilter : (own id es).Perm new := by
    have hown := hperm.filter fun entry ↦ entry.2.2.id = id
    have hnewOwn : new.filter (fun entry ↦ entry.2.2.id = id) = new :=
      List.filter_eq_self.mpr fun e he ↦ decide_eq_true (hnew e he)
    have hrestOwn : rest.filter (fun entry ↦ entry.2.2.id = id) = [] :=
      List.filter_eq_nil_iff.mpr fun e he ↦ by simpa using hrest e he
    rw [List.filter_append, hnewOwn, hrestOwn, List.append_nil] at hown
    exact hown
  cases new with
  | nil => exact List.perm_nil.mp hfilter
  | cons entry new =>
    obtain rfl : new = [] := List.eq_nil_of_length_eq_zero (by simpa using hlength)
    exact List.perm_singleton.mp hfilter

/-- An exchanged order is the only one with its id. -/
theorem Exchanges.own_eq {entry : Entry} {new es es' : List Entry} (h : Exchanges [entry] new es es')
    (hnew : ∀ e ∈ new, e.2.2.id = entry.2.2.id) (hids : (es.map fun e ↦ e.2.2.id).Nodup)
    (hlength : new.length ≤ 1) : own entry.2.2.id es' = new := by
  obtain ⟨rest, hperm, hperm'⟩ := h
  refine own_of_perm hperm' hnew ?_ hlength
  intro e he heq
  rw [(hperm.map _).nodup_iff, List.singleton_append, List.map_cons] at hids
  exact (List.nodup_cons.mp hids).1 (List.mem_map.mpr ⟨e, he, heq⟩)

end DeterministicExchange.Logical
