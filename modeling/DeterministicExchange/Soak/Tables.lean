import DeterministicExchange.Book.Replacement
import DeterministicExchange.Soak.LiveOrders

/-!
# Tables that list a book

A table that lists the resting orders of a book finds the top of that book, whatever
slots the orders are in. Its calls exchange the orders that the operations of the book
exchange: each trade reduces the maker that the walk has reached, a remainder takes a
free slot, and a cancel or a replace changes the one order of its id.
-/

namespace DeterministicExchange.Soak

open Machine Book Events

/-! ## The best level of a collection -/

section Best

variable {side : Side} {orders orders' : List LiveOrder} {top top' : Option TopLevel}

/-- The best price among orders, with the quantity and the number of the orders at that price. -/
def IsTop (side : Side) (orders : List LiveOrder) : Option TopLevel → Prop
  | none => orders = []
  | some top => (∃ order ∈ orders, order.price = top.price) ∧
      (∀ order ∈ orders, Logical.NoWorse side top.price order.price) ∧
      top.aggregateQuantity =
        ((orders.filter fun order ↦ order.price = top.price).map fun order ↦ order.quantity.val).sum ∧
      top.orderCount = (orders.filter fun order ↦ order.price = top.price).length

theorem IsTop.perm (h : IsTop side orders top) (hperm : orders.Perm orders') : IsTop side orders' top := by
  cases top with
  | none =>
    have hnil : orders = [] := h
    rw [hnil] at hperm
    exact List.nil_perm.mp hperm
  | some top =>
    obtain ⟨⟨order, horder, hprice⟩, hbest, hquantity, hcount⟩ := h
    have hlevel := hperm.filter fun order ↦ decide (order.price = top.price)
    refine ⟨⟨order, hperm.mem_iff.mp horder, hprice⟩, fun o ho ↦ hbest o (hperm.mem_iff.mpr ho), ?_, ?_⟩
    · rw [hquantity, (hlevel.map _).sum_eq]
    · rw [hcount, hlevel.length_eq]

theorem before_iff {price price' : PriceTicks} :
    SortedIndex.before (descending side) price price' = true ↔
      match side with
      | .buy => price'.val < price.val
      | .sell => price.val < price'.val := by
  cases side with
  | buy => simp [SortedIndex.before, descending]
  | sell => simp [SortedIndex.before, descending]

theorem noWorse_antisymm {price price' : PriceTicks} (h : Logical.NoWorse side price price')
    (h' : Logical.NoWorse side price' price) : price = price' := by
  rcases h with heq | hbefore
  · exact heq
  rcases h' with heq | hbefore'
  · exact heq.symm
  rw [before_iff] at hbefore hbefore'
  cases side with
  | buy => exact absurd hbefore' (lt_asymm hbefore)
  | sell => exact absurd hbefore' (lt_asymm hbefore)

theorem IsTop.unique (h : IsTop side orders top) (h' : IsTop side orders top') : top = top' := by
  cases top with
  | none =>
    cases top' with
    | none => rfl
    | some level' =>
      obtain ⟨⟨order, horder, _⟩, _⟩ := h'
      rw [show orders = [] from h] at horder
      exact absurd horder (by simp)
  | some level =>
    cases top' with
    | none =>
      obtain ⟨⟨order, horder, _⟩, _⟩ := h
      rw [show orders = [] from h'] at horder
      exact absurd horder (by simp)
    | some level' =>
      obtain ⟨⟨order, horder, hprice⟩, hbest, hquantity, hcount⟩ := h
      obtain ⟨⟨order', horder', hprice'⟩, hbest', hquantity', hcount'⟩ := h'
      have hsame : level.price = level'.price := by
        apply @noWorse_antisymm side
        · rw [← hprice']
          exact hbest order' horder'
        · rw [← hprice]
          exact hbest' order horder
      rw [← hsame] at hquantity' hcount'
      obtain ⟨price, quantity, count⟩ := level
      obtain ⟨price', quantity', count'⟩ := level'
      simp_all

theorem before_trans {price price' price'' : PriceTicks}
    (h : SortedIndex.before (descending side) price price' = true)
    (h' : Logical.NoWorse side price' price'') :
    SortedIndex.before (descending side) price price'' = true := by
  rcases h' with rfl | h'
  · exact h
  rw [before_iff] at h h' ⊢
  cases side with
  | buy => exact h'.trans h
  | sell => exact h.trans h'

theorem not_before_self (price : PriceTicks) :
    SortedIndex.before (descending side) price price ≠ true := by
  rw [Ne, before_iff]
  cases side with
  | buy => exact lt_irrefl _
  | sell => exact lt_irrefl _

/-- The step of the walk in terms of the price order. -/
theorem topStep_some (level : TopLevel) (order : LiveOrder) :
    LiveOrders.topStep side (some level) order =
      if level.price = order.price then
        some ⟨level.price, level.aggregateQuantity + order.quantity.val, level.orderCount + 1⟩
      else if SortedIndex.before (descending side) level.price order.price then some level
      else some ⟨order.price, order.quantity.val, 1⟩ := by
  cases side <;> rfl

theorem IsTop.step (h : IsTop side orders top) (order : LiveOrder) :
    IsTop side (orders ++ [order]) (LiveOrders.topStep side top order) := by
  cases top with
  | none =>
    rw [show orders = [] from h]
    refine ⟨⟨order, by simp, rfl⟩, ?_, by simp, by simp⟩
    intro o ho
    rw [List.mem_singleton.mp ho]
    exact .inl rfl
  | some level =>
    obtain ⟨⟨first, hfirst, hprice⟩, hbest, hquantity, hcount⟩ := h
    rw [topStep_some]
    by_cases hsame : level.price = order.price
    · rw [if_pos hsame]
      refine ⟨⟨first, by simp [hfirst], hprice⟩, ?_, ?_, ?_⟩
      · intro o ho
        rcases List.mem_append.mp ho with ho | ho
        · exact hbest o ho
        · rw [List.mem_singleton.mp ho]
          exact .inl hsame
      · simp [List.filter_append, hquantity, hsame]
      · simp [List.filter_append, hcount, hsame]
    rw [if_neg hsame]
    by_cases hbetter : SortedIndex.before (descending side) level.price order.price = true
    · rw [if_pos hbetter]
      have hother : ¬ order.price = level.price := fun heq ↦ hsame heq.symm
      refine ⟨⟨first, by simp [hfirst], hprice⟩, ?_, ?_, ?_⟩
      · intro o ho
        rcases List.mem_append.mp ho with ho | ho
        · exact hbest o ho
        · rw [List.mem_singleton.mp ho]
          exact .inr hbetter
      · simp [List.filter_append, hquantity, hother]
      · simp [List.filter_append, hcount, hother]
    · rw [if_neg hbetter]
      -- a better price than all before it, so that its level is this order alone
      have hbeats : SortedIndex.before (descending side) order.price level.price = true := by
        rw [before_iff] at hbetter ⊢
        have hne : level.price.val ≠ order.price.val := fun heq ↦ hsame (Subtype.ext heq)
        cases side with
        | buy => exact lt_of_le_of_ne (not_lt.mp hbetter) hne
        | sell => exact lt_of_le_of_ne (not_lt.mp hbetter) hne.symm
      have halone : orders.filter (fun o ↦ decide (o.price = order.price)) = [] := by
        rw [List.filter_eq_nil_iff]
        intro o ho heq
        have hbefore := before_trans hbeats (hbest o ho)
        rw [of_decide_eq_true heq] at hbefore
        exact not_before_self _ hbefore
      refine ⟨⟨order, by simp, rfl⟩, ?_, ?_, ?_⟩
      · intro o ho
        rcases List.mem_append.mp ho with ho | ho
        · exact .inr (before_trans hbeats (hbest o ho))
        · rw [List.mem_singleton.mp ho]
          exact .inl rfl
      · rw [List.filter_append, halone]
        simp
      · rw [List.filter_append, halone]
        simp

/-- The walk over the orders finds their best level. -/
theorem isTop_foldl (side : Side) (orders : List LiveOrder) :
    IsTop side orders (orders.foldl (LiveOrders.topStep side) none) := by
  induction orders using List.reverseRecOn with
  | nil => rfl
  | append_singleton orders order ih =>
    rw [List.foldl_append, List.foldl_cons, List.foldl_nil]
    exact ih.step order

end Best

/-! ## Tables that list a book -/

/-- The table entry of a resting order. -/
def liveOf (entry : Logical.Entry) : LiveOrder :=
  ⟨entry.2.2.id, entry.2.2.accountId, entry.2.1, entry.2.2.quantity, entry.1⟩

/-- The table holds exactly the given resting orders. -/
def Lists {RISK_ORDERS : ℕ} (table : LiveOrders RISK_ORDERS) (entries : List Logical.Entry) : Prop :=
  table.live.Perm (entries.map liveOf)

section Listing

variable {RISK_ORDERS : ℕ} {table : LiveOrders RISK_ORDERS} {entries others : List Logical.Entry}
  {entry : Logical.Entry} {book : Logical.Book}

theorem filter_entries (side side' : Side) (levels : List Logical.Level) :
    (Logical.entries side' levels).filter (fun entry ↦ entry.1 = side) =
      if side' = side then Logical.entries side levels else [] := by
  by_cases hsame : side' = side
  · subst hsame
    rw [if_pos rfl, List.filter_eq_self]
    intro entry hentry
    simpa using (Logical.mem_entries.mp hentry).1
  · rw [if_neg hsame, List.filter_eq_nil_iff]
    intro entry hentry
    rw [(Logical.mem_entries.mp hentry).1]
    simpa using hsame

theorem filter_book_entries (book : Logical.Book) (side : Side) :
    book.entries.filter (fun entry ↦ entry.1 = side) = Logical.entries side (book.side side) := by
  unfold Logical.Book.entries
  rw [List.filter_append, filter_entries, filter_entries]
  cases side with
  | buy => exact List.append_nil _
  | sell => rfl

/-- The head level of a sorted side is its top. -/
theorem isTop_book (h : book.Orderly) (side : Side) :
    IsTop side ((Logical.entries side (book.side side)).map liveOf) (book.topLevel side) := by
  unfold Logical.Book.topLevel
  have hsorted := h.sorted side
  have hnonempty := h.nonempty side
  cases hside : book.side side with
  | nil => rfl
  | cons level levels =>
    rw [hside] at hsorted hnonempty
    rw [List.pairwise_cons] at hsorted
    obtain ⟨order, orders, horders⟩ := List.exists_cons_of_ne_nil (hnonempty level List.mem_cons_self)
    have hworse : ∀ live ∈ (Logical.entries side levels).map liveOf,
        SortedIndex.before (descending side) level.price live.price = true := by
      intro live hlive
      obtain ⟨entry, hentry, rfl⟩ := List.mem_map.mp hlive
      obtain ⟨_, other, hother, hprice, _⟩ := Logical.mem_entries.mp hentry
      show SortedIndex.before _ level.price entry.2.1 = true
      rw [← hprice]
      exact hsorted.1 other hother
    have hlevel : ((Logical.entries side (level :: levels)).map liveOf).filter
        (fun live ↦ live.price = level.price) =
          level.orders.map fun order ↦ liveOf (side, level.price, order) := by
      rw [Logical.entries_cons, List.map_append, List.map_map, List.filter_append,
        List.filter_eq_self.mpr, List.filter_eq_nil_iff.mpr, List.append_nil]
      · rfl
      · intro live hlive heq
        have hbefore := hworse live hlive
        rw [of_decide_eq_true heq] at hbefore
        exact not_before_self _ hbefore
      · intro live hlive
        obtain ⟨_, _, rfl⟩ := List.mem_map.mp hlive
        simp [liveOf]
    refine ⟨⟨liveOf (side, level.price, order), ?_, rfl⟩, ?_, ?_, ?_⟩
    · rw [Logical.entries_cons, horders]
      simp
    · intro live hlive
      rw [Logical.entries_cons, List.map_append] at hlive
      rcases List.mem_append.mp hlive with hlive | hlive
      · rw [List.map_map] at hlive
        obtain ⟨_, _, rfl⟩ := List.mem_map.mp hlive
        exact .inl rfl
      · exact .inr (hworse live hlive)
    · rw [hlevel, List.map_map]
      rfl
    · rw [hlevel, List.length_map]

/-- A table that lists a book has the tops of that book. -/
theorem Lists.top (h : Lists table book.entries) (hbook : book.Orderly) (side : Side) :
    table.top side = book.topLevel side := by
  have hside : (table.live.filter fun order ↦ order.side = side).Perm
      ((Logical.entries side (book.side side)).map liveOf) := by
    have hmap : (book.entries.filter fun entry ↦ entry.1 = side).map liveOf =
        (book.entries.map liveOf).filter fun order ↦ order.side = side := by
      rw [List.filter_map]
      rfl
    rw [← filter_book_entries, hmap]
    exact h.filter _
  exact (isTop_foldl side _).unique ((isTop_book hbook side).perm hside.symm)

theorem Lists.tops (h : Lists table book.entries) (hbook : book.Orderly) :
    table.tops = (book.topLevel .buy, book.topLevel .sell) := by
  unfold LiveOrders.tops
  rw [h.top hbook, h.top hbook]

theorem Lists.congr {entries' : List Logical.Entry} (h : Lists table entries)
    (hperm : entries.Perm entries') : Lists table entries' := h.trans (hperm.map _)

/-- The slot of a listed order, and what a write to it does. -/
theorem Lists.slot (h : Lists table (entry :: others))
    (hids : ((entry :: others).map fun entry ↦ entry.2.2.id).Nodup) :
    ∃ i, table.slot entry.2.2.id = .ok (i, liveOf entry) ∧ Lists (table.put i none) others ∧
      ∀ entry', Lists (table.put i (some (liveOf entry'))) (entry' :: others) := by
  have hmem : liveOf entry ∈ table.live := h.mem_iff.mpr List.mem_cons_self
  have honly : ∀ order ∈ table.live, decide (order.orderId = entry.2.2.id) = true → order = liveOf entry := by
    intro order horder heq
    obtain ⟨other, hother, rfl⟩ := List.mem_map.mp (h.mem_iff.mp horder)
    rw [List.inj_on_of_nodup_map hids hother List.mem_cons_self (of_decide_eq_true heq)]
  obtain ⟨i, hfind, hget⟩ := SlotArray.findSlot_value hmem (decide_eq_true rfl) honly
  obtain ⟨pre, post, hvalues, hset⟩ := SlotArray.values_set hget
  -- the other orders are those around the slot
  have hrest : (pre ++ post).Perm (others.map liveOf) := by
    have hall : (pre ++ [liveOf entry] ++ post).Perm (liveOf entry :: others.map liveOf) := by
      have hlisted : table.live.Perm ((entry :: others).map liveOf) := h
      rwa [LiveOrders.live, hvalues] at hlisted
    have hmiddle : (liveOf entry :: (pre ++ post)).Perm (pre ++ [liveOf entry] ++ post) := by
      rw [List.append_assoc]
      exact List.perm_middle.symm
    exact (hmiddle.trans hall).cons_inv
  refine ⟨i, ?_, ?_, fun entry' ↦ ?_⟩
  · unfold LiveOrders.slot
    simp only [hfind, okOr, except_ok_bind, hget, Option.join_some]
    rfl
  · show (SlotArray.values _).Perm _
    rw [LiveOrders.put, hset]
    simpa using hrest
  · show (SlotArray.values _).Perm _
    rw [LiveOrders.put, hset, List.append_assoc, List.map_cons]
    exact List.perm_middle.trans (hrest.cons _)

end Listing

/-! ## Trades -/

section Trades

variable {RISK_ORDERS : ℕ} {table : LiveOrders RISK_ORDERS} {taker : NewOrder} {price : PriceTicks}
  {order : Logical.Order} {others : List Logical.Entry} {traded : Quantity}

/-- A fill of the book, on the table. -/
theorem Lists.applyTrade {side : Side} (h : Lists table ((side.opposite, price, order) :: others))
    (hids : (((side.opposite, price, order) :: others).map fun entry ↦ entry.2.2.id).Nodup)
    (hside : taker.side = side) (hcrosses : crosses side taker.price price = true)
    (hpos : 0 < traded.val) (hle : traded.val ≤ order.quantity.val) {before : U64}
    (hsum : before.val + traded.val < 2 ^ 64) (sequence : SequenceNumber) (ordinal : U16) :
    ∃ after table', table.applyTrade (.newOrder taker)
        ⟨⟨sequence, ordinal⟩, order.id, taker.orderId, taker.instrumentId, price, traded⟩ before =
          .ok (after, table') ∧
      after.val = before.val + traded.val ∧
      Lists table' (Logical.makerRest side.opposite price order traded ++ others) := by
  obtain ⟨i, hslot, hnone, hsome⟩ := h.slot hids
  obtain ⟨after, hadd, hafter⟩ := Unsigned.checkedAdd_of_lt hsum
  have hslot' : table.slot order.id = .ok (i, liveOf (side.opposite, price, order)) := hslot
  have hsub : Unsigned.checkedSub order.quantity traded = some (Unsigned.monus order.quantity traded) :=
    Unsigned.checkedSub_of_le hle
  have hnamed : ¬ (taker.orderId ≠ taker.orderId ∨ traded.val = 0) := by
    rintro (hne | hzero)
    · exact hne rfl
    · omega
  have hmaker : ¬ ((liveOf (side.opposite, price, order)).side = taker.side ∨
      price ≠ (liveOf (side.opposite, price, order)).price ∨
        (!LiveOrders.takerCrosses taker price) = true) := by
    have hlimit : LiveOrders.takerCrosses taker price = crosses taker.side taker.price price := rfl
    rintro (hsame | hne | hstops)
    · have hopposite : side.opposite = side := hsame.trans hside
      cases side <;> exact absurd hopposite (by decide)
    · exact hne rfl
    · rw [hlimit, hside, hcrosses] at hstops
      exact absurd hstops (by decide)
  refine ⟨after, table.put i (if (Unsigned.monus order.quantity traded).val = 0 then none
    else some { liveOf (side.opposite, price, order) with
      quantity := Unsigned.monus order.quantity traded }), ?_, hafter, ?_⟩
  · unfold LiveOrders.applyTrade
    simp only
    rw [if_neg hnamed]
    simp only [hslot', except_ok_bind]
    rw [if_neg hmaker]
    simp only [hadd, okOr, except_ok_bind]
    have hsub' : Unsigned.checkedSub (liveOf (side.opposite, price, order)).quantity traded =
        some (Unsigned.monus order.quantity traded) := hsub
    simp only [hsub', except_ok_bind]
    rfl
  · rw [Unsigned.monus_val]
    unfold Logical.makerRest
    by_cases hpartly : traded.val < order.quantity.val
    · rw [if_neg (by omega), if_pos hpartly]
      exact hsome (side.opposite, price, { order with quantity := Unsigned.monus order.quantity traded })
    · rw [if_pos (by omega), if_neg hpartly]
      exact hnone

/-- Orders with a quantity left, and with ids of their own. -/
structure Proper (entries : List Logical.Entry) : Prop where
  quantity_pos : ∀ entry ∈ entries, 0 < entry.2.2.quantity.val
  ids : (entries.map fun entry ↦ entry.2.2.id).Nodup

theorem Proper.makerRest {side : Side} (h : Proper ((side, price, order) :: others)) (traded : Quantity) :
    Proper (Logical.makerRest side price order traded ++ others) := by
  have hothers : Proper others := by
    refine ⟨fun entry hentry ↦ h.quantity_pos entry (List.mem_cons_of_mem _ hentry), ?_⟩
    have hids := h.ids
    rw [List.map_cons] at hids
    exact hids.of_cons
  unfold Logical.makerRest
  split
  · next hpartly =>
    refine ⟨?_, h.ids⟩
    intro entry hentry
    rcases List.mem_cons.mp hentry with rfl | hentry
    · show 0 < order.quantity.val - traded.val
      omega
    · exact hothers.quantity_pos entry hentry
  · exact hothers

/-- A walk of the book, on the table: its trades reduce the makers as the walk has done. -/
theorem Lists.applyTrades {side : Side} (hside : taker.side = side) {levels rest : List Logical.Level}
    {remaining left : Quantity} {fills : List Logical.Fill}
    (hmatched : Logical.Matched side taker.price levels remaining fills rest left) {before : U64}
    (h : Lists table (Logical.entries side.opposite levels ++ others))
    (hproper : Proper (Logical.entries side.opposite levels ++ others))
    (hsum : before.val + remaining.val < 2 ^ 64) (sequence : SequenceNumber) (ordinal : ℕ)
    (events : List Event) :
    ∃ after table', LiveOrders.applyTrades (.newOrder taker)
        (tradeEvents sequence (fills.map (Logical.Fill.report taker)) ordinal ++ events) before table =
          LiveOrders.applyTrades (.newOrder taker) events after table' ∧
      after.val + left.val = before.val + remaining.val ∧
      Lists table' (Logical.entries side.opposite rest ++ others) := by
  induction hmatched generalizing table before ordinal with
  | done levels remaining _ => exact ⟨before, table, rfl, rfl, h⟩
  | fill price order orders levels remaining traded fills rest left hremaining hcrosses htraded _ ih =>
    set behind := orders.map (fun o ↦ (side.opposite, price, o)) ++
      Logical.entries side.opposite levels ++ others with hbehind
    have hentries : Logical.entries side.opposite (⟨price, order :: orders⟩ :: levels) ++ others =
        (side.opposite, price, order) :: behind := by
      rw [Logical.entries_cons, List.map_cons, List.cons_append, List.cons_append]
    have hnext : Logical.entries side.opposite (Logical.consume price order orders levels traded) ++ others =
        Logical.makerRest side.opposite price order traded ++ behind := by
      rw [Logical.entries_consume, hbehind, List.append_assoc, List.append_assoc]
    rw [hentries] at h hproper
    have hquantity : 0 < order.quantity.val :=
      hproper.quantity_pos (side.opposite, price, order) List.mem_cons_self
    have hmin : traded.val = min remaining.val order.quantity.val := by
      rw [htraded]
      exact Fin.coe_min _ _
    have hpos : 0 < traded.val := by omega
    have hle : traded.val ≤ order.quantity.val := by omega
    have hroom : before.val + traded.val < 2 ^ 64 := by omega
    obtain ⟨middle, table₁, htrade, hmiddle, hlists⟩ :=
      h.applyTrade hproper.ids hside hcrosses hpos hle hroom sequence (Fin.ofNat (2 ^ 16) ordinal)
    have hproper' := hproper.makerRest traded
    rw [← hnext] at hlists hproper'
    have hleft : (Unsigned.monus remaining traded).val = remaining.val - traded.val := rfl
    have hsum' : middle.val + (Unsigned.monus remaining traded).val < 2 ^ 64 := by omega
    obtain ⟨after, table', hrest, hafter, hlists'⟩ := ih hlists hproper' hsum' (ordinal + 1)
    refine ⟨after, table', ?_, by omega, hlists'⟩
    rw [List.map_cons, tradeEvents, List.cons_append, tradeEvent, LiveOrders.applyTrades]
    have htrade' : table.applyTrade (.newOrder taker)
        ⟨⟨sequence, Fin.ofNat (2 ^ 16) ordinal⟩, order.id, taker.orderId, taker.instrumentId, price, traded⟩
          before = .ok (middle, table₁) := htrade
    simp only [Logical.Fill.report, OrderBook.report, htrade', except_ok_bind]
    exact hrest

end Trades

/-! ## Terminal events -/

section Terminal

variable {RISK_ORDERS LEVELS ORDERS : ℕ} {table : LiveOrders RISK_ORDERS} {order : NewOrder}
  {entries others : List Logical.Entry} {entry : Logical.Entry} {book book' : Logical.Book}

/-- The remainder of an order goes into a free slot. -/
theorem Lists.insert (h : Lists table entries) (event : Accepted)
    (hids : ((Logical.takerRest order event.restingQuantity ++ entries).map
      fun entry ↦ entry.2.2.id).Nodup)
    (hroom : (Logical.takerRest order event.restingQuantity ++ entries).length ≤ RISK_ORDERS) :
    ∃ table', table.insert event order = .ok table' ∧
      Lists table' (Logical.takerRest order event.restingQuantity ++ entries) := by
  unfold LiveOrders.insert Logical.takerRest at *
  by_cases hrests : 0 < event.restingQuantity.val
  · rw [if_pos hrests] at hids hroom ⊢
    rw [if_pos hrests.ne', List.singleton_append] at *
    rw [List.map_cons, List.nodup_cons] at hids
    rw [List.length_cons] at hroom
    have hlength : (SlotArray.values table.orders).length < RISK_ORDERS := by
      have hlisted : (SlotArray.values table.orders).length = (entries.map liveOf).length := h.length_eq
      rw [hlisted, List.length_map]
      exact hroom
    have hnew : ¬ (table.live.any fun live ↦ live.orderId = order.orderId) = true := by
      rw [List.any_eq_true]
      rintro ⟨live, hlive, heq⟩
      obtain ⟨entry, hentry, rfl⟩ := List.mem_map.mp (h.mem_iff.mp hlive)
      exact hids.1 (List.mem_map.mpr ⟨entry, hentry, of_decide_eq_true heq⟩)
    obtain ⟨i, hfind, hget⟩ := SlotArray.findSlot_free hlength
    obtain ⟨pre, post, hvalues, hset⟩ := SlotArray.values_set hget
    rw [if_neg hnew]
    simp only [hfind, okOr, except_ok_bind]
    refine ⟨_, rfl, ?_⟩
    show (SlotArray.values _).Perm _
    rw [LiveOrders.put, hset, List.append_assoc, List.map_cons]
    refine List.perm_middle.trans (List.Perm.cons _ ?_)
    have hlisted : (SlotArray.values table.orders).Perm (entries.map liveOf) := h
    rw [hvalues] at hlisted
    simpa using hlisted
  · rw [if_neg hrests, if_neg (not_not.mpr (Nat.eq_zero_of_not_pos hrests)), List.nil_append]
    exact ⟨table, rfl, h⟩

theorem Lists.remove (h : Lists table (entry :: others))
    (hids : ((entry :: others).map fun entry ↦ entry.2.2.id).Nodup) (event : Cancelled)
    (hid : event.orderId = entry.2.2.id) (howner : event.accountId = entry.2.2.accountId)
    (hquantity : event.quantity = entry.2.2.quantity) :
    ∃ table', table.remove event = .ok table' ∧ Lists table' others := by
  obtain ⟨i, hslot, hnone, _⟩ := h.slot hids
  refine ⟨table.put i none, ?_, hnone⟩
  unfold LiveOrders.remove
  rw [hid, hslot]
  simp only [except_ok_bind]
  rw [if_neg]
  rintro (hne | hne)
  · exact hne howner.symm
  · exact hne hquantity.symm

theorem Lists.amend (h : Lists table (entry :: others))
    (hids : ((entry :: others).map fun entry ↦ entry.2.2.id).Nodup) (event : Replaced)
    {replace : ReplaceOrder} (hid : event.orderId = entry.2.2.id)
    (howner : event.accountId = entry.2.2.accountId) (hold : event.oldQuantity = entry.2.2.quantity)
    (hnew : event.newQuantity = replace.quantity) (hprice : event.price = replace.price)
    (hpos : 0 < replace.quantity.val)
    (hpriority : event.priorityLost = false ↔
      replace.price = entry.2.1 ∧ replace.quantity.val < entry.2.2.quantity.val)
    (sequence : SequenceNumber) :
    ∃ table', table.amend event replace = .ok table' ∧ Lists table' ((entry.1, replace.price,
      ⟨entry.2.2.id, entry.2.2.accountId, replace.quantity, sequence⟩) :: others) := by
  obtain ⟨i, hslot, _, hsome⟩ := h.slot hids
  refine ⟨table.put i (some { liveOf entry with quantity := event.newQuantity, price := event.price }),
    ?_, ?_⟩
  · unfold LiveOrders.amend
    rw [hid, hslot]
    simp only [except_ok_bind]
    rw [if_neg]
    rintro (hne | hne | hne | hne | hzero | hlost)
    · exact hne howner.symm
    · exact hne hold.symm
    · exact hne hnew.symm
    · exact hne hprice.symm
    · rw [hnew] at hzero
      omega
    · by_cases hkeeps : replace.price = entry.2.1 ∧ replace.quantity.val < entry.2.2.quantity.val
      · rw [hpriority.mpr hkeeps] at hlost
        exact of_decide_eq_false hlost.symm hkeeps
      · have htrue : event.priorityLost = true := by
          rw [← Bool.not_eq_false, hpriority]
          exact hkeeps
        rw [htrue] at hlost
        exact hkeeps (of_decide_eq_true hlost.symm)
  · rw [hnew, hprice]
    exact hsome (entry.1, replace.price,
      ⟨entry.2.2.id, entry.2.2.accountId, replace.quantity, sequence⟩)

end Terminal

/-! ## Accepted commands -/

section Accepted

variable {RISK_ORDERS LEVELS ORDERS capacity : ℕ} {table : LiveOrders RISK_ORDERS} {order : NewOrder}
  {summary : MatchSummary} {fills : List Logical.Fill} {book book' : Logical.Book}

/-- An accepted order walks the opposing side, and its remainder rests. -/
theorem submit_walk (h : book.Orderly)
    (hok : book.submit LEVELS ORDERS capacity order = .ok (summary, fills, book')) :
    ∃ rest left resting discarded,
      Logical.Matched order.side order.price (book.side order.side.opposite) order.quantity fills rest
        left ∧
      0 < order.quantity.val ∧ left.val = resting.val + discarded.val ∧
      summary = Logical.Book.matchSummary order resting discarded fills.length ∧
      book' = book.settleWalk order rest resting := by
  unfold Logical.Book.submit at hok
  split at hok
  · exact absurd hok (by simp)
  next hadmission =>
  obtain ⟨_, _, hquantity, _, _⟩ := Logical.Book.admitted hadmission
  unfold Logical.Book.trade at hok
  simp only at hok
  split at hok
  · exact absurd hok (by simp)
  split at hok
  · exact absurd hok (by simp)
  next resting discarded houtcome =>
  have hmatched := Logical.matchLevels_matched order.side order.price (h.nonempty order.side.opposite)
    order.quantity
  obtain ⟨hsum, _⟩ := Logical.Book.remainderOutcome_ok houtcome
  obtain ⟨hsummary, hpair⟩ := Prod.mk.inj (Except.ok.inj hok)
  obtain ⟨hfills, hbook⟩ := Prod.mk.inj hpair
  rw [hfills] at hmatched hsummary
  exact ⟨_, _, resting, discarded, hmatched, hquantity, hsum.symm, hsummary.symm, hbook.symm⟩

theorem settleWalk_entries (book : Logical.Book) (order : NewOrder) (rest : List Logical.Level)
    (resting : Quantity) :
    (book.settleWalk order rest resting).entries.Perm (Logical.takerRest order resting ++
      (Logical.entries order.side.opposite rest ++ Logical.entries order.side (book.side order.side))) := by
  have htraded : (book.setSide order.side.opposite rest).entries.Perm
      (Logical.entries order.side.opposite rest ++ Logical.entries order.side (book.side order.side)) := by
    have hsides := Logical.entries_perm_sides (book.setSide order.side.opposite rest) order.side.opposite
    rw [Logical.side_setSide, Logical.side_opposite_setSide] at hsides
    cases hside : order.side <;> rw [hside] at hsides <;> exact hsides
  unfold Logical.Book.settleWalk Logical.takerRest
  simp only
  split
  · have happend : Logical.Exchanges [] [(order.side, order.price, Logical.Book.restingOrder order resting)]
        (book.setSide order.side.opposite rest).entries
        ((book.setSide order.side.opposite rest).append order.side order.price
          (Logical.Book.restingOrder order resting)).entries :=
      (Logical.exchanges_append (descending order.side) order.side order.price _ _).setSide
    obtain ⟨others, hold, hnew⟩ := happend
    exact hnew.trans ((hold.symm.trans htraded).append_left _)
  · exact htraded

/-- An accepted order leaves what its time in force allows. -/
theorem validTif_of_priceTime {reports : List ExecutionReport}
    (h : Logical.PriceTime order summary reports book book') {event : Accepted}
    (hfilled : event.filledQuantity = summary.filledQuantity)
    (hresting : event.restingQuantity = summary.restingQuantity)
    (hdiscarded : event.discardedQuantity = summary.discardedQuantity) :
    LiveOrders.validTif event order = true := by
  have hdiscards : order.timeInForce ≠ .ioc → summary.discardedQuantity.val = 0 := fun hne ↦ by
    by_contra hpos
    exact hne (h.ioc (Nat.pos_of_ne_zero hpos))
  unfold LiveOrders.validTif
  rw [hfilled, hresting, hdiscarded]
  cases htif : order.timeInForce with
  | gtc => exact decide_eq_true (hdiscards (by simp [htif]))
  | ioc =>
    apply decide_eq_true
    by_contra hpos
    rcases (h.rests (Nat.pos_of_ne_zero hpos)).1 with hgtc | hpost
    · rw [htif] at hgtc
      exact absurd hgtc (by decide)
    · rw [htif] at hpost
      exact absurd hpost (by decide)
  | fok => exact decide_eq_true (h.fok htif)
  | postOnly =>
    have hnone : summary.filledQuantity.val = 0 := by
      have hsum := h.filled
      rw [h.postOnly htif] at hsum
      exact hsum.symm
    have hzero := hdiscards (by simp [htif])
    have hconserved := h.conserved
    exact decide_eq_true ⟨hnone, Fin.ext (by omega)⟩

/-- The event of an accepted order passes the accounting. -/
theorem validateAccepted_of_submit (h : book.Orderly)
    (hok : book.submit LEVELS ORDERS capacity order = .ok (summary, fills, book')) (event : Accepted)
    (hstate : event.state = summary.state) (hfilled : event.filledQuantity = summary.filledQuantity)
    (hresting : event.restingQuantity = summary.restingQuantity)
    (hdiscarded : event.discardedQuantity = summary.discardedQuantity) :
    LiveOrders.validateAccepted event order summary.filledQuantity = .ok () := by
  have hpriceTime := h.submit hok
  obtain ⟨_, _, resting, discarded, _, hquantity, _, hsummary, _⟩ := submit_walk h hok
  have hconserved := hpriceTime.conserved
  have hexpected : event.state = LiveOrders.expectedState event order := by
    unfold LiveOrders.expectedState
    rw [hstate, hfilled, hsummary]
    rfl
  have htotal : (Unsigned.checkedAdd event.filledQuantity event.restingQuantity).bind
      (fun quantity ↦ Unsigned.checkedAdd quantity event.discardedQuantity) = some order.quantity := by
    rw [hfilled, hresting, hdiscarded]
    have hroom : summary.filledQuantity.val + summary.restingQuantity.val < 2 ^ 64 := by omega
    obtain ⟨sum, hadd, hsum⟩ := Unsigned.checkedAdd_of_lt hroom
    rw [hadd, Option.bind_some, Unsigned.checkedAdd_eq_some, hsum, hconserved]
  have htif := validTif_of_priceTime hpriceTime hfilled hresting hdiscarded
  unfold LiveOrders.validateAccepted
  simp only
  rw [if_neg, if_neg (not_not.mpr hexpected), if_neg (by simp [htif])]
  rintro (hzero | hne | hne)
  · omega
  · exact hne htotal
  · exact hne hfilled

/-! ### On the table -/

theorem Proper.of_orderly (h : book.Orderly) : Proper book.entries := by
  refine ⟨?_, h.ids⟩
  intro entry hentry
  obtain ⟨level, hlevel, _, horder⟩ := Logical.mem_book_entries.mp hentry
  exact h.quantity_pos _ level hlevel _ horder

theorem Proper.perm {entries entries' : List Logical.Entry} (h : Proper entries)
    (hperm : entries.Perm entries') : Proper entries' where
  quantity_pos := fun entry hentry ↦ h.quantity_pos entry (hperm.mem_iff.mpr hentry)
  ids := (hperm.map _).nodup_iff.mp h.ids

/-- A new order: its trades reduce the makers, and its remainder takes a free slot. -/
theorem Lists.submitted (h : Lists table book.entries) (hbook : book.Orderly) (hbook' : book'.Orderly)
    (hroom : book'.entries.length ≤ RISK_ORDERS)
    (hok : book.submit LEVELS ORDERS capacity order = .ok (summary, fills, book'))
    (sequence : SequenceNumber) (ordinal : ℕ) (events : List Event) :
    ∃ traded table', LiveOrders.applyTrades (.newOrder order)
        (tradeEvents sequence (fills.map (Logical.Fill.report order)) ordinal ++ events) 0 table =
          LiveOrders.applyTrades (.newOrder order) events summary.filledQuantity traded ∧
      traded.applyTerminal
        (some (terminalEvent (.newOrder summary) (.fromCommand (.newOrder order)) sequence 0))
        (.newOrder order) summary.filledQuantity = .ok table' ∧ Lists table' book'.entries := by
  obtain ⟨rest, left, resting, discarded, hmatched, _, hleft, hsummary, rfl⟩ := submit_walk hbook hok
  have hsides : book.entries.Perm (Logical.entries order.side.opposite (book.side order.side.opposite) ++
      Logical.entries order.side (book.side order.side)) := by
    have hsplit := Logical.entries_perm_sides book order.side.opposite
    cases hside : order.side <;> rw [hside] at hsplit <;> exact hsplit
  have hsettled := settleWalk_entries book order rest resting
  have hzero : (0 : U64).val = 0 := rfl
  have hfits : (0 : U64).val + order.quantity.val < 2 ^ 64 := by
    rw [hzero, Nat.zero_add]
    exact order.quantity.isLt
  obtain ⟨after, traded, htrades, hafter, hlists⟩ := (h.congr hsides).applyTrades rfl hmatched
    ((Proper.of_orderly hbook).perm hsides) hfits sequence ordinal events
  have hfilled : after = summary.filledQuantity := by
    apply Fin.ext
    rw [hsummary]
    show after.val = order.quantity.val - resting.val - discarded.val
    omega
  have hresting : summary.restingQuantity = resting := by
    rw [hsummary]
    rfl
  rw [hfilled] at htrades
  set event : Accepted := ⟨⟨sequence, 0⟩, order.orderId, order.accountId, order.instrumentId, summary.state,
    summary.filledQuantity, summary.restingQuantity, summary.discardedQuantity⟩ with hevent
  have hrests : event.restingQuantity = resting := hresting
  have hids := (Proper.of_orderly hbook').perm hsettled |>.ids
  have hlength := hsettled.length_eq ▸ hroom
  rw [← hrests] at hids hlength hsettled
  obtain ⟨table', hinsert, hlists'⟩ := hlists.insert event hids hlength
  refine ⟨traded, table', htrades, ?_, hlists'.congr ?_⟩
  · have hterminal : terminalEvent (.newOrder summary) (.fromCommand (.newOrder order)) sequence 0 =
        .accepted event := rfl
    rw [hterminal]
    have haccounted := validateAccepted_of_submit hbook hok event rfl rfl rfl rfl
    unfold LiveOrders.applyTerminal
    simp only
    rw [if_pos ⟨rfl, rfl⟩, haccounted]
    exact hinsert
  · rw [← hrests]
    exact hsettled.symm

/-- A cancel: its order leaves. -/
theorem Lists.cancelled (h : Lists table book.entries) (hbook : book.Restorable LEVELS ORDERS)
    {cancel : CancelOrder} {cancelled : CancelledOrder} (hok : book.cancel cancel = .ok (cancelled, book'))
    (sequence : SequenceNumber) :
    ∃ table', table.applyTerminal
        (some (terminalEvent (.cancelled cancelled) (.fromCommand (.cancelOrder cancel)) sequence 0))
        (.cancelOrder cancel) 0 = .ok table' ∧ Lists table' book'.entries := by
  obtain ⟨side, price, order, hid, howner, rfl, _, _, others, hold, hnew⟩ := hbook.cancel hok
  have hids : (((side, price, order) :: others).map fun entry ↦ entry.2.2.id).Nodup :=
    (hold.map _).nodup_iff.mp hbook.ids
  obtain ⟨table', hremove, hlists⟩ := (h.congr hold).remove hids
    ⟨⟨sequence, 0⟩, order.id, order.accountId, cancel.instrumentId, order.quantity⟩ rfl rfl rfl
  refine ⟨table', ?_, hlists.congr hnew.symm⟩
  unfold LiveOrders.applyTerminal terminalEvent
  simp only
  rw [if_pos ⟨hid, howner⟩]
  exact hremove

theorem perm_own_others (id : OrderId) (entries : List Logical.Entry) :
    entries.Perm (Logical.own id entries ++ Logical.others id entries) := by
  have hsplit := List.filter_append_perm (fun entry : Logical.Entry ↦ decide (entry.2.2.id = id)) entries
  have hothers : Logical.others id entries =
      entries.filter fun entry ↦ !decide (entry.2.2.id = id) := by
    unfold Logical.others
    simp only [ne_eq, decide_not]
  rw [hothers]
  exact hsplit.symm

/-- A replace: its order has the new price and quantity. -/
theorem Lists.replaced (h : Lists table book.entries) (hbook : book.Orderly) (hbook' : book'.Orderly)
    {replace : ReplaceOrder} {replaced : ReplacedOrder}
    (hok : book.replace LEVELS ORDERS replace = .ok (replaced, book')) (sequence : SequenceNumber) :
    ∃ table', table.applyTerminal
        (some (terminalEvent (.replaced replaced) (.fromCommand (.replaceOrder replace)) sequence 0))
        (.replaceOrder replace) 0 = .ok table' ∧ Lists table' book'.entries := by
  obtain ⟨side, oldPrice, old, hreplaced⟩ := hbook.replaced_of_ok hbook' hok
  have hothers := Logical.Book.others_replace hok
  have howns : Logical.own replace.orderId book.entries = [(side, oldPrice, old)] := by
    have herase := List.perm_cons_erase hreplaced.resting
    exact Logical.own_of_exchanges ⟨_, herase, herase⟩ hreplaced.id hreplaced.id hbook.ids
  have hold := perm_own_others replace.orderId book.entries
  have hnew := perm_own_others replace.orderId book'.entries
  rw [howns] at hold
  rw [hreplaced.afterwards, hothers] at hnew
  have hpos : 0 < replace.quantity.val :=
    (Proper.of_orderly hbook').quantity_pos _ (hnew.mem_iff.mpr List.mem_cons_self)
  have hids : (((side, oldPrice, old) :: Logical.others replace.orderId book.entries).map
      fun entry ↦ entry.2.2.id).Nodup := (hold.map _).nodup_iff.mp hbook.ids
  obtain ⟨table', hamend, hlists⟩ := (h.congr hold).amend hids
    ⟨⟨sequence, 0⟩, replaced.orderId, replaced.accountId, replace.instrumentId, replaced.oldQuantity,
      replaced.newQuantity, replaced.price, replaced.priorityLost⟩
    (by rw [hreplaced.reply, hreplaced.id]) (by rw [hreplaced.reply, hreplaced.owner])
    (by rw [hreplaced.reply]) (by rw [hreplaced.reply]) (by rw [hreplaced.reply]) hpos hreplaced.priority
    (if replaced.priorityLost then replace.sequence else old.sequence)
  rw [hreplaced.id, hreplaced.owner] at hlists
  refine ⟨table', ?_, hlists.congr hnew.symm⟩
  have hidentity : replaced.orderId = replace.orderId ∧ replaced.accountId = replace.accountId := by
    rw [hreplaced.reply]
    exact ⟨rfl, rfl⟩
  unfold LiveOrders.applyTerminal terminalEvent
  simp only
  rw [if_pos hidentity]
  exact hamend

end Accepted

end DeterministicExchange.Soak
