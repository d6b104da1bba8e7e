import DeterministicExchange.Book.Logical

/-!
# Levels of the logical book

How the operations on one side act when the side is split at the level, and
the level at the order, that they change. Sides are sorted strictly, so the
split at a price is unique, and order ids are unique, so only one order
changes. The second half describes a matching walk one fill at a time.
-/

namespace DeterministicExchange.Logical

open Machine DeterministicExchange.Book

@[simp] theorem side_setSide (book : Book) (side : Side) (levels : List Level) :
    (book.setSide side levels).side side = levels := by
  cases side <;> rfl

@[simp] theorem side_opposite_setSide (book : Book) (side : Side) (levels : List Level) :
    (book.setSide side levels).side side.opposite = book.side side.opposite := by
  cases side <;> rfl

@[simp] theorem setSide_side (book : Book) (side : Side) : book.setSide side (book.side side) = book := by
  cases side <;> rfl

@[simp] theorem setSide_setSide (book : Book) (side : Side) (levels levels' : List Level) :
    (book.setSide side levels).setSide side levels' = book.setSide side levels' := by
  cases side <;> rfl

@[simp] theorem setSide_instrument (book : Book) (side : Side) (levels : List Level) :
    (book.setSide side levels).instrument = book.instrument := by
  cases side <;> rfl

/-- The side without an order of this id. -/
def Without (id : OrderId) (levels : List Level) : Prop :=
  ∀ level ∈ levels, ∀ order ∈ level.orders, order.id ≠ id

/-- A level, unless it is empty. -/
def Level.kept (level : Level) : List Level := if level.orders = [] then [] else [level]

variable {id : OrderId} {price : PriceTicks} {order : Order} {pre post levels : List Level}
  {xs ys : List Order}

theorem eraseOrder_of_without (hid : Without id levels) (hne : ∀ level ∈ levels, level.orders ≠ []) :
    eraseOrder id levels = levels := by
  have hmap : levels.map (fun level ↦
      { level with orders := level.orders.filter fun order ↦ order.id ≠ id }) = levels := by
    conv_rhs => rw [← List.map_id levels]
    apply List.map_congr_left
    intro level hlevel
    have hfilter : level.orders.filter (fun order ↦ order.id ≠ id) = level.orders :=
      List.filter_eq_self.mpr fun order horder ↦ by simpa using hid level hlevel order horder
    rw [hfilter]
    rfl
  unfold eraseOrder
  rw [hmap]
  exact List.filter_eq_self.mpr fun level hlevel ↦ by simpa using hne level hlevel

theorem eraseOrder_append (id : OrderId) (pre post : List Level) :
    eraseOrder id (pre ++ post) = eraseOrder id pre ++ eraseOrder id post := by
  simp [eraseOrder]

theorem filter_ids_of_split (hxs : ∀ x ∈ xs ++ ys, x.id ≠ order.id) :
    (xs ++ order :: ys).filter (fun x ↦ x.id ≠ order.id) = xs ++ ys := by
  rw [List.filter_append, List.filter_cons_of_neg (by simp),
    List.filter_eq_self.mpr fun x hx ↦ by simpa using hxs x (List.mem_append_left _ hx),
    List.filter_eq_self.mpr fun x hx ↦ by simpa using hxs x (List.mem_append_right _ hx)]

/-- Erasing an order from the level that holds it. -/
theorem eraseOrder_split (hxs : ∀ x ∈ xs ++ ys, x.id ≠ order.id)
    (hid : Without order.id (pre ++ post)) (hne : ∀ level ∈ pre ++ post, level.orders ≠ []) :
    eraseOrder order.id (pre ++ ⟨price, xs ++ order :: ys⟩ :: post) =
      pre ++ (Level.kept ⟨price, xs ++ ys⟩ ++ post) := by
  have hone : eraseOrder order.id [⟨price, xs ++ order :: ys⟩] = Level.kept ⟨price, xs ++ ys⟩ := by
    unfold eraseOrder Level.kept
    rw [List.map_singleton, filter_ids_of_split hxs]
    by_cases hempty : xs ++ ys = []
    · rw [if_pos hempty, List.filter_cons_of_neg (by simpa using hempty), List.filter_nil]
    · rw [if_neg hempty]
      refine List.filter_eq_self.mpr fun level hlevel ↦ ?_
      rw [List.mem_singleton.mp hlevel]
      exact decide_eq_true hempty
  rw [eraseOrder_append, ← List.singleton_append (l := post), eraseOrder_append, hone,
    eraseOrder_of_without (fun l hl ↦ hid l (List.mem_append_left _ hl))
      (fun l hl ↦ hne l (List.mem_append_left _ hl)),
    eraseOrder_of_without (fun l hl ↦ hid l (List.mem_append_right _ hl))
      (fun l hl ↦ hne l (List.mem_append_right _ hl))]

theorem amendOrder_of_without (quantity : Quantity) (hid : Without id levels) :
    amendOrder id quantity levels = levels := by
  unfold amendOrder
  conv_rhs => rw [← List.map_id levels]
  apply List.map_congr_left
  intro level hlevel
  have hmap : level.orders.map (fun order ↦ if order.id = id then { order with quantity } else order) =
      level.orders := by
    conv_rhs => rw [← List.map_id level.orders]
    apply List.map_congr_left
    intro order horder
    exact if_neg (hid level hlevel order horder)
  rw [hmap]
  rfl

/-- Amending an order in the level that holds it. -/
theorem amendOrder_split (quantity : Quantity) (hxs : ∀ x ∈ xs ++ ys, x.id ≠ order.id)
    (hid : Without order.id (pre ++ post)) :
    amendOrder order.id quantity (pre ++ ⟨price, xs ++ order :: ys⟩ :: post) =
      pre ++ ⟨price, xs ++ { order with quantity } :: ys⟩ :: post := by
  have hqueue (zs : List Order) (hzs : ∀ x ∈ zs, x.id ≠ order.id) :
      zs.map (fun x ↦ if x.id = order.id then { x with quantity } else x) = zs := by
    conv_rhs => rw [← List.map_id zs]
    apply List.map_congr_left
    intro x hx
    exact if_neg (hzs x hx)
  have hlevel : amendOrder order.id quantity [⟨price, xs ++ order :: ys⟩] =
      [⟨price, xs ++ { order with quantity } :: ys⟩] := by
    unfold amendOrder
    rw [List.map_singleton, List.map_append, List.map_cons, if_pos rfl,
      hqueue xs fun x hx ↦ hxs x (List.mem_append_left _ hx),
      hqueue ys fun x hx ↦ hxs x (List.mem_append_right _ hx)]
  have happend (as bs : List Level) : amendOrder order.id quantity (as ++ bs) =
      amendOrder order.id quantity as ++ amendOrder order.id quantity bs := List.map_append
  rw [happend, ← List.singleton_append (l := post), happend, hlevel,
    amendOrder_of_without quantity fun l hl ↦ hid l (List.mem_append_left _ hl),
    amendOrder_of_without quantity fun l hl ↦ hid l (List.mem_append_right _ hl)]
  simp

section Append

variable {descending : Bool}

/-- Appending skips the levels listed before the price. -/
theorem appendOrder_append
    (hpre : ∀ level ∈ pre, SortedIndex.before descending level.price price = true) :
    appendOrder descending price order (pre ++ post) =
      pre ++ appendOrder descending price order post := by
  induction pre with
  | nil => rfl
  | cons level pre ih =>
    have hbefore := hpre level (by simp)
    rw [List.cons_append, appendOrder, if_neg (SortedIndex.before_ne hbefore), if_neg, List.cons_append,
      ih fun l hl ↦ hpre l (List.mem_cons_of_mem _ hl)]
    rw [SortedIndex.before_asymm hbefore]
    simp

theorem appendOrder_of_price
    (hpre : ∀ level ∈ pre, SortedIndex.before descending level.price price = true) :
    appendOrder descending price order (pre ++ ⟨price, xs⟩ :: post) =
      pre ++ ⟨price, xs ++ [order]⟩ :: post := by
  rw [appendOrder_append hpre, appendOrder, if_pos rfl]

theorem appendOrder_of_absent
    (hpre : ∀ level ∈ pre, SortedIndex.before descending level.price price = true)
    (hpost : ∀ level ∈ post, SortedIndex.before descending price level.price = true) :
    appendOrder descending price order (pre ++ post) = pre ++ ⟨price, [order]⟩ :: post := by
  rw [appendOrder_append hpre]
  cases post with
  | nil => rfl
  | cons level post =>
    have hbefore := hpost level (by simp)
    rw [appendOrder, if_neg (SortedIndex.before_ne hbefore).symm, if_pos hbefore]

end Append

/-! ## Finding orders and queues -/

theorem findOrder_eq_none : findOrder id levels = none ↔ Without id levels := by
  simp [findOrder, Without]

/-- A found order rests at its price. -/
theorem mem_of_findOrder {found : PriceTicks × Order} (h : findOrder id levels = some found) :
    ∃ level ∈ levels, level.price = found.1 ∧ found.2 ∈ level.orders ∧ found.2.id = id := by
  obtain ⟨level, hlevel, hfind⟩ := List.exists_of_findSome?_eq_some h
  obtain ⟨order, horder, rfl⟩ := Option.map_eq_some_iff.mp hfind
  exact ⟨level, hlevel, rfl, List.mem_of_find?_eq_some horder, by
    simpa using List.find?_some horder⟩

theorem findOrder_of_mem {level : Level} (hlevel : level ∈ levels) (horder : order ∈ level.orders)
    (hunique : ∀ l ∈ levels, ∀ o ∈ l.orders, o.id = order.id → l.price = level.price ∧ o = order) :
    findOrder order.id levels = some (level.price, order) := by
  cases hfind : findOrder order.id levels with
  | none => exact absurd rfl (findOrder_eq_none.mp hfind level hlevel order horder)
  | some found =>
    obtain ⟨l, hl, hprice, ho, hid⟩ := mem_of_findOrder hfind
    obtain ⟨hp, rfl⟩ := hunique l hl found.2 ho hid
    rw [← hp, hprice]

theorem queueAt_eq_none : queueAt price levels = none ↔ ∀ level ∈ levels, level.price ≠ price := by
  simp [queueAt]

theorem queueAt_of_mem {level : Level} (hlevel : level ∈ levels)
    (hunique : ∀ l ∈ levels, l.price = level.price → l = level) :
    queueAt level.price levels = some level.orders := by
  unfold queueAt
  cases hfind : levels.find? fun l ↦ l.price = level.price with
  | none => exact absurd (by simp) (List.find?_eq_none.mp hfind level hlevel)
  | some l =>
    rw [hunique l (List.mem_of_find?_eq_some hfind) (by simpa using List.find?_some hfind)]
    rfl

/-! ## Room for a moved order -/

/-- A side within its capacities, strictly sorted. -/
structure Fits (LEVELS ORDERS : ℕ) (descending : Bool) (levels : List Level) : Prop where
  orders_le : ∀ level ∈ levels, level.orders.length ≤ ORDERS
  levels_le : levels.length ≤ LEVELS
  sorted : levels.Pairwise fun a b ↦ SortedIndex.before descending a.price b.price = true

section Fits

variable {LEVELS ORDERS : ℕ} {descending : Bool}

theorem Fits.prices_nodup (h : Fits LEVELS ORDERS descending levels) : (levels.map Level.price).Nodup := by
  rw [List.nodup_iff_pairwise_ne, List.pairwise_map]
  exact h.sorted.imp fun hbefore ↦ SortedIndex.before_ne hbefore

theorem Fits.queueAt (h : Fits LEVELS ORDERS descending levels) {level : Level} (hlevel : level ∈ levels) :
    queueAt level.price levels = some level.orders :=
  queueAt_of_mem hlevel fun _ hl heq ↦ List.inj_on_of_nodup_map h.prices_nodup hl hlevel heq

theorem Fits.erase (h : Fits LEVELS ORDERS descending (pre ++ ⟨price, xs ++ order :: ys⟩ :: post)) :
    Fits LEVELS ORDERS descending (pre ++ (Level.kept ⟨price, xs ++ ys⟩ ++ post)) := by
  have hsorted := h.sorted
  have hlevels := h.levels_le
  have hqueue := h.orders_le ⟨price, xs ++ order :: ys⟩ (by simp)
  rw [List.length_append, List.length_cons] at hlevels hqueue
  unfold Level.kept
  split
  · have hsub : (pre ++ post).Sublist (pre ++ ⟨price, xs ++ order :: ys⟩ :: post) :=
      List.Sublist.append_left (List.sublist_cons_self _ _) _
    exact ⟨fun l hl ↦ h.orders_le l (hsub.mem hl), hsub.length_le.trans h.levels_le,
      hsorted.sublist hsub⟩
  · refine ⟨?_, ?_, ?_⟩
    · intro l hl
      rcases List.mem_append.mp hl with hl | hl
      · exact h.orders_le l (List.mem_append_left _ hl)
      · rcases List.mem_cons.mp hl with rfl | hl
        · simp only [List.length_append]
          omega
        · exact h.orders_le l (List.mem_append_right _ (List.mem_cons_of_mem _ hl))
    · rw [List.length_append, List.singleton_append, List.length_cons]
      exact hlevels
    · rw [List.pairwise_append, List.pairwise_cons] at hsorted
      rw [List.singleton_append, List.pairwise_append, List.pairwise_cons]
      obtain ⟨hpre, ⟨hlevel, hpost⟩, hcross⟩ := hsorted
      refine ⟨hpre, ⟨hlevel, hpost⟩, ?_⟩
      intro a ha b hb
      rcases List.mem_cons.mp hb with rfl | hb
      · exact hcross a ha ⟨price, xs ++ order :: ys⟩ List.mem_cons_self
      · exact hcross a ha b (List.mem_cons_of_mem _ hb)

/-- A permitted move finds room once the order has left its old place. -/
theorem Book.restingReject_of_moveReject {book : Book} {side : Side} {oldPrice : PriceTicks}
    (hside : book.side side = pre ++ ⟨oldPrice, xs ++ order :: ys⟩ :: post)
    (h : Fits LEVELS ORDERS descending (book.side side))
    (hmove : book.moveReject LEVELS ORDERS side oldPrice price = none) :
    (book.setSide side (pre ++ (Level.kept ⟨oldPrice, xs ++ ys⟩ ++ post))).restingReject LEVELS ORDERS
      side price = none := by
  rw [hside] at h
  have hlevels := h.levels_le
  have hfull := h.orders_le ⟨oldPrice, xs ++ order :: ys⟩ (by simp)
  have hold : queueAt oldPrice (pre ++ ⟨oldPrice, xs ++ order :: ys⟩ :: post) =
      some (xs ++ order :: ys) :=
    h.queueAt (by simp : (⟨oldPrice, xs ++ order :: ys⟩ : Level) ∈ _)
  have hnodup := h.prices_nodup
  rw [List.map_append, List.map_cons] at hnodup
  have hout := (List.nodup_cons.mp (List.nodup_middle.mp hnodup)).1
  rw [← List.map_append] at hout
  rw [List.length_append, List.length_cons] at hlevels hfull
  unfold Book.moveReject at hmove
  unfold Book.restingReject
  rw [hside] at hmove
  rw [side_setSide]
  split at hmove
  · simp at hmove
  by_cases hexists : ∃ level ∈ pre ++ post, level.price = price
  · obtain ⟨level, hlevel, rfl⟩ := hexists
    have hmem : level ∈ pre ++ ⟨oldPrice, xs ++ order :: ys⟩ :: post := by
      simp only [List.mem_append, List.mem_cons] at hlevel ⊢
      tauto
    have hmem' : level ∈ pre ++ (Level.kept ⟨oldPrice, xs ++ ys⟩ ++ post) := by
      simp only [List.mem_append] at hlevel ⊢
      tauto
    have hne : level.price ≠ oldPrice := fun heq ↦ hout (List.mem_map.mpr ⟨level, hlevel, heq⟩)
    rw [h.queueAt hmem] at hmove
    rw [h.erase.queueAt hmem']
    by_cases hlength : level.orders.length = ORDERS
    · simp [hlength, hne] at hmove
    · simp only [hlength, if_false]
  · push Not at hexists
    by_cases hkept : xs ++ ys ≠ [] ∧ oldPrice = price
    · obtain ⟨hne, rfl⟩ := hkept
      have hmem' : (⟨oldPrice, xs ++ ys⟩ : Level) ∈ pre ++ (Level.kept ⟨oldPrice, xs ++ ys⟩ ++ post) := by
        simp [Level.kept, hne]
      have hqueue : queueAt oldPrice (pre ++ (Level.kept ⟨oldPrice, xs ++ ys⟩ ++ post)) =
          some (xs ++ ys) := h.erase.queueAt hmem'
      have hlength : (xs ++ ys).length ≠ ORDERS := by
        rw [List.length_append]
        omega
      simp only [hqueue, hlength, if_false]
    · have habsent : queueAt price (pre ++ (Level.kept ⟨oldPrice, xs ++ ys⟩ ++ post)) = none := by
        rw [queueAt_eq_none]
        intro level hlevel
        simp only [List.mem_append] at hlevel
        rcases hlevel with hlevel | hlevel | hlevel
        · exact hexists level (List.mem_append_left _ hlevel)
        · unfold Level.kept at hlevel
          split at hlevel
          · simp at hlevel
          · next hne =>
            rw [List.mem_singleton.mp hlevel]
            exact fun heq ↦ hkept ⟨hne, heq⟩
        · exact hexists level (List.mem_append_right _ hlevel)
      simp only [habsent]
      rw [if_neg]
      intro hcount
      rw [List.length_append, List.length_append] at hcount
      by_cases hne : xs ++ ys = []
      · rw [Level.kept, if_pos hne, List.length_nil] at hcount
        omega
      · rw [Level.kept, if_neg hne, List.length_singleton] at hcount
        have hprice : oldPrice ≠ price := fun heq ↦ hkept ⟨hne, heq⟩
        have hnone : queueAt price (pre ++ ⟨oldPrice, xs ++ order :: ys⟩ :: post) = none := by
          rw [queueAt_eq_none]
          intro level hlevel
          simp only [List.mem_append, List.mem_cons] at hlevel
          rcases hlevel with hlevel | rfl | hlevel
          · exact hexists level (List.mem_append_left _ hlevel)
          · exact hprice
          · exact hexists level (List.mem_append_right _ hlevel)
        have hlong : (xs ++ order :: ys).length ≠ 1 := by
          have hpos : 0 < (xs ++ ys).length := List.length_pos_iff.mpr hne
          rw [List.length_append] at hpos
          rw [List.length_append, List.length_cons]
          omega
        have hall : (pre ++ ⟨oldPrice, xs ++ order :: ys⟩ :: post).length = LEVELS := by
          rw [List.length_append, List.length_cons]
          omega
        rw [hnone, hold] at hmove
        simp only [hall, Option.all_some, hlong, ne_eq, not_false_eq_true, decide_true, and_self,
          if_true, reduceCtorEq] at hmove

end Fits

/-! ## Walks -/

/-- The side after its head order gave `traded`. -/
def consume (price : PriceTicks) (order : Order) (orders : List Order) (levels : List Level)
    (traded : Quantity) : List Level :=
  if traded.val < order.quantity.val then
    ⟨price, { order with quantity := Unsigned.monus order.quantity traded } :: orders⟩ :: levels
  else Level.kept ⟨price, orders⟩ ++ levels

/-- A walk: the fills it makes, the levels and the quantity it leaves. -/
inductive Matched (side : Side) (limit : PriceTicks) :
    List Level → Quantity → List Fill → List Level → Quantity → Prop where
  | done (levels : List Level) (remaining : Quantity)
      (hstop : remaining.val = 0 ∨ ∀ level ∈ levels.head?, crosses side limit level.price = false) :
      Matched side limit levels remaining [] levels remaining
  | fill (price : PriceTicks) (order : Order) (orders : List Order) (levels : List Level)
      (remaining traded : Quantity) (fills : List Fill) (rest : List Level) (left : Quantity)
      (hremaining : 0 < remaining.val) (hcrosses : crosses side limit price = true)
      (htraded : traded = min remaining order.quantity)
      (hnext : Matched side limit (consume price order orders levels traded)
        (Unsigned.monus remaining traded) fills rest left) :
      Matched side limit (⟨price, order :: orders⟩ :: levels) remaining
        (⟨order.id, price, traded⟩ :: fills) rest left

theorem matchLevels_of_stop {side : Side} {limit : PriceTicks} {remaining : Quantity}
    (h : remaining.val = 0 ∨ ∀ level ∈ levels.head?, crosses side limit level.price = false) :
    matchLevels side limit levels remaining = ([], levels, remaining) := by
  cases levels with
  | nil => rfl
  | cons level levels =>
    rw [matchLevels, if_pos]
    rcases h with h | h
    · exact .inl h
    · exact .inr (by simp [h level (by simp)])

/-- The first fill of a walk. -/
theorem matchLevels_cons {side : Side} {limit : PriceTicks} {orders : List Order}
    {remaining : Quantity} (hremaining : 0 < remaining.val) (hcrosses : crosses side limit price = true) :
    matchLevels side limit (⟨price, order :: orders⟩ :: levels) remaining =
      (⟨order.id, price, min remaining order.quantity⟩ ::
        (matchLevels side limit (consume price order orders levels (min remaining order.quantity))
          (Unsigned.monus remaining (min remaining order.quantity))).1,
        (matchLevels side limit (consume price order orders levels (min remaining order.quantity))
          (Unsigned.monus remaining (min remaining order.quantity))).2) := by
  have hgo : ¬ (remaining.val = 0 ∨ (!crosses side limit price) = true) := by
    simp only [hcrosses, Bool.not_true, Bool.false_eq_true, or_false]
    omega
  by_cases hpartly : remaining.val < order.quantity.val
  · have htraded : min remaining order.quantity = remaining := min_eq_left hpartly.le
    have hzero : Unsigned.monus remaining remaining = 0 := by
      apply Fin.ext
      simp
    simp only [htraded, consume, if_pos hpartly, hzero]
    rw [matchLevels_of_stop (.inl (rfl : (0 : Quantity).val = 0)), matchLevels, if_neg hgo]
    simp only [matchOrders]
    rw [if_neg (by omega), if_pos hpartly]
  · have htraded : min remaining order.quantity = order.quantity := min_eq_right (by
      simpa using hpartly)
    simp only [htraded, consume, lt_irrefl, if_false]
    rw [matchLevels, if_neg hgo]
    simp only [matchOrders]
    rw [if_neg (by omega), if_neg hpartly]
    cases orders with
    | nil => simp [matchOrders, Level.kept]
    | cons order' orders' =>
      by_cases hzero : (Unsigned.monus remaining order.quantity).val = 0
      · have hkept : Level.kept ⟨price, order' :: orders'⟩ ++ levels =
            ⟨price, order' :: orders'⟩ :: levels := by simp [Level.kept]
        rw [hkept, matchLevels_of_stop (.inl hzero)]
        simp only [matchOrders]
        rw [if_pos hzero]
      · have hkept : Level.kept ⟨price, order' :: orders'⟩ ++ levels =
            ⟨price, order' :: orders'⟩ :: levels := by simp [Level.kept]
        have hgo' : ¬ ((Unsigned.monus remaining order.quantity).val = 0 ∨
            (!crosses side limit price) = true) := by
          simp only [hcrosses, Bool.not_true, Bool.false_eq_true, or_false]
          exact hzero
        rw [hkept, matchLevels, if_neg hgo']
        rcases hmatch : matchOrders price (order' :: orders')
          (Unsigned.monus remaining order.quantity) with ⟨fills, rest, left⟩
        cases rest with
        | nil => simp
        | cons order'' rest => simp

def orderCount (levels : List Level) : ℕ := (levels.map fun level ↦ level.orders.length).sum

/-- Matching makes a walk. -/
theorem matchLevels_matched (side : Side) (limit : PriceTicks)
    (hne : ∀ level ∈ levels, level.orders ≠ []) (remaining : Quantity) :
    Matched side limit levels remaining (matchLevels side limit levels remaining).1
      (matchLevels side limit levels remaining).2.1 (matchLevels side limit levels remaining).2.2 := by
  induction hcount : orderCount levels using Nat.strong_induction_on generalizing levels remaining with
  | _ count ih =>
    by_cases hstop : remaining.val = 0 ∨
        ∀ level ∈ levels.head?, crosses side limit level.price = false
    · rw [matchLevels_of_stop hstop]
      exact .done levels remaining hstop
    · push Not at hstop
      obtain ⟨hremaining, level, hhead, hcrosses⟩ := hstop
      have hpos : 0 < remaining.val := Nat.pos_of_ne_zero hremaining
      obtain ⟨⟨price, queue⟩, levels, rfl⟩ : ∃ l ls, levels = l :: ls := by
        cases levels with
        | nil => simp at hhead
        | cons l ls => exact ⟨l, ls, rfl⟩
      obtain rfl : ⟨price, queue⟩ = level := by simpa using hhead
      obtain ⟨order, orders, rfl⟩ := List.exists_cons_of_ne_nil (hne ⟨price, queue⟩ (by simp))
      have hcrosses : crosses side limit price = true := by simpa using hcrosses
      have hnext : Matched side limit (consume price order orders levels (min remaining order.quantity))
          (Unsigned.monus remaining (min remaining order.quantity))
          (matchLevels side limit (consume price order orders levels (min remaining order.quantity))
            (Unsigned.monus remaining (min remaining order.quantity))).1
          (matchLevels side limit (consume price order orders levels (min remaining order.quantity))
            (Unsigned.monus remaining (min remaining order.quantity))).2.1
          (matchLevels side limit (consume price order orders levels (min remaining order.quantity))
            (Unsigned.monus remaining (min remaining order.quantity))).2.2 := by
        by_cases hpartly : (min remaining order.quantity).val < order.quantity.val
        · have hzero : (Unsigned.monus remaining (min remaining order.quantity)).val = 0 := by
            have hmin : min remaining order.quantity = remaining := by
              rcases min_choice remaining order.quantity with h | h
              · exact h
              · rw [h] at hpartly
                omega
            rw [hmin]
            simp
          rw [matchLevels_of_stop (.inl hzero)]
          exact .done _ _ (.inl hzero)
        · have hconsume : consume price order orders levels (min remaining order.quantity) =
              Level.kept ⟨price, orders⟩ ++ levels := if_neg hpartly
          rw [hconsume]
          refine ih _ ?_ ?_ _ rfl
          · rw [← hcount]
            unfold Level.kept orderCount
            split <;> simp
          · intro l hl
            rcases List.mem_append.mp hl with hl | hl
            · unfold Level.kept at hl
              split at hl
              · simp at hl
              · rw [List.mem_singleton.mp hl]
                assumption
            · exact hne l (by simp [hl])
      rw [matchLevels_cons hpos hcrosses]
      exact .fill price order orders levels remaining _ _ _ _ hpos hcrosses rfl hnext

theorem Matched.left_le {side : Side} {limit : PriceTicks} {remaining left : Quantity}
    {fills : List Fill} {rest : List Level} (h : Matched side limit levels remaining fills rest left) :
    left.val ≤ remaining.val := by
  induction h with
  | done => exact le_rfl
  | fill price order orders levels remaining traded fills rest left _ _ _ _ ih =>
    rw [Unsigned.monus_val] at ih
    omega

/-! ## Admission and remainders -/

namespace Book

variable {book : Book} {order : NewOrder}

/-- What admission establishes. -/
theorem admitted (h : book.admissionReject order = none) :
    order.instrumentId = book.instrument ∧ 0 < order.price.val ∧ 0 < order.quantity.val ∧
      book.find order.orderId = none ∧
      (order.timeInForce = .postOnly → book.wouldTrade order.side order.price = false) := by
  unfold admissionReject at h
  split_ifs at h with h1 h2 h3 h4 h5
  refine ⟨by simpa using h1, by omega, by omega, by simpa using h4, ?_⟩
  intro htif
  simpa [htif] using h5

theorem remainderOutcome_ok {LEVELS ORDERS : ℕ} {remaining resting discarded : Quantity}
    (h : book.remainderOutcome LEVELS ORDERS order remaining = .ok (resting, discarded)) :
    resting.val + discarded.val = remaining.val ∧
      (0 < resting.val → book.restingReject LEVELS ORDERS order.side order.price = none) := by
  unfold remainderOutcome at h
  split at h
  · split at h
    · simp at h
    · next hzero =>
      obtain ⟨rfl, rfl⟩ : (0 : Quantity) = resting ∧ (0 : Quantity) = discarded := by simpa using h
      simp only [Fin.val_zero]
      omega
  · obtain ⟨rfl, rfl⟩ : (0 : Quantity) = resting ∧ remaining = discarded := by simpa using h
    simp
  all_goals
    split at h
    · split at h
      · simp at h
      · next hnone =>
        obtain ⟨rfl, rfl⟩ : remaining = resting ∧ (0 : Quantity) = discarded := by simpa using h
        simp [hnone]
    · next hzero =>
      obtain ⟨rfl, rfl⟩ : (0 : Quantity) = resting ∧ (0 : Quantity) = discarded := by simpa using h
      simp only [Fin.val_zero]
      omega

end Book

end DeterministicExchange.Logical
