import DeterministicExchange.Book.Restore

/-!
# Resting orders of a logical book

Which orders rest, and whether a book can be restored, splits into two parts: the
shape of each side, and a condition on the collection of all resting orders that
does not depend on their arrangement. Erasing, amending and appending change one
level and one member of that collection.
-/

namespace DeterministicExchange.Logical

open Machine DeterministicExchange.Book

abbrev Entry := Side × PriceTicks × Order

/-- The shape of one side of a restorable book. -/
structure Shaped (LEVELS ORDERS : ℕ) (descending : Bool) (levels : List Level) : Prop where
  nonempty : ∀ level ∈ levels, level.orders ≠ []
  orders_le : ∀ level ∈ levels, level.orders.length ≤ ORDERS
  fifo : ∀ level ∈ levels, level.orders.Pairwise fun a b ↦ a.sequence < b.sequence
  levels_le : levels.length ≤ LEVELS
  sorted : levels.Pairwise fun a b ↦ SortedIndex.before descending a.price b.price = true

/-- The condition on the collection of resting orders of a restorable book. -/
structure Compatible (entries : List Entry) : Prop where
  price_pos : ∀ entry ∈ entries, 0 < entry.2.1.val
  quantity_pos : ∀ entry ∈ entries, 0 < entry.2.2.quantity.val
  sequence_pos : ∀ entry ∈ entries, 0 < entry.2.2.sequence.val
  uncrossed : ∀ bid ∈ entries, ∀ ask ∈ entries, bid.1 = .buy → ask.1 = .sell →
    bid.2.1.val < ask.2.1.val
  ids : (entries.map fun entry ↦ entry.2.2.id).Nodup
  sequences : (entries.map fun entry ↦ entry.2.2.sequence).Nodup

/-- What holds of every logical book that can be stored: levels that are in use and strictly sorted,
and orders with a quantity left and with ids of their own. -/
structure Book.Orderly (book : Book) : Prop where
  nonempty : ∀ side, ∀ level ∈ book.side side, level.orders ≠ []
  sorted : ∀ side, (book.side side).Pairwise fun a b ↦
    SortedIndex.before (DeterministicExchange.Book.descending side) a.price b.price = true
  quantity_pos : ∀ side, ∀ level ∈ book.side side, ∀ order ∈ level.orders, 0 < order.quantity.val
  ids : (book.entries.map fun entry ↦ entry.2.2.id).Nodup

variable {LEVELS ORDERS : ℕ} {descending : Bool} {side : Side} {price : PriceTicks} {order : Order}
  {pre post levels : List Level} {xs ys : List Order} {book : Book}

/-! ## Entries of a side -/

theorem mem_entries {entry : Entry} :
    entry ∈ entries side levels ↔
      entry.1 = side ∧ ∃ level ∈ levels, level.price = entry.2.1 ∧ entry.2.2 ∈ level.orders := by
  obtain ⟨s, p, o⟩ := entry
  simp only [entries, List.mem_flatMap, List.mem_map, Prod.mk.injEq]
  constructor
  · rintro ⟨level, hlevel, o', ho', rfl, rfl, rfl⟩
    exact ⟨rfl, level, hlevel, rfl, ho'⟩
  · rintro ⟨rfl, level, hlevel, rfl, ho⟩
    exact ⟨level, hlevel, o, ho, rfl, rfl, rfl⟩

@[simp] theorem entries_append (side : Side) (pre post : List Level) :
    entries side (pre ++ post) = entries side pre ++ entries side post := List.flatMap_append

@[simp] theorem entries_cons (side : Side) (level : Level) (levels : List Level) :
    entries side (level :: levels) =
      level.orders.map (fun order ↦ (side, level.price, order)) ++ entries side levels :=
  List.flatMap_cons

@[simp] theorem entries_nil (side : Side) : entries side [] = [] := rfl

theorem entries_kept (side : Side) (level : Level) :
    entries side level.kept = level.orders.map fun order ↦ (side, level.price, order) := by
  unfold Level.kept
  split
  · next hempty => rw [hempty, entries_nil, List.map_nil]
  · rw [entries_cons, entries_nil, List.append_nil]

theorem mem_book_entries {entry : Entry} :
    entry ∈ book.entries ↔
      ∃ level ∈ book.side entry.1, level.price = entry.2.1 ∧ entry.2.2 ∈ level.orders := by
  unfold Book.entries
  rw [List.mem_append, mem_entries, mem_entries]
  obtain ⟨s, p, o⟩ := entry
  cases s <;> simp [Book.side]

/-- The entries of a book, one side at a time. -/
theorem entries_perm_sides (book : Book) (side : Side) :
    book.entries.Perm (entries side (book.side side) ++
      entries side.opposite (book.side side.opposite)) := by
  cases side with
  | buy => exact List.Perm.refl _
  | sell => exact List.perm_append_comm

/-- The members `old` of a collection are exchanged for `new`. -/
def Exchanges (old new entries entries' : List Entry) : Prop :=
  ∃ others, entries.Perm (old ++ others) ∧ entries'.Perm (new ++ others)

/-- An exchange on one side is an exchange in the book. -/
theorem Exchanges.setSide {old new : List Entry}
    (h : Exchanges old new (entries side (book.side side)) (entries side levels)) :
    Exchanges old new book.entries (book.setSide side levels).entries := by
  obtain ⟨others, hold, hnew⟩ := h
  refine ⟨others ++ entries side.opposite (book.side side.opposite), ?_, ?_⟩
  · calc
      book.entries.Perm (entries side (book.side side) ++
        entries side.opposite (book.side side.opposite)) := entries_perm_sides book side
      List.Perm _ (old ++ others ++ _) := hold.append_right _
      _ = old ++ (others ++ _) := List.append_assoc ..
  · have hsides := entries_perm_sides (book.setSide side levels) side
    rw [side_setSide, side_opposite_setSide] at hsides
    calc
      (book.setSide side levels).entries.Perm (entries side levels ++
        entries side.opposite (book.side side.opposite)) := hsides
      List.Perm _ (new ++ others ++ _) := hnew.append_right _
      _ = new ++ (others ++ _) := List.append_assoc ..

theorem Exchanges.trans_middle {old mid new es es' es'' : List Entry} (h : Exchanges old mid es es')
    (h' : Exchanges mid new es' es'') : Exchanges old new es es'' := by
  obtain ⟨others, hold, hmid⟩ := h
  obtain ⟨others', hmid', hnew⟩ := h'
  have hothers : others'.Perm others := (List.perm_append_left_iff mid).mp (hmid'.symm.trans hmid)
  exact ⟨others, hold, hnew.trans (hothers.append_left new)⟩

/-! ## Changing one order -/

/-- The entries around one order of a side. -/
theorem entries_split (side : Side) (pre post : List Level) (price : PriceTicks) (xs ys : List Order)
    (order : Order) :
    (entries side (pre ++ ⟨price, xs ++ order :: ys⟩ :: post)).Perm
      ((side, price, order) :: entries side (pre ++ ⟨price, xs ++ ys⟩ :: post)) := by
  simp only [entries_append, entries_cons, List.map_append, List.map_cons]
  rw [← List.append_assoc, ← List.append_assoc, List.append_assoc, List.append_assoc,
    List.cons_append, ← List.append_assoc]
  refine List.perm_middle.trans ?_
  rw [List.append_assoc, List.append_assoc]

theorem exchanges_erase (side : Side) (pre post : List Level) (price : PriceTicks) (xs ys : List Order)
    (order : Order) :
    Exchanges [(side, price, order)] [] (entries side (pre ++ ⟨price, xs ++ order :: ys⟩ :: post))
      (entries side (pre ++ (Level.kept ⟨price, xs ++ ys⟩ ++ post))) := by
  refine ⟨entries side (pre ++ ⟨price, xs ++ ys⟩ :: post), entries_split side pre post price xs ys order, ?_⟩
  rw [entries_append, entries_append, entries_kept, List.nil_append, entries_append, entries_cons]

theorem exchanges_amend (side : Side) (pre post : List Level) (price : PriceTicks) (xs ys : List Order)
    (order order' : Order) :
    Exchanges [(side, price, order)] [(side, price, order')]
      (entries side (pre ++ ⟨price, xs ++ order :: ys⟩ :: post))
      (entries side (pre ++ ⟨price, xs ++ order' :: ys⟩ :: post)) :=
  ⟨_, entries_split side pre post price xs ys order, entries_split side pre post price xs ys order'⟩

/-- An appended order joins the entries, wherever its level lies. -/
theorem exchanges_append (descending : Bool) (side : Side) (price : PriceTicks) (order : Order)
    (levels : List Level) :
    Exchanges [] [(side, price, order)] (entries side levels)
      (entries side (appendOrder descending price order levels)) := by
  refine ⟨entries side levels, List.Perm.refl _, ?_⟩
  induction levels with
  | nil => exact List.Perm.refl _
  | cons level levels ih =>
    rw [appendOrder]
    split
    · next heq =>
      subst heq
      simp only [entries_cons, List.map_append, List.map_cons, List.map_nil, List.append_assoc]
      exact List.perm_middle
    split
    · exact List.Perm.refl _
    · rw [entries_cons, entries_cons]
      calc
        List.Perm _ (level.orders.map (fun order ↦ (side, level.price, order)) ++
          ((side, price, order) :: entries side levels)) := ih.append_left _
        List.Perm _ _ := List.perm_middle

/-! ## The collection -/

namespace Compatible

variable {es es' : List Entry} {entry : Entry}

theorem perm (h : Compatible es) (hperm : es.Perm es') : Compatible es' where
  price_pos entry hentry := h.price_pos entry (hperm.mem_iff.mpr hentry)
  quantity_pos entry hentry := h.quantity_pos entry (hperm.mem_iff.mpr hentry)
  sequence_pos entry hentry := h.sequence_pos entry (hperm.mem_iff.mpr hentry)
  uncrossed bid hbid ask hask := h.uncrossed bid (hperm.mem_iff.mpr hbid) ask (hperm.mem_iff.mpr hask)
  ids := (hperm.map _).nodup_iff.mp h.ids
  sequences := (hperm.map _).nodup_iff.mp h.sequences

theorem of_cons (h : Compatible (entry :: es)) : Compatible es where
  price_pos e he := h.price_pos e (List.mem_cons_of_mem _ he)
  quantity_pos e he := h.quantity_pos e (List.mem_cons_of_mem _ he)
  sequence_pos e he := h.sequence_pos e (List.mem_cons_of_mem _ he)
  uncrossed bid hbid ask hask :=
    h.uncrossed bid (List.mem_cons_of_mem _ hbid) ask (List.mem_cons_of_mem _ hask)
  ids := (List.nodup_cons.mp h.ids).2
  sequences := (List.nodup_cons.mp h.sequences).2

/-- A newer order that crosses nothing joins the collection. -/
theorem cons (h : Compatible es) (hprice : 0 < entry.2.1.val) (hquantity : 0 < entry.2.2.quantity.val)
    (hid : ∀ e ∈ es, e.2.2.id ≠ entry.2.2.id)
    (hsequence : ∀ e ∈ es, e.2.2.sequence < entry.2.2.sequence) (hpos : 0 < entry.2.2.sequence.val)
    (hcross : ∀ e ∈ es, e.1 = entry.1.opposite → crosses entry.1 entry.2.1 e.2.1 = false) :
    Compatible (entry :: es) where
  price_pos := by
    rintro e (_ | ⟨_, he⟩)
    · exact hprice
    · exact h.price_pos e he
  quantity_pos := by
    rintro e (_ | ⟨_, he⟩)
    · exact hquantity
    · exact h.quantity_pos e he
  sequence_pos := by
    rintro e (_ | ⟨_, he⟩)
    · exact hpos
    · exact h.sequence_pos e he
  uncrossed := by
    rintro bid hbid ask hask hbuy hsell
    rcases List.mem_cons.mp hbid with rfl | hbid'
    · rcases List.mem_cons.mp hask with rfl | hask'
      · simp [hbuy] at hsell
      · have hfalse := hcross ask hask' (by rw [hsell, hbuy]; rfl)
        rw [hbuy] at hfalse
        simpa [crosses] using hfalse
    · rcases List.mem_cons.mp hask with rfl | hask'
      · have hfalse := hcross bid hbid' (by rw [hsell, hbuy]; rfl)
        rw [hsell] at hfalse
        simpa [crosses] using hfalse
      · exact h.uncrossed bid hbid' ask hask' hbuy hsell
  ids := by
    rw [List.map_cons, List.nodup_cons]
    refine ⟨?_, h.ids⟩
    intro hmem
    obtain ⟨e, he, heq⟩ := List.mem_map.mp hmem
    exact hid e he heq
  sequences := by
    rw [List.map_cons, List.nodup_cons]
    refine ⟨?_, h.sequences⟩
    intro hmem
    obtain ⟨e, he, heq⟩ := List.mem_map.mp hmem
    exact (hsequence e he).ne heq

theorem erase (h : Compatible es) (hex : Exchanges [entry] [] es es') : Compatible es' := by
  obtain ⟨others, hold, hnew⟩ := hex
  exact (h.perm hold).of_cons.perm hnew.symm

/-- Another positive quantity of the same order. -/
theorem amend (h : Compatible es) {side : Side} {price : PriceTicks} {order : Order} {quantity : Quantity}
    (hpos : 0 < quantity.val)
    (hex : Exchanges [(side, price, order)] [(side, price, { order with quantity })] es es') :
    Compatible es' := by
  obtain ⟨others, hold, hnew⟩ := hex
  have hprior := h.perm hold
  refine Compatible.perm ?_ hnew.symm
  refine ⟨?_, ?_, ?_, ?_, hprior.ids, hprior.sequences⟩
  · rintro e (_ | ⟨_, he⟩)
    · exact hprior.price_pos (side, price, order) List.mem_cons_self
    · exact hprior.price_pos e (List.mem_cons_of_mem _ he)
  · rintro e (_ | ⟨_, he⟩)
    · exact hpos
    · exact hprior.quantity_pos e (List.mem_cons_of_mem _ he)
  · rintro e (_ | ⟨_, he⟩)
    · exact hprior.sequence_pos (side, price, order) List.mem_cons_self
    · exact hprior.sequence_pos e (List.mem_cons_of_mem _ he)
  · have hsame : ∀ e ∈ (side, price, { order with quantity }) :: others,
        ∃ e' ∈ (side, price, order) :: others, e'.1 = e.1 ∧ e'.2.1 = e.2.1 := by
      rintro e (_ | ⟨_, he⟩)
      · exact ⟨_, List.mem_cons_self, rfl, rfl⟩
      · exact ⟨e, List.mem_cons_of_mem _ he, rfl, rfl⟩
    intro bid hbid ask hask hbuy hsell
    obtain ⟨bid', hbid', hside, hprice⟩ := hsame bid hbid
    obtain ⟨ask', hask', hside', hprice'⟩ := hsame ask hask
    rw [← hprice, ← hprice']
    exact hprior.uncrossed bid' hbid' ask' hask' (hside.trans hbuy) (hside'.trans hsell)

end Compatible

/-! ## The shape of a side -/

namespace Shaped

/-- Another queue at the same price. -/
theorem setLevel {level level' : Level} (h : Shaped LEVELS ORDERS descending (pre ++ level :: post))
    (hprice : level'.price = level.price) (hnonempty : level'.orders ≠ [])
    (horders : level'.orders.length ≤ ORDERS)
    (hfifo : level'.orders.Pairwise fun a b ↦ a.sequence < b.sequence) :
    Shaped LEVELS ORDERS descending (pre ++ level' :: post) := by
  have hmem : ∀ l ∈ pre ++ level' :: post, l = level' ∨ l ∈ pre ++ level :: post := by
    intro l hl
    simp only [List.mem_append, List.mem_cons] at hl ⊢
    tauto
  refine ⟨?_, ?_, ?_, ?_, ?_⟩
  · intro l hl
    rcases hmem l hl with rfl | hl
    · exact hnonempty
    · exact h.nonempty l hl
  · intro l hl
    rcases hmem l hl with rfl | hl
    · exact horders
    · exact h.orders_le l hl
  · intro l hl
    rcases hmem l hl with rfl | hl
    · exact hfifo
    · exact h.fifo l hl
  · have := h.levels_le
    simpa using this
  · have hsorted := h.sorted
    rw [List.pairwise_append, List.pairwise_cons] at hsorted ⊢
    rw [hprice]
    obtain ⟨hpre, ⟨hlevel, hpost⟩, hcross⟩ := hsorted
    refine ⟨hpre, ⟨hlevel, hpost⟩, ?_⟩
    intro a ha b hb
    rcases List.mem_cons.mp hb with rfl | hb
    · rw [hprice]
      exact hcross a ha level List.mem_cons_self
    · exact hcross a ha b (List.mem_cons_of_mem _ hb)

theorem dropLevel {level : Level} (h : Shaped LEVELS ORDERS descending (pre ++ level :: post)) :
    Shaped LEVELS ORDERS descending (pre ++ post) := by
  have hsub : (pre ++ post).Sublist (pre ++ level :: post) :=
    List.Sublist.append_left (List.sublist_cons_self _ _) _
  exact ⟨fun l hl ↦ h.nonempty l (hsub.mem hl), fun l hl ↦ h.orders_le l (hsub.mem hl),
    fun l hl ↦ h.fifo l (hsub.mem hl), hsub.length_le.trans h.levels_le, h.sorted.sublist hsub⟩

theorem erase (h : Shaped LEVELS ORDERS descending (pre ++ ⟨price, xs ++ order :: ys⟩ :: post)) :
    Shaped LEVELS ORDERS descending (pre ++ (Level.kept ⟨price, xs ++ ys⟩ ++ post)) := by
  have hmem : (⟨price, xs ++ order :: ys⟩ : Level) ∈ pre ++ ⟨price, xs ++ order :: ys⟩ :: post := by simp
  have hsub : (xs ++ ys).Sublist (xs ++ order :: ys) :=
    List.Sublist.append_left (List.sublist_cons_self _ _) _
  by_cases hempty : xs ++ ys = []
  · rw [Level.kept, if_pos hempty]
    exact h.dropLevel
  · rw [Level.kept, if_neg hempty]
    exact h.setLevel rfl hempty (hsub.length_le.trans (h.orders_le _ hmem))
      ((h.fifo _ hmem).sublist hsub)

theorem amend (h : Shaped LEVELS ORDERS descending (pre ++ ⟨price, xs ++ order :: ys⟩ :: post))
    (quantity : Quantity) :
    Shaped LEVELS ORDERS descending (pre ++ ⟨price, xs ++ { order with quantity } :: ys⟩ :: post) := by
  have hmem : (⟨price, xs ++ order :: ys⟩ : Level) ∈ pre ++ ⟨price, xs ++ order :: ys⟩ :: post := by simp
  have hlength := h.orders_le _ hmem
  have hfifo := h.fifo _ hmem
  simp only [List.pairwise_append, List.pairwise_cons, List.mem_cons] at hfifo
  refine h.setLevel rfl (by simp) (by simpa using hlength) ?_
  simp only [List.pairwise_append, List.pairwise_cons, List.mem_cons]
  obtain ⟨hxs, ⟨horder, hys⟩, hcross⟩ := hfifo
  refine ⟨hxs, ⟨horder, hys⟩, ?_⟩
  rintro a ha b (rfl | hb)
  · exact hcross a ha order (.inl rfl)
  · exact hcross a ha b (.inr hb)

/-- The side around the place of a price. -/
theorem at_price (h : Shaped LEVELS ORDERS descending levels) (price : PriceTicks) :
    ∃ pre post, (∀ level ∈ pre, SortedIndex.before descending level.price price = true) ∧
      (∀ level ∈ post, SortedIndex.before descending price level.price = true) ∧
      ((∃ queue, levels = pre ++ ⟨price, queue⟩ :: post ∧ queueAt price levels = some queue) ∨
        levels = pre ++ post ∧ queueAt price levels = none) := by
  have hsorted := h.sorted
  clear h
  induction levels with
  | nil => exact ⟨[], [], by simp, by simp, .inr ⟨rfl, rfl⟩⟩
  | cons level levels ih =>
    obtain ⟨hlevel, hlevels⟩ := List.pairwise_cons.mp hsorted
    by_cases heq : level.price = price
    · subst heq
      refine ⟨[], levels, by simp, hlevel, .inl ⟨level.orders, rfl, ?_⟩⟩
      simp [queueAt]
    · have htotal : SortedIndex.before descending level.price price = true ∨
          SortedIndex.before descending price level.price = true := SortedIndex.before_total heq
      rcases htotal with hbefore | hafter
      · obtain ⟨pre, post, hpre, hpost, hsplit⟩ := ih hlevels
        have hqueue : queueAt price (level :: levels) = queueAt price levels := by
          simp [queueAt, heq]
        refine ⟨level :: pre, post, ?_, hpost, ?_⟩
        · intro l hl
          rcases List.mem_cons.mp hl with rfl | hl
          · exact hbefore
          · exact hpre l hl
        · rcases hsplit with ⟨queue, rfl, hat⟩ | ⟨rfl, hat⟩
          · exact .inl ⟨queue, rfl, hqueue.trans hat⟩
          · exact .inr ⟨rfl, hqueue.trans hat⟩
      · have hpost : ∀ l ∈ level :: levels, SortedIndex.before descending price l.price = true := by
          intro l hl
          rcases List.mem_cons.mp hl with rfl | hl
          · exact hafter
          · exact SortedIndex.before_trans hafter (hlevel l hl)
        refine ⟨[], level :: levels, by simp, hpost, .inr ⟨rfl, ?_⟩⟩
        rw [queueAt_eq_none]
        intro l hl
        exact (SortedIndex.before_ne (hpost l hl)).symm

/-- Room at the price for one more order, newer than the others. -/
theorem append (hO : 0 < ORDERS) (h : Shaped LEVELS ORDERS descending levels)
    (hqueue : ∀ queue, queueAt price levels = some queue → queue.length < ORDERS)
    (hlevels : queueAt price levels = none → levels.length < LEVELS)
    (hnew : ∀ level ∈ levels, ∀ o ∈ level.orders, o.sequence < order.sequence) :
    Shaped LEVELS ORDERS descending (appendOrder descending price order levels) := by
  obtain ⟨pre, post, hpre, hpost, ⟨queue, rfl, hat⟩ | ⟨rfl, hat⟩⟩ := h.at_price price
  · have hmem : (⟨price, queue⟩ : Level) ∈ pre ++ ⟨price, queue⟩ :: post := by simp
    rw [appendOrder_of_price hpre]
    refine h.setLevel rfl (by simp) ?_ ?_
    · have := hqueue queue hat
      simpa using this
    · rw [List.pairwise_append]
      refine ⟨h.fifo _ hmem, List.pairwise_singleton _ _, ?_⟩
      intro a ha b hb
      rw [List.mem_singleton.mp hb]
      exact hnew _ hmem a ha
  · have hmem : ∀ l ∈ pre ++ ⟨price, [order]⟩ :: post, l = ⟨price, [order]⟩ ∨ l ∈ pre ++ post := by
      intro l hl
      simp only [List.mem_append, List.mem_cons] at hl ⊢
      tauto
    rw [appendOrder_of_absent hpre hpost]
    refine ⟨?_, ?_, ?_, ?_, ?_⟩
    · intro l hl
      rcases hmem l hl with rfl | hl
      · simp
      · exact h.nonempty l hl
    · intro l hl
      rcases hmem l hl with rfl | hl
      · exact hO
      · exact h.orders_le l hl
    · intro l hl
      rcases hmem l hl with rfl | hl
      · exact List.pairwise_singleton _ _
      · exact h.fifo l hl
    · have := hlevels hat
      rw [List.length_append] at this
      rw [List.length_append, List.length_cons]
      omega
    · have hsorted := h.sorted
      rw [List.pairwise_append] at hsorted
      obtain ⟨hsortedPre, hsortedPost, hcross⟩ := hsorted
      rw [List.pairwise_append, List.pairwise_cons]
      refine ⟨hsortedPre, ⟨hpost, hsortedPost⟩, ?_⟩
      intro a ha b hb
      rcases List.mem_cons.mp hb with rfl | hb
      · exact hpre a ha
      · exact hcross a ha b hb

end Shaped

/-! ## Restorable books -/

namespace Book

theorem Restorable.shaped (h : book.Restorable LEVELS ORDERS) (side : Side) :
    Shaped LEVELS ORDERS (DeterministicExchange.Book.descending side) (book.side side) :=
  ⟨fun l hl ↦ (h.level side l hl).nonempty, fun l hl ↦ (h.level side l hl).length_le,
    fun l hl ↦ (h.level side l hl).fifo, h.length_le side, h.sorted side⟩

/-- The best level of a sorted side. -/
theorem exists_top (hsorted : levels.Pairwise fun a b ↦ SortedIndex.before descending a.price b.price = true)
    {level : Level} (hlevel : level ∈ levels) :
    ∃ top ∈ levels.head?, level = top ∨ SortedIndex.before descending top.price level.price = true := by
  cases levels with
  | nil => simp at hlevel
  | cons top levels =>
    refine ⟨top, rfl, ?_⟩
    rcases List.mem_cons.mp hlevel with rfl | hlevel
    · exact .inl rfl
    · exact .inr ((List.pairwise_cons.mp hsorted).1 level hlevel)

/-- Sorted sides that do not cross at the top do not cross anywhere. -/
theorem Restorable.compatible (h : book.Restorable LEVELS ORDERS) : Compatible book.entries := by
  refine ⟨?_, ?_, ?_, ?_, h.ids, h.sequences⟩
  · intro entry hentry
    obtain ⟨level, hlevel, hprice, _⟩ := mem_book_entries.mp hentry
    rw [← hprice]
    exact (h.level _ level hlevel).price_pos
  · intro entry hentry
    obtain ⟨level, hlevel, _, horder⟩ := mem_book_entries.mp hentry
    exact (h.level _ level hlevel).quantity_pos _ horder
  · intro entry hentry
    obtain ⟨level, hlevel, _, horder⟩ := mem_book_entries.mp hentry
    exact (h.level _ level hlevel).sequence_pos _ horder
  · intro bid hbid ask hask hbuy hsell
    obtain ⟨b, hb, hbprice, _⟩ := mem_book_entries.mp hbid
    obtain ⟨a, ha, haprice, _⟩ := mem_book_entries.mp hask
    rw [hbuy] at hb
    rw [hsell] at ha
    obtain ⟨topBid, htopBid, hbest⟩ := exists_top (h.sorted .buy) hb
    obtain ⟨topAsk, htopAsk, hbest'⟩ := exists_top (h.sorted .sell) ha
    have htop := h.uncrossed topBid htopBid topAsk htopAsk
    have hle : b.price.val ≤ topBid.price.val := by
      rcases hbest with rfl | hbefore
      · exact le_rfl
      · have hlt : b.price < topBid.price := by
          simpa [SortedIndex.before, DeterministicExchange.Book.descending] using hbefore
        exact hlt.le
    have hle' : topAsk.price.val ≤ a.price.val := by
      rcases hbest' with rfl | hbefore
      · exact le_rfl
      · have hlt : topAsk.price < a.price := by
          simpa [SortedIndex.before, DeterministicExchange.Book.descending] using hbefore
        exact hlt.le
    rw [← hbprice, ← haprice]
    omega

/-- A book is restorable when its sides are shaped and its orders are compatible. -/
theorem restorable_of_shaped
    (hshaped : ∀ side, Shaped LEVELS ORDERS (DeterministicExchange.Book.descending side) (book.side side))
    (h : Compatible book.entries) : book.Restorable LEVELS ORDERS := by
  have hentry (side : Side) (level : Level) (hlevel : level ∈ book.side side) (order : Order)
      (horder : order ∈ level.orders) : (side, level.price, order) ∈ book.entries :=
    mem_book_entries.mpr ⟨level, hlevel, rfl, horder⟩
  have hexists (side : Side) (level : Level) (hlevel : level ∈ book.side side) :
      ∃ order, (side, level.price, order) ∈ book.entries := by
    obtain ⟨order, orders, hcons⟩ := List.exists_cons_of_ne_nil ((hshaped side).nonempty level hlevel)
    exact ⟨order, hentry side level hlevel order (by rw [hcons]; exact List.mem_cons_self)⟩
  refine ⟨?_, fun side ↦ (hshaped side).levels_le, fun side ↦ (hshaped side).sorted, ?_, h.ids,
    h.sequences⟩
  · intro side level hlevel
    obtain ⟨order, horder⟩ := hexists side level hlevel
    exact ⟨h.price_pos _ horder, (hshaped side).nonempty level hlevel,
      (hshaped side).orders_le level hlevel,
      fun order horder ↦ h.quantity_pos _ (hentry side level hlevel order horder),
      fun order horder ↦ h.sequence_pos _ (hentry side level hlevel order horder),
      (hshaped side).fifo level hlevel⟩
  · intro bid hbid ask hask
    obtain ⟨order, horder⟩ := hexists .buy bid (List.mem_of_mem_head? hbid)
    obtain ⟨order', horder'⟩ := hexists .sell ask (List.mem_of_mem_head? hask)
    exact h.uncrossed _ horder _ horder' rfl rfl

theorem Restorable.empty (instrument : InstrumentId) :
    (Book.empty instrument).Restorable LEVELS ORDERS := by
  have hside : ∀ side, (Book.empty instrument).side side = [] := fun side ↦ by cases side <;> rfl
  refine ⟨?_, ?_, ?_, ?_, List.nodup_nil, List.nodup_nil⟩
  · simp [hside]
  · simp [hside]
  · simp [hside]
  · simp [Book.empty]

end Book

end DeterministicExchange.Logical
