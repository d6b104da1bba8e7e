import DeterministicExchange.Book.Entries

/-!
# Operations on restorable books

Every operation of the logical book leads from restorable books to restorable
books when the orders it adds are newer than the resting ones, and exchanges few
of the resting orders.
-/

namespace DeterministicExchange.Logical

open Machine DeterministicExchange.Book

variable {LEVELS ORDERS : ℕ} {book : Book} {side : Side} {price : PriceTicks} {order : Order}
  {levels : List Level} {id : OrderId}

namespace Book

/-! ## Finding orders -/

theorem mem_of_find {found : Entry} (h : book.find id = some found) :
    found ∈ book.entries ∧ found.2.2.id = id := by
  unfold find at h
  rw [mem_book_entries]
  rcases Option.or_eq_some_iff.mp h with hbuy | ⟨_, hsell⟩
  · obtain ⟨pair, hpair, rfl⟩ := Option.map_eq_some_iff.mp hbuy
    obtain ⟨level, hlevel, hprice, horder, hid⟩ := mem_of_findOrder hpair
    exact ⟨⟨level, hlevel, hprice, horder⟩, hid⟩
  · obtain ⟨pair, hpair, rfl⟩ := Option.map_eq_some_iff.mp hsell
    obtain ⟨level, hlevel, hprice, horder, hid⟩ := mem_of_findOrder hpair
    exact ⟨⟨level, hlevel, hprice, horder⟩, hid⟩

theorem find_eq_none : book.find id = none ↔ ∀ entry ∈ book.entries, entry.2.2.id ≠ id := by
  constructor
  · intro h entry hentry
    unfold find at h
    obtain ⟨level, hlevel, _, horder⟩ := mem_book_entries.mp hentry
    obtain ⟨hbuy, hsell⟩ := Option.or_eq_none_iff.mp h
    rw [Option.map_eq_none_iff, findOrder_eq_none] at hbuy hsell
    cases hside : entry.1 with
    | buy =>
      rw [hside] at hlevel
      exact hbuy level hlevel _ horder
    | sell =>
      rw [hside] at hlevel
      exact hsell level hlevel _ horder
  · intro h
    cases hfind : book.find id with
    | none => rfl
    | some found =>
      obtain ⟨hmem, hid⟩ := mem_of_find hfind
      exact absurd hid (h found hmem)

theorem find_of_mem (hnodup : (book.entries.map fun entry ↦ entry.2.2.id).Nodup) {entry : Entry}
    (hentry : entry ∈ book.entries) : book.find entry.2.2.id = some entry := by
  cases hfind : book.find entry.2.2.id with
  | none => exact absurd rfl (find_eq_none.mp hfind entry hentry)
  | some found =>
    obtain ⟨hmem, hid⟩ := mem_of_find hfind
    rw [List.inj_on_of_nodup_map hnodup hmem hentry hid]

/-- A side split at one of its orders, the only one with its id. -/
structure SplitAt (book : Book) (side : Side) (price : PriceTicks) (order : Order) (pre post : List Level)
    (xs ys : List Order) : Prop where
  side_eq : book.side side = pre ++ ⟨price, xs ++ order :: ys⟩ :: post
  queue : ∀ x ∈ xs ++ ys, x.id ≠ order.id
  levels : Without order.id (pre ++ post)

theorem exists_splitAt (hids : (book.entries.map fun entry ↦ entry.2.2.id).Nodup)
    (hmem : (side, price, order) ∈ book.entries) :
    ∃ pre post xs ys, book.SplitAt side price order pre post xs ys := by
  obtain ⟨level, hlevel, rfl, horder⟩ := mem_book_entries.mp hmem
  obtain ⟨pre, post, hside⟩ := List.append_of_mem hlevel
  obtain ⟨xs, ys, horders⟩ := List.append_of_mem horder
  have hside' : book.side side = pre ++ ⟨level.price, xs ++ order :: ys⟩ :: post := by
    rw [hside, ← horders]
  rw [((entries_perm_sides book side).map _).nodup_iff, hside', List.map_append] at hids
  have hids' := List.Nodup.of_append_left hids
  rw [((entries_split side pre post level.price xs ys order).map _).nodup_iff, List.map_cons,
    List.nodup_cons] at hids'
  have hne : ∀ entry ∈ Logical.entries side (pre ++ ⟨level.price, xs ++ ys⟩ :: post),
      entry.2.2.id ≠ order.id :=
    fun entry hentry heq ↦ hids'.1 (List.mem_map.mpr ⟨entry, hentry, heq⟩)
  refine ⟨pre, post, xs, ys, hside', ?_, ?_⟩
  · intro x hx
    exact hne (side, level.price, x) (mem_entries.mpr ⟨rfl, ⟨level.price, xs ++ ys⟩, by simp, rfl, hx⟩)
  · intro l hl o ho
    refine hne (side, l.price, o) (mem_entries.mpr ⟨rfl, l, ?_, rfl, ho⟩)
    simp only [List.mem_append, List.mem_cons] at hl ⊢
    tauto

theorem Restorable.splitAt (h : book.Restorable LEVELS ORDERS) (hmem : (side, price, order) ∈ book.entries) :
    ∃ pre post xs ys, book.SplitAt side price order pre post xs ys := exists_splitAt h.ids hmem

/-! ## Erasing, amending, appending -/

section Primitive

variable {pre post : List Level} {xs ys : List Order}

/-- Replacing a side by another shaped side with compatible orders. -/
theorem Restorable.setSide (h : book.Restorable LEVELS ORDERS)
    (hshaped : Shaped LEVELS ORDERS (descending side) levels)
    (hcompatible : Compatible (book.setSide side levels).entries) :
    (book.setSide side levels).Restorable LEVELS ORDERS := by
  refine restorable_of_shaped ?_ hcompatible
  intro side'
  cases side <;> cases side' <;> first | exact hshaped | exact h.shaped _

/-- Erasing an order where every level is in use. -/
theorem SplitAt.erase (hsplit : book.SplitAt side price order pre post xs ys)
    (hnonempty : ∀ level ∈ book.side side, level.orders ≠ []) :
    eraseOrder order.id (book.side side) = pre ++ (Level.kept ⟨price, xs ++ ys⟩ ++ post) ∧
      Exchanges [(side, price, order)] [] book.entries (book.erase side order.id).entries := by
  have hne : ∀ level ∈ pre ++ post, level.orders ≠ [] := by
    intro level hlevel
    refine hnonempty level ?_
    rw [hsplit.side_eq]
    simp only [List.mem_append, List.mem_cons] at hlevel ⊢
    tauto
  have herase : eraseOrder order.id (book.side side) = pre ++ (Level.kept ⟨price, xs ++ ys⟩ ++ post) := by
    rw [hsplit.side_eq]
    exact eraseOrder_split hsplit.queue hsplit.levels hne
  refine ⟨herase, ?_⟩
  apply Exchanges.setSide
  rw [herase, hsplit.side_eq]
  exact exchanges_erase side pre post price xs ys order

theorem SplitAt.amend (hsplit : book.SplitAt side price order pre post xs ys) (quantity : Quantity) :
    amendOrder order.id quantity (book.side side) =
        pre ++ ⟨price, xs ++ { order with quantity } :: ys⟩ :: post ∧
      Exchanges [(side, price, order)] [(side, price, { order with quantity })] book.entries
        (book.setSide side (amendOrder order.id quantity (book.side side))).entries := by
  have hamend : amendOrder order.id quantity (book.side side) =
      pre ++ ⟨price, xs ++ { order with quantity } :: ys⟩ :: post := by
    rw [hsplit.side_eq]
    exact amendOrder_split quantity hsplit.queue hsplit.levels
  refine ⟨hamend, ?_⟩
  apply Exchanges.setSide
  rw [hamend, hsplit.side_eq]
  exact exchanges_amend side pre post price xs ys order _

theorem Restorable.erase (h : book.Restorable LEVELS ORDERS)
    (hsplit : book.SplitAt side price order pre post xs ys) :
    (book.erase side order.id).Restorable LEVELS ORDERS ∧
      Exchanges [(side, price, order)] [] book.entries (book.erase side order.id).entries := by
  have hshaped := h.shaped side
  obtain ⟨herase, hex⟩ := hsplit.erase hshaped.nonempty
  refine ⟨h.setSide ?_ (h.compatible.erase hex), hex⟩
  rw [herase]
  rw [hsplit.side_eq] at hshaped
  exact hshaped.erase

theorem Restorable.amend (h : book.Restorable LEVELS ORDERS)
    (hsplit : book.SplitAt side price order pre post xs ys) {quantity : Quantity} (hpos : 0 < quantity.val) :
    (book.setSide side (amendOrder order.id quantity (book.side side))).Restorable LEVELS ORDERS ∧
      Exchanges [(side, price, order)] [(side, price, { order with quantity })] book.entries
        (book.setSide side (amendOrder order.id quantity (book.side side))).entries := by
  have hshaped := h.shaped side
  obtain ⟨hamend, hex⟩ := hsplit.amend quantity
  refine ⟨h.setSide ?_ (h.compatible.amend hpos hex), hex⟩
  rw [hamend]
  rw [hsplit.side_eq] at hshaped
  exact hshaped.amend quantity

end Primitive

/-- What lets an order rest: room at its price, no crossing, a new id and a new sequence. -/
structure Admits (LEVELS ORDERS : ℕ) (book : Book) (side : Side) (price : PriceTicks) (order : Order) :
    Prop where
  room : book.restingReject LEVELS ORDERS side price = none
  uncrossed : book.wouldTrade side price = false
  price_pos : 0 < price.val
  quantity_pos : 0 < order.quantity.val
  sequence_pos : 0 < order.sequence.val
  id : ∀ entry ∈ book.entries, entry.2.2.id ≠ order.id
  sequence : ∀ entry ∈ book.entries, entry.2.2.sequence < order.sequence

theorem Restorable.not_crosses (h : book.Restorable LEVELS ORDERS)
    (huncrossed : book.wouldTrade side price = false) :
    ∀ entry ∈ book.entries, entry.1 = side.opposite → crosses side price entry.2.1 = false := by
  intro entry hentry hside
  obtain ⟨level, hlevel, hprice, _⟩ := mem_book_entries.mp hentry
  rw [hside] at hlevel
  obtain ⟨top, htop, hbest⟩ := exists_top (h.sorted side.opposite) hlevel
  unfold wouldTrade at huncrossed
  have htop' : (book.side side.opposite).head? = some top := htop
  rw [htop', Option.any_some] at huncrossed
  rw [← hprice]
  rcases hbest with rfl | hbefore
  · exact huncrossed
  · cases side with
    | buy =>
      have hlt : top.price < level.price := by
        simpa [SortedIndex.before, descending, Side.opposite] using hbefore
      have hlt' : top.price.val < level.price.val := hlt
      simp only [crosses, decide_eq_false_iff_not] at huncrossed ⊢
      omega
    | sell =>
      have hlt : level.price < top.price := by
        simpa [SortedIndex.before, descending, Side.opposite] using hbefore
      have hlt' : level.price.val < top.price.val := hlt
      simp only [crosses, decide_eq_false_iff_not] at huncrossed ⊢
      omega

theorem Restorable.append (hO : 0 < ORDERS) (h : book.Restorable LEVELS ORDERS)
    (hadmits : book.Admits LEVELS ORDERS side price order) :
    (book.append side price order).Restorable LEVELS ORDERS ∧
      Exchanges [] [(side, price, order)] book.entries (book.append side price order).entries := by
  have hshaped := h.shaped side
  have hex : Exchanges [] [(side, price, order)] book.entries (book.append side price order).entries :=
    (exchanges_append (descending side) side price order (book.side side)).setSide
  have hroom := hadmits.room
  unfold restingReject at hroom
  refine ⟨h.setSide (hshaped.append hO ?_ ?_ ?_) ?_, hex⟩
  · intro queue hqueue
    obtain ⟨pre, post, _, _, ⟨queue', hside, hat⟩ | ⟨_, hat⟩⟩ := hshaped.at_price price
    · obtain rfl := Option.some.inj (hat.symm.trans hqueue)
      have hle := hshaped.orders_le ⟨price, queue'⟩ (by rw [hside]; simp)
      simp only [hqueue] at hroom
      exact lt_of_le_of_ne hle fun heq ↦ by simp [heq] at hroom
    · rw [hqueue] at hat
      simp at hat
  · intro hnone
    simp only [hnone] at hroom
    exact lt_of_le_of_ne hshaped.levels_le fun heq ↦ by simp [heq] at hroom
  · intro level hlevel o ho
    exact hadmits.sequence (side, level.price, o) (mem_book_entries.mpr ⟨level, hlevel, rfl, ho⟩)
  · obtain ⟨others, hold, hnew⟩ := hex
    have hothers : Compatible others := h.compatible.perm hold
    refine (hothers.cons hadmits.price_pos hadmits.quantity_pos ?_ ?_ hadmits.sequence_pos ?_).perm
      hnew.symm
    · exact fun e he ↦ hadmits.id e (hold.mem_iff.mpr he)
    · exact fun e he ↦ hadmits.sequence e (hold.mem_iff.mpr he)
    · exact fun e he ↦ h.not_crosses hadmits.uncrossed e (hold.mem_iff.mpr he)

/-! ## Cancelling and replacing -/

theorem owned_ok {instrumentId : InstrumentId} {accountId : AccountId} {found : Entry}
    (h : book.owned instrumentId id accountId = .ok found) :
    book.find id = some found ∧ found.2.2.accountId = accountId := by
  unfold owned at h
  split at h
  · simp at h
  split at h
  · simp at h
  next found' hfind =>
  split at h
  · simp at h
  next howner =>
  obtain rfl := Except.ok.inj h
  exact ⟨hfind, not_not.mp howner⟩

/-- An accepted cancel erases one order of the account. -/
theorem Restorable.cancel (h : book.Restorable LEVELS ORDERS) {cancel : CancelOrder}
    {cancelled : CancelledOrder} {book' : Book} (hok : book.cancel cancel = .ok (cancelled, book')) :
    ∃ side price order, order.id = cancel.orderId ∧ order.accountId = cancel.accountId ∧
      cancelled = ⟨order.id, order.accountId, order.quantity⟩ ∧ book'.Restorable LEVELS ORDERS ∧
      book'.instrument = book.instrument ∧
      Exchanges [(side, price, order)] [] book.entries book'.entries := by
  unfold Book.cancel at hok
  split at hok
  · simp at hok
  next side price order howned =>
  obtain ⟨hfind, howner⟩ := owned_ok howned
  obtain ⟨hmem, hid⟩ := mem_of_find hfind
  obtain ⟨pre, post, xs, ys, hsplit⟩ := h.splitAt hmem
  obtain ⟨hcancelled, rfl⟩ := Prod.ext_iff.mp (Except.ok.inj hok)
  have hid' : order.id = cancel.orderId := hid
  obtain ⟨hrestorable, hex⟩ := h.erase hsplit
  rw [hid'] at hrestorable hex
  exact ⟨side, price, order, hid', howner, hcancelled.symm, hrestorable, setSide_instrument .., hex⟩

/-- A resting order does not trade at its own price. -/
theorem Restorable.wouldTrade_of_mem (h : book.Restorable LEVELS ORDERS)
    (hmem : (side, price, order) ∈ book.entries) : book.wouldTrade side price = false := by
  unfold wouldTrade
  cases hhead : (book.side side.opposite).head? with
  | none => rfl
  | some level =>
    have hlevel := List.mem_of_mem_head? hhead
    obtain ⟨o, orders, hcons⟩ :=
      List.exists_cons_of_ne_nil ((h.shaped side.opposite).nonempty level hlevel)
    have hmem' : (side.opposite, level.price, o) ∈ book.entries :=
      mem_book_entries.mpr ⟨level, hlevel, rfl, by rw [hcons]; exact List.mem_cons_self⟩
    rw [Option.any_some]
    cases side with
    | buy =>
      have hlt : price.val < level.price.val := h.compatible.uncrossed _ hmem _ hmem' rfl rfl
      simp only [crosses, decide_eq_false_iff_not]
      omega
    | sell =>
      have hlt : level.price.val < price.val := h.compatible.uncrossed _ hmem' _ hmem rfl rfl
      simp only [crosses, decide_eq_false_iff_not]
      omega

theorem wouldTrade_setSide (book : Book) (side : Side) (levels : List Level) (limit : PriceTicks) :
    (book.setSide side levels).wouldTrade side limit = book.wouldTrade side limit := by
  unfold wouldTrade
  rw [side_opposite_setSide]

/-- An order that leaves its place is admitted at its destination. -/
theorem Restorable.admits_moved (h : book.Restorable LEVELS ORDERS) {pre post : List Level}
    {xs ys : List Order} {oldPrice : PriceTicks} {order' : Order}
    (hsplit : book.SplitAt side oldPrice order pre post xs ys)
    (hmove : book.moveReject LEVELS ORDERS side oldPrice price = none) (hprice : 0 < price.val)
    (hquantity : 0 < order'.quantity.val) (hid : order'.id = order.id)
    (hnew : ∀ entry ∈ book.entries, entry.2.2.sequence < order'.sequence) :
    (book.erase side order.id).Admits LEVELS ORDERS side price order' := by
  have hshaped := h.shaped side
  have hmem : (side, oldPrice, order) ∈ book.entries := by
    refine mem_book_entries.mpr ⟨⟨oldPrice, xs ++ order :: ys⟩, ?_, rfl, by simp⟩
    rw [hsplit.side_eq]
    simp
  obtain ⟨hrestorable, others, hold, hrest⟩ := h.erase hsplit
  have hne : ∀ level ∈ pre ++ post, level.orders ≠ [] := by
    intro level hlevel
    refine hshaped.nonempty level ?_
    rw [hsplit.side_eq]
    simp only [List.mem_append, List.mem_cons] at hlevel ⊢
    tauto
  have hfits : Fits LEVELS ORDERS (descending side) (book.side side) :=
    ⟨hshaped.orders_le, hshaped.levels_le, hshaped.sorted⟩
  have hroom := restingReject_of_moveReject hsplit.side_eq hfits hmove
  rw [← eraseOrder_split hsplit.queue hsplit.levels hne, ← hsplit.side_eq] at hroom
  have hids : ((order.id) :: others.map fun entry : Entry ↦ entry.2.2.id).Nodup :=
    (hold.map _).nodup_iff.mp h.ids
  refine ⟨hroom, ?_, hprice, hquantity, ?_, ?_, ?_⟩
  · rw [Book.erase, wouldTrade_setSide]
    by_cases hsame : price = oldPrice
    · rw [hsame]
      exact h.wouldTrade_of_mem hmem
    · unfold moveReject at hmove
      split at hmove
      · simp at hmove
      · next hcross => simpa [hsame] using hcross
  · have hlt : order.sequence.val < order'.sequence.val := hnew _ hmem
    omega
  · intro entry hentry heq
    rw [hid] at heq
    exact (List.nodup_cons.mp hids).1 (List.mem_map.mpr ⟨entry, hrest.mem_iff.mp hentry, heq⟩)
  · intro entry hentry
    exact hnew entry (hold.mem_iff.mpr (List.mem_cons_of_mem _ (hrest.mem_iff.mp hentry)))

/-- An accepted replace exchanges one order of the account for the amended one. -/
theorem Restorable.replace (hO : 0 < ORDERS) (h : book.Restorable LEVELS ORDERS) {replace : ReplaceOrder}
    {replaced : ReplacedOrder} {book' : Book}
    (hok : book.replace LEVELS ORDERS replace = .ok (replaced, book'))
    (hnew : ∀ entry ∈ book.entries, entry.2.2.sequence < replace.sequence) :
    ∃ side oldPrice order order', order.id = replace.orderId ∧ order.accountId = replace.accountId ∧
      order'.id = order.id ∧ order'.accountId = order.accountId ∧ order'.quantity = replace.quantity ∧
      order'.sequence ≤ replace.sequence ∧ book'.Restorable LEVELS ORDERS ∧
      book'.instrument = book.instrument ∧
      Exchanges [(side, oldPrice, order)] [(side, replace.price, order')] book.entries book'.entries := by
  unfold Book.replace at hok
  split at hok
  · simp at hok
  next side oldPrice order howned =>
  obtain ⟨hfind, howner⟩ := owned_ok howned
  obtain ⟨hmem, hid⟩ := mem_of_find hfind
  have hid : order.id = replace.orderId := hid
  have howner : order.accountId = replace.accountId := howner
  obtain ⟨pre, post, xs, ys, hsplit⟩ := h.splitAt hmem
  simp only at hok
  split at hok
  · simp at hok
  next hprice =>
  split at hok
  · simp at hok
  next hquantity =>
  have hpos : 0 < replace.quantity.val := Nat.pos_of_ne_zero hquantity
  split at hok
  · next hkeep =>
    obtain ⟨-, rfl⟩ := Prod.ext_iff.mp (Except.ok.inj hok)
    obtain ⟨hrestorable, hex⟩ := h.amend hsplit hpos
    rw [hid, ← hkeep.1] at hex
    rw [hid] at hrestorable
    exact ⟨side, replace.price, order, ⟨replace.orderId, order.accountId, replace.quantity, order.sequence⟩,
      hid, howner, hid.symm, rfl, rfl, (hnew _ hmem).le, hrestorable, setSide_instrument .., hex⟩
  · split at hok
    · simp at hok
    next hmove =>
    obtain ⟨-, rfl⟩ := Prod.ext_iff.mp (Except.ok.inj hok)
    obtain ⟨hrestorable, hex⟩ := h.erase hsplit
    have hadmits : (book.erase side order.id).Admits LEVELS ORDERS side replace.price
        ⟨replace.orderId, replace.accountId, replace.quantity, replace.sequence⟩ :=
      h.admits_moved hsplit hmove (not_le.mp hprice) hpos hid.symm hnew
    obtain ⟨hrestorable', hex'⟩ := hrestorable.append hO hadmits
    rw [hid] at hrestorable' hex' hex
    refine ⟨side, oldPrice, order, _, hid, howner, hid.symm, howner.symm, rfl, le_rfl, hrestorable', ?_,
      hex.trans_middle hex'⟩
    exact (setSide_instrument ..).trans (setSide_instrument ..)

end Book

/-! ## Matching -/

/-- What is left of a maker after it gave `traded`. -/
def makerRest (side : Side) (price : PriceTicks) (order : Order) (traded : Quantity) : List Entry :=
  if traded.val < order.quantity.val then
    [(side, price, { order with quantity := Unsigned.monus order.quantity traded })]
  else []

/-- What rests of an order with a remaining quantity. -/
def takerRest (order : NewOrder) (remaining : Quantity) : List Entry :=
  if 0 < remaining.val then [(order.side, order.price, Book.restingOrder order remaining)] else []

/-- Orders that were there before, each with at most its earlier quantity. -/
def Shrinks (es es' : List Entry) : Prop :=
  ∀ e' ∈ es', ∃ e ∈ es, e.1 = e'.1 ∧ e.2.1 = e'.2.1 ∧ e.2.2.id = e'.2.2.id ∧
    e.2.2.accountId = e'.2.2.accountId ∧ e.2.2.sequence = e'.2.2.sequence ∧
    e'.2.2.quantity.val ≤ e.2.2.quantity.val

theorem Shrinks.refl (es : List Entry) : Shrinks es es :=
  fun e he ↦ ⟨e, he, rfl, rfl, rfl, rfl, rfl, le_rfl⟩

theorem Shrinks.trans {es es' es'' : List Entry} (h : Shrinks es es') (h' : Shrinks es' es'') :
    Shrinks es es'' := by
  intro e'' he''
  obtain ⟨e', he', hside', hprice', hid', haccount', hsequence', hle'⟩ := h' e'' he''
  obtain ⟨e, he, hside, hprice, hid, haccount, hsequence, hle⟩ := h e' he'
  exact ⟨e, he, hside.trans hside', hprice.trans hprice', hid.trans hid', haccount.trans haccount',
    hsequence.trans hsequence', hle'.trans hle⟩

theorem Shrinks.of_exchanges {es es' : List Entry} {traded : Quantity}
    (h : Exchanges [(side, price, order)] (makerRest side price order traded) es es') : Shrinks es es' := by
  obtain ⟨others, hold, hnew⟩ := h
  intro e' he'
  rcases List.mem_append.mp (hnew.mem_iff.mp he') with he' | he'
  · unfold makerRest at he'
    split at he'
    · rw [List.mem_singleton.mp he']
      exact ⟨(side, price, order), hold.mem_iff.mpr List.mem_cons_self, rfl, rfl, rfl, rfl, rfl,
        Nat.sub_le _ _⟩
    · simp at he'
  · exact ⟨e', hold.mem_iff.mpr (List.mem_cons_of_mem _ he'), rfl, rfl, rfl, rfl, rfl, le_rfl⟩

/-- One fill against the head order of a side. -/
theorem Book.Restorable.consume (h : book.Restorable LEVELS ORDERS) {orders : List Order}
    (hside : book.side side = ⟨price, order :: orders⟩ :: levels) (traded : Quantity) :
    (book.setSide side (consume price order orders levels traded)).Restorable LEVELS ORDERS ∧
      Exchanges [(side, price, order)] (makerRest side price order traded) book.entries
        (book.setSide side (consume price order orders levels traded)).entries := by
  have hshaped : Shaped LEVELS ORDERS (descending side) ([] ++ ⟨price, [] ++ order :: orders⟩ :: levels) := by
    rw [List.nil_append, List.nil_append, ← hside]
    exact h.shaped side
  by_cases hpartly : traded.val < order.quantity.val
  · have hex : Exchanges [(side, price, order)]
        [(side, price, { order with quantity := Unsigned.monus order.quantity traded })] book.entries
        (book.setSide side (⟨price, { order with quantity := Unsigned.monus order.quantity traded } ::
          orders⟩ :: levels)).entries := by
      apply Exchanges.setSide
      rw [hside]
      exact exchanges_amend side [] levels price [] orders order _
    have hpos : 0 < (Unsigned.monus order.quantity traded).val := by
      rw [Unsigned.monus_val]
      omega
    rw [Logical.consume, if_pos hpartly, makerRest, if_pos hpartly]
    exact ⟨h.setSide (hshaped.amend _) (h.compatible.amend hpos hex), hex⟩
  · have hex : Exchanges [(side, price, order)] [] book.entries
        (book.setSide side (Level.kept ⟨price, orders⟩ ++ levels)).entries := by
      apply Exchanges.setSide
      rw [hside]
      exact exchanges_erase side [] levels price [] orders order
    rw [Logical.consume, if_neg hpartly, makerRest, if_neg hpartly]
    exact ⟨h.setSide hshaped.erase (h.compatible.erase hex), hex⟩

/-- The book after a walk: restorable, with fewer orders, and no longer trading at the limit unless
the taker is done. -/
theorem Matched.restorable {limit : PriceTicks} {remaining left : Quantity} {fills : List Fill}
    {rest : List Level} (hmatched : Matched side limit levels remaining fills rest left)
    (hside : book.side side.opposite = levels) (h : book.Restorable LEVELS ORDERS) :
    (book.setSide side.opposite rest).Restorable LEVELS ORDERS ∧
      Shrinks book.entries (book.setSide side.opposite rest).entries ∧
      (left.val = 0 ∨ (book.setSide side.opposite rest).wouldTrade side limit = false) := by
  induction hmatched generalizing book with
  | done levels remaining hstop =>
    have hself : book.setSide side.opposite levels = book := by rw [← hside, setSide_side]
    rw [hself]
    refine ⟨h, Shrinks.refl _, ?_⟩
    rcases hstop with hzero | hhead
    · exact .inl hzero
    · refine .inr ?_
      unfold Book.wouldTrade
      rw [hside]
      cases hlevel : levels.head? with
      | none => rfl
      | some level => exact hhead level hlevel
  | fill price order orders levels remaining traded fills rest left _ _ _ _ ih =>
    obtain ⟨hrestorable, hex⟩ := h.consume hside traded
    obtain ⟨hrest, hshrinks, hstop⟩ := ih (side_setSide ..) hrestorable
    rw [setSide_setSide] at hrest hshrinks hstop
    exact ⟨hrest, (Shrinks.of_exchanges hex).trans hshrinks, hstop⟩

/-- What an accepted order does to the book: a walk, and the remainder that rests. -/
structure Book.Submitted (LEVELS ORDERS : ℕ) (book : Book) (order : NewOrder) (summary : MatchSummary)
    (fills : List Fill) (book' : Book) : Prop where
  price_pos : 0 < order.price.val
  walk : ∃ rest left, Matched order.side order.price (book.side order.side.opposite) order.quantity fills
      rest left ∧
    left.val = summary.restingQuantity.val + summary.discardedQuantity.val ∧
    summary.filledQuantity.val + left.val = order.quantity.val ∧
    (summary.restingQuantity.val = 0 ∨ summary.discardedQuantity.val = 0) ∧
    (book.setSide order.side.opposite rest).Restorable LEVELS ORDERS ∧
    Shrinks book.entries (book.setSide order.side.opposite rest).entries ∧
    Exchanges [] (takerRest order summary.restingQuantity)
      (book.setSide order.side.opposite rest).entries book'.entries
  restorable : book'.Restorable LEVELS ORDERS
  instrument : book'.instrument = book.instrument

theorem Book.remainder_split {order : NewOrder} {remaining resting discarded : Quantity}
    (h : book.remainderOutcome LEVELS ORDERS order remaining = .ok (resting, discarded)) :
    resting.val = 0 ∨ discarded.val = 0 := by
  unfold Book.remainderOutcome at h
  split at h
  · split at h
    · simp at h
    · obtain ⟨rfl, rfl⟩ : (0 : Quantity) = resting ∧ (0 : Quantity) = discarded := by simpa using h
      exact .inl rfl
  · obtain ⟨rfl, rfl⟩ : (0 : Quantity) = resting ∧ remaining = discarded := by simpa using h
    exact .inl rfl
  all_goals
    split at h
    · split at h
      · simp at h
      · obtain ⟨rfl, rfl⟩ : remaining = resting ∧ (0 : Quantity) = discarded := by simpa using h
        exact .inr rfl
    · obtain ⟨rfl, rfl⟩ : (0 : Quantity) = resting ∧ (0 : Quantity) = discarded := by simpa using h
      exact .inl rfl

theorem Book.restingReject_setSide (book : Book) (side : Side) (levels : List Level) (price : PriceTicks) :
    (book.setSide side.opposite levels).restingReject LEVELS ORDERS side price =
      book.restingReject LEVELS ORDERS side price := by
  cases side <;> rfl

theorem Book.Restorable.submit (hO : 0 < ORDERS) (h : book.Restorable LEVELS ORDERS) {capacity : ℕ}
    {order : NewOrder} {summary : MatchSummary} {fills : List Fill} {book' : Book}
    (hok : book.submit LEVELS ORDERS capacity order = .ok (summary, fills, book'))
    (hpos : 0 < order.sequence.val)
    (hnew : ∀ entry ∈ book.entries, entry.2.2.sequence < order.sequence) :
    book.Submitted LEVELS ORDERS order summary fills book' := by
  unfold Book.submit at hok
  split at hok
  · simp at hok
  next hadmission =>
  obtain ⟨_, hprice, hquantity, hfind, _⟩ := admitted hadmission
  unfold Book.trade at hok
  simp only at hok
  split at hok
  · simp at hok
  split at hok
  · simp at hok
  next resting discarded houtcome =>
  have hmatched := matchLevels_matched order.side order.price (h.shaped order.side.opposite).nonempty
    order.quantity
  set walk := matchLevels order.side order.price (book.side order.side.opposite) order.quantity
  obtain ⟨hsum, hroom⟩ := remainderOutcome_ok houtcome
  have hzero := remainder_split houtcome
  have hleft := hmatched.left_le
  obtain ⟨hrestorable, hshrinks, hstop⟩ := hmatched.restorable rfl h
  obtain ⟨rfl, hpair⟩ := Prod.ext_iff.mp (Except.ok.inj hok)
  obtain ⟨rfl, rfl⟩ := Prod.ext_iff.mp hpair
  have hfilled : (matchSummary order resting discarded walk.1.length).filledQuantity.val +
      walk.2.2.val = order.quantity.val := by
    show order.quantity.val - resting.val - discarded.val + walk.2.2.val = _
    omega
  have hsettled : (book.settleWalk order walk.2.1 resting).Restorable LEVELS ORDERS ∧
      Exchanges [] (takerRest order resting) (book.setSide order.side.opposite walk.2.1).entries
        (book.settleWalk order walk.2.1 resting).entries := by
    unfold settleWalk takerRest
    by_cases hrests : 0 < resting.val
    · simp only [if_pos hrests]
      refine hrestorable.append hO ⟨?_, ?_, hprice, hrests, hpos, ?_, ?_⟩
      · rw [restingReject_setSide]
        exact hroom hrests
      · rcases hstop with hdone | hstop
        · omega
        · exact hstop
      · intro entry hentry
        obtain ⟨e, he, _, _, hid, _⟩ := hshrinks entry hentry
        rw [← hid]
        exact find_eq_none.mp hfind e he
      · intro entry hentry
        obtain ⟨e, he, _, _, _, _, hsequence, _⟩ := hshrinks entry hentry
        rw [← hsequence]
        exact hnew e he
    · simp only [if_neg hrests]
      exact ⟨hrestorable, _, List.Perm.refl _, List.Perm.refl _⟩
  have hinstrument : (book.settleWalk order walk.2.1 resting).instrument = book.instrument := by
    unfold settleWalk
    split
    · exact (setSide_instrument ..).trans (setSide_instrument ..)
    · exact setSide_instrument ..
  exact ⟨hprice, ⟨walk.2.1, walk.2.2, hmatched, hsum.symm, hfilled, hzero, hrestorable, hshrinks,
    hsettled.2⟩, hsettled.1, hinstrument⟩

end DeterministicExchange.Logical
