import DeterministicExchange.Book.Refinement
import DeterministicExchange.Machine.Atomic

/-!
# Resting, cancelling and replacing orders

The operations of a represented book, apart from matching, compute the logical
operations and keep the representation invariant. A rejected operation leaves
the stored book unchanged, field by field.
-/

namespace DeterministicExchange.Book

open Machine ProbeTable OrderIndex

variable {LEVELS ORDERS : ℕ} {book : OrderBook LEVELS ORDERS} {place : OrderId → U32} {views : Views}
  {side : Side} {pre post : List LevelView} {view : LevelView} {slot : ℕ} {order : Logical.Order}
  {xs ys : List (ℕ × Logical.Order)} {price : PriceTicks}

/-! ## Lookups -/

theorem BookRep.queueAt_of_mem (h : BookRep book place views) (hview : view ∈ views side) :
    Logical.queueAt view.price ((views side).map LevelView.toLevel) =
      some (view.nodes.map Prod.snd) := by
  have hmem : view.toLevel ∈ (views side).map LevelView.toLevel := List.mem_map.mpr ⟨view, hview, rfl⟩
  refine Logical.queueAt_of_mem hmem ?_
  intro l hl hprice
  obtain ⟨v, hv, rfl⟩ := List.mem_map.mp hl
  rw [(h.sides side).view_unique_price hv hview hprice]

theorem BookRep.queueAt_of_absent (hprice : ∀ v ∈ views side, v.price ≠ price) :
    Logical.queueAt price ((views side).map LevelView.toLevel) = none := by
  rw [Logical.queueAt_eq_none]
  intro l hl
  obtain ⟨v, hv, rfl⟩ := List.mem_map.mp hl
  exact hprice v hv

/-- A live order is found on its side, at its price. -/
theorem BookRep.find_of_mem (h : BookRep book place views) (hview : view ∈ views side)
    (hnode : (slot, order) ∈ view.nodes) (instrument : InstrumentId) :
    (Views.toBook instrument views).find order.id = some (side, view.price, order) := by
  have htarget : Live views ⟨side, view.handle, slot⟩ order := live_of_mem hview hnode
  have hfind : Logical.findOrder order.id ((views side).map LevelView.toLevel) =
      some (view.price, order) := by
    have hmem : view.toLevel ∈ (views side).map LevelView.toLevel :=
      List.mem_map.mpr ⟨view, hview, rfl⟩
    refine Logical.findOrder_of_mem hmem (List.mem_map.mpr ⟨_, hnode, rfl⟩) ?_
    intro l hl o ho hid
    obtain ⟨v, hv, rfl⟩ := List.mem_map.mp hl
    obtain ⟨node, hn, rfl⟩ := List.mem_map.mp ho
    obtain ⟨heq, horder⟩ := h.unique _ _ _ _ (live_of_mem hv hn) htarget hid
    obtain rfl := (h.sides side).view_unique hv hview (congrArg OrderLocation.levelIndex heq)
    exact ⟨rfl, horder⟩
  cases side with
  | buy =>
    unfold Logical.Book.find Views.toBook
    simp only [hfind]
    rfl
  | sell =>
    have hnone : Logical.findOrder order.id ((views .buy).map LevelView.toLevel) = none := by
      rw [Logical.findOrder_eq_none]
      intro l hl o ho hid
      obtain ⟨v, hv, rfl⟩ := List.mem_map.mp hl
      obtain ⟨node, hn, rfl⟩ := List.mem_map.mp ho
      obtain ⟨heq, _⟩ := h.unique _ _ _ _ (live_of_mem hv hn) htarget hid
      simp at heq
    unfold Logical.Book.find Views.toBook
    simp only [hfind, hnone]
    rfl

theorem find_of_absent {id : OrderId} (habsent : ∀ l x, Live views l x → x.id ≠ id)
    (instrument : InstrumentId) : (Views.toBook instrument views).find id = none := by
  have hnone (s : Side) : Logical.findOrder id ((views s).map LevelView.toLevel) = none := by
    rw [Logical.findOrder_eq_none]
    intro l hl o ho
    obtain ⟨v, hv, rfl⟩ := List.mem_map.mp hl
    obtain ⟨node, hn, rfl⟩ := List.mem_map.mp ho
    exact habsent _ _ (live_of_mem hv hn)
  unfold Logical.Book.find Views.toBook
  simp only [hnone]
  rfl

/-- An id is either absent or the id of a live order, split at its level and its node. -/
theorem live_or_absent (views : Views) (id : OrderId) :
    (∀ l x, Live views l x → x.id ≠ id) ∨
      ∃ side pre view post xs slot order ys, views side = pre ++ view :: post ∧
        view.nodes = xs ++ (slot, order) :: ys ∧ order.id = id := by
  by_cases h : ∃ l x, Live views l x ∧ x.id = id
  · obtain ⟨l, x, ⟨view, hview, _, hnode⟩, hid⟩ := h
    obtain ⟨pre, post, hviews⟩ := List.append_of_mem hview
    obtain ⟨xs, ys, hnodes⟩ := List.append_of_mem hnode
    exact .inr ⟨l.side, pre, view, post, xs, l.slot, x, ys, hviews, hnodes, hid⟩
  · refine .inl fun l x hlive hid ↦ h ⟨l, x, hlive, hid⟩

theorem BookRep.locate_of_mem (hcap : indexCapacity LEVELS ORDERS ≤ 2 ^ 32)
    (h : BookRep book place views) (hview : view ∈ views side) (hnode : (slot, order) ∈ view.nodes) :
    book.locate order.id = some (⟨side, view.handle, slot⟩, order.accountId) := by
  have hlocation := (h.index.location_eq_some (addressable hcap)).mpr ⟨order, live_of_mem hview hnode, rfl⟩
  obtain ⟨level, hget, hrep⟩ := (h.sides side).level view hview
  unfold OrderBook.locate
  simp only [hlocation, Option.bind_eq_bind, Option.bind_some, OrderBook.level?_of_get hget,
    hrep.getLive_of_mem hnode, stored_id, ne_eq, not_true_eq_false, if_false, stored_accountId]

theorem BookRep.location_of_absent (hcap : indexCapacity LEVELS ORDERS ≤ 2 ^ 32)
    (h : BookRep book place views) {id : OrderId} (habsent : ∀ l x, Live views l x → x.id ≠ id) :
    book.index.location id = none := by
  rw [Option.eq_none_iff_forall_not_mem]
  intro location hlocation
  obtain ⟨x, hlive, hid⟩ := (h.index.location_eq_some (addressable hcap)).mp hlocation
  exact habsent location x hlive hid

theorem BookRep.locate_of_absent (hcap : indexCapacity LEVELS ORDERS ≤ 2 ^ 32)
    (h : BookRep book place views) {id : OrderId} (habsent : ∀ l x, Live views l x → x.id ≠ id) :
    book.locate id = none := by
  unfold OrderBook.locate
  rw [h.location_of_absent hcap habsent]
  rfl

theorem BookRep.containsOrder_eq (hcap : indexCapacity LEVELS ORDERS ≤ 2 ^ 32)
    (h : BookRep book place views) (id : OrderId) (instrument : InstrumentId) :
    book.containsOrder id = ((Views.toBook instrument views).find id).isSome := by
  unfold OrderBook.containsOrder
  rcases live_or_absent views id with habsent | ⟨side, pre, view, post, xs, slot, order,
    ys, hviews, hnodes, rfl⟩
  · rw [h.location_of_absent hcap habsent, find_of_absent habsent]
    rfl
  · have hview : view ∈ views side := by simp [hviews]
    have hnode : (slot, order) ∈ view.nodes := by simp [hnodes]
    rw [(h.index.location_eq_some (addressable hcap)).mpr ⟨order, live_of_mem hview hnode, rfl⟩,
      h.find_of_mem hview hnode]
    rfl

/-! ## Resting an order -/

/-- Opening an empty level at an absent price. -/
theorem SidesRep.openLevel (h : SidesRep book place views) (hprice : ∀ v ∈ views side, v.price ≠ price)
    (hlen : (views side).length < LEVELS) :
    ∃ handle sorted pre post,
      (book.sideIndex side).insert price (descending side) = .ok (some (handle, sorted)) ∧
      Run.write (book.sideLevels side) handle (some (PriceLevel.new ORDERS price)) =
        .ok ((book.sideLevels side).setIfInBounds handle (some (PriceLevel.new ORDERS price))) ∧
      views side = pre ++ post ∧
      (∀ v ∈ pre, SortedIndex.before (descending side) v.price price = true) ∧
      (∀ v ∈ post, SortedIndex.before (descending side) price v.price = true) ∧
      SidesRep ((book.setSideIndex side sorted).setSideLevels side
        ((book.sideLevels side).setIfInBounds handle (some (PriceLevel.new ORDERS price)))) place
        (Function.update views side (pre ++ ⟨price, handle, [], List.range ORDERS⟩ :: post)) ∧
      ∀ l x, Live (Function.update views side
        (pre ++ ⟨price, handle, [], List.range ORDERS⟩ :: post)) l x ↔ Live views l x := by
  obtain ⟨handle, sorted, pre, post, hlt, hinsert, hviews, hpre, hpost, hside⟩ :=
    (h side).openLevel hprice hlen
  refine ⟨handle, sorted, pre, post, hinsert, Run.write_of_lt _ _ hlt, hviews, hpre, hpost, ?_, ?_⟩
  · intro s
    rw [OrderBook.sideLevels_setSideLevels, OrderBook.sideIndex_setSideLevels,
      OrderBook.sideLevels_setSideIndex, OrderBook.sideIndex_setSideIndex]
    by_cases hs : s = side
    · subst hs
      rw [if_pos rfl, if_pos rfl, Function.update_self]
      exact hside
    · rw [if_neg hs, if_neg hs, Function.update_of_ne hs]
      exact h s
  · intro l x
    rw [live_update]
    split
    · next hside =>
      unfold Live
      rw [hside, hviews]
      constructor
      · rintro ⟨v, hv, hhandle, hnode⟩
        refine ⟨v, ?_, hhandle, hnode⟩
        simp only [List.mem_append, List.mem_cons] at hv ⊢
        rcases hv with hv | rfl | hv
        · exact .inl hv
        · simp at hnode
        · exact .inr hv
      · rintro ⟨v, hv, hrest⟩
        refine ⟨v, ?_, hrest⟩
        simp only [List.mem_append, List.mem_cons] at hv ⊢
        tauto
    · rfl

/-- The level of a price with room for one more order, opened on demand. -/
theorem BookRep.acquireLevel (hO : 0 < ORDERS) (h : BookRep book place views) (instrument : InstrumentId)
    (hroom : (Views.toBook instrument views).restingReject LEVELS ORDERS side price = none)
    (order : Logical.Order) :
    ∃ book' views' pre view post, book.acquireLevel side price = .ok (view.handle, book') ∧
      book'.instrument = book.instrument ∧ book'.index = book.index ∧ SidesRep book' place views' ∧
      (∀ l x, Live views' l x ↔ Live views l x) ∧ (∀ s, s ≠ side → views' s = views s) ∧
      views' side = pre ++ view :: post ∧ view.price = price ∧ view.nodes.length < ORDERS ∧
      (∀ v ∈ pre ++ post, v.nodes ≠ []) ∧
      Logical.appendOrder (descending side) price order ((views side).map LevelView.toLevel) =
        pre.map LevelView.toLevel ++
          ⟨price, view.nodes.map Prod.snd ++ [order]⟩ :: post.map LevelView.toLevel := by
  unfold Logical.Book.restingReject at hroom
  rw [toBook_side] at hroom
  cases hfind : (book.sideIndex side).find price (descending side) with
  | some handle =>
    obtain ⟨view, hview, rfl, rfl⟩ := (h.sides side).find_eq_some.mp hfind
    obtain ⟨pre, post, hviews⟩ := List.append_of_mem hview
    rw [h.queueAt_of_mem hview] at hroom
    have hlen : view.nodes.length ≠ ORDERS := by simpa using hroom
    obtain ⟨level, _, hrep⟩ := (h.sides side).level view hview
    have hle := hrep.queue.queue.length_add
    rw [storedNodes_length] at hle
    have hsorted := (h.sides side).prices_sorted
    rw [hviews, List.pairwise_append] at hsorted
    refine ⟨book, views, pre, view, post, ?_, rfl, rfl, h.sides, fun _ _ ↦ Iff.rfl, fun _ _ ↦ rfl,
      hviews, rfl, by omega, ?_, ?_⟩
    · unfold OrderBook.acquireLevel
      rw [hfind]
    · intro v hv
      refine h.occupied side v ?_
      rw [hviews]
      simp only [List.mem_append, List.mem_cons] at hv ⊢
      tauto
    · rw [hviews, List.map_append, List.map_cons]
      refine Logical.appendOrder_of_price ?_
      intro l hl
      obtain ⟨v, hv, rfl⟩ := List.mem_map.mp hl
      exact hsorted.2.2 v hv view (by simp)
  | none =>
    have hprice := (h.sides side).find_eq_none.mp hfind
    rw [BookRep.queueAt_of_absent hprice] at hroom
    have hlen : (views side).length ≠ LEVELS := by simpa using hroom
    have hle := (h.sides side).length_le
    obtain ⟨handle, sorted, pre, post, hinsert, hwrite, hviews, hpre, hpost, hsides, hlive⟩ :=
      h.sides.openLevel hprice (by omega)
    refine ⟨_, _, pre, ⟨price, handle, [], List.range ORDERS⟩, post, ?_, by simp, by simp, hsides,
      hlive, ?_, Function.update_self .., rfl, hO, ?_, ?_⟩
    · unfold OrderBook.acquireLevel
      simp only [hfind, hinsert, Run.ok_bind, Run.expect_some, hwrite]
      rfl
    · exact fun s hs ↦ Function.update_of_ne hs _ _
    · intro v hv
      exact h.occupied side v (by rw [hviews]; exact hv)
    · rw [hviews, List.map_append]
      refine Logical.appendOrder_of_absent ?_ ?_
      · intro l hl
        obtain ⟨v, hv, rfl⟩ := List.mem_map.mp hl
        exact hpre v hv
      · intro l hl
        obtain ⟨v, hv, rfl⟩ := List.mem_map.mp hl
        exact hpost v hv

/-- Appending one order to the views appends it to the live orders. -/
theorem live_append (slot : ℕ) (order : Logical.Order) (free : List ℕ)
    (hviews : views side = pre ++ view :: post) (l : OrderLocation) (x : Logical.Order) :
    Live (Function.update views side (pre ++
      ⟨view.price, view.handle, view.nodes ++ [(slot, order)], free⟩ :: post)) l x ↔
      Live views l x ∨ l = ⟨side, view.handle, slot⟩ ∧ x = order := by
  rw [live_update]
  unfold Live
  split
  · next hside =>
    rw [hside, hviews]
    constructor
    · rintro ⟨v, hv, hhandle, hnode⟩
      simp only [List.mem_append, List.mem_cons] at hv
      rcases hv with hv | rfl | hv
      · exact .inl ⟨v, by simp [hv], hhandle, hnode⟩
      · simp only [List.mem_append, List.mem_singleton, Prod.mk.injEq] at hnode
        rcases hnode with hnode | ⟨hslot, rfl⟩
        · exact .inl ⟨view, by simp, hhandle, hnode⟩
        · refine .inr ⟨?_, rfl⟩
          obtain ⟨s, i, j⟩ := l
          simp_all
      · exact .inl ⟨v, by simp [hv], hhandle, hnode⟩
    · rintro (⟨v, hv, hhandle, hnode⟩ | ⟨rfl, rfl⟩)
      · by_cases hvv : v = view
        · subst hvv
          exact ⟨⟨v.price, v.handle, v.nodes ++ [(slot, order)], free⟩,
            List.mem_append_right _ List.mem_cons_self, hhandle, List.mem_append_left _ hnode⟩
        · refine ⟨v, ?_, hhandle, hnode⟩
          simp only [List.mem_append, List.mem_cons] at hv ⊢
          tauto
      · exact ⟨⟨view.price, view.handle, view.nodes ++ [(slot, x)], free⟩,
          List.mem_append_right _ List.mem_cons_self, rfl, by simp⟩
  · next hside =>
    constructor
    · exact .inl
    · rintro (hl | ⟨rfl, _⟩)
      · exact hl
      · exact absurd rfl hside

theorem stored_update (place : OrderId → U32) (order : Logical.Order) (indexSlot : U32) :
    stored (Function.update place order.id indexSlot) order =
      ⟨order.id, order.accountId, indexSlot, order.quantity, order.sequence⟩ := by
  simp [stored]

/-- Appending a new order to a level with room: the queue, the index and the stored handle. Only
the index can refuse it, at a position beyond 32 bits. -/
theorem SidesRep.appendNode_builds (hcap : indexCapacity LEVELS ORDERS ≤ 2 ^ 63)
    (hsides : SidesRep book place views) (hindex : IndexRep place book.index (Live views))
    (hviews : views side = pre ++ view :: post) (hlen : view.nodes.length < ORDERS)
    (hpos : 0 < order.quantity.val) (habsent : ∀ l x, Live views l x → x.id ≠ order.id) :
    ∃ level slot free level',
      (book.sideLevels side)[view.handle]? = some (some level) ∧
      level.pushTail ⟨order.id, order.accountId, 0, order.quantity, order.sequence⟩ =
        .ok (some (slot, level')) ∧
      ((∃ reason, book.index.insert order.id ⟨side, view.handle, slot⟩ = .error reason ∧
          2 ^ 32 < indexCapacity LEVELS ORDERS) ∨
        ∃ indexSlot index' place',
          book.index.insert order.id ⟨side, view.handle, slot⟩ = .ok (indexSlot, index') ∧
          level'.getLive slot =
            some ⟨order.id, order.accountId, 0, order.quantity, order.sequence⟩ ∧
          SidesRep (book.putLevel side view.handle (some (level'.setIndexSlot slot
            ⟨order.id, order.accountId, 0, order.quantity, order.sequence⟩ indexSlot))) place'
            (Function.update views side (pre ++
              ⟨view.price, view.handle, view.nodes ++ [(slot, order)], free⟩ :: post)) ∧
          IndexRep place' index' (Live (Function.update views side (pre ++
            ⟨view.price, view.handle, view.nodes ++ [(slot, order)], free⟩ :: post)))) := by
  have hview : view ∈ views side := by simp [hviews]
  have hsides₀ : SidesRep book (Function.update place order.id 0) views := by
    refine hsides.congr fun l x hl ↦ ?_
    rw [Function.update_of_ne (habsent l x hl)]
  obtain ⟨level, hget, hrep⟩ := (hsides₀ side).level view hview
  have hlength := hrep.queue.queue.length_add
  rw [storedNodes_length] at hlength
  obtain ⟨slot, free, hfree⟩ := List.exists_cons_of_length_pos (by omega : 0 < view.free.length)
  have hlevels : 0 < LEVELS := (Nat.zero_le _).trans_lt ((hsides side).handle_lt hview)
  have hqueue := hrep.queue
  rw [hfree] at hqueue
  have hpositive : 0 < (⟨order.id, order.accountId, 0, order.quantity, order.sequence⟩ :
      RestingOrder).quantity.val := hpos
  obtain ⟨level', hpush, hprice, hqueue'⟩ := hqueue.pushTail (BookRep.orders_le hcap hlevels) hpositive
  have hfresh (x : Logical.Order) : ¬ Live views ⟨side, view.handle, slot⟩ x := by
    rintro ⟨v, hv, hhandle, hnode⟩
    obtain rfl := (hsides side).view_unique hv hview hhandle
    have hmem : slot ∈ (storedNodes (Function.update place order.id 0) v.nodes).map Prod.fst :=
      List.mem_map.mpr ⟨(slot, _), mem_storedNodes.mpr ⟨x, hnode, rfl⟩, rfl⟩
    exact (List.disjoint_of_nodup_append hqueue.queue.nodup) hmem (by simp)
  have hnew := List.mem_append_right (storedNodes (Function.update place order.id 0) view.nodes)
    (List.mem_singleton.mpr rfl : (slot, (⟨order.id, order.accountId, 0, order.quantity,
      order.sequence⟩ : RestingOrder)) ∈ [(slot, _)])
  have hrange : InRange LEVELS ORDERS ⟨side, view.handle, slot⟩ :=
    ⟨(hsides side).handle_lt hview, hqueue'.slot_lt hnew⟩
  refine ⟨level, slot, free, level', hget, hpush, ?_⟩
  obtain hrefused | ⟨indexSlot, index', hinsert, hindex'⟩ :=
    hindex.insert_builds hcap hrange habsent hfresh
  · exact .inl hrefused
  have hother : ∀ l x, Live views l x →
      Function.update place order.id 0 x.id = Function.update place order.id indexSlot x.id := by
    intro l x hl
    rw [Function.update_of_ne (habsent l x hl), Function.update_of_ne (habsent l x hl)]
  have hnodes : ∀ node ∈ view.nodes, Function.update place order.id 0 node.2.id =
      Function.update place order.id indexSlot node.2.id := fun node hnode ↦
    hother _ _ (live_of_mem hview hnode)
  have hrep' : LevelRep (Function.update place order.id indexSlot)
      (level'.setIndexSlot slot ⟨order.id, order.accountId, 0, order.quantity, order.sequence⟩ indexSlot)
      ⟨view.price, view.handle, view.nodes ++ [(slot, order)], free⟩ := by
    refine ⟨hprice.trans hrep.price, ?_⟩
    rw [storedNodes_append, storedNodes_cons, storedNodes_nil, ← storedNodes_congr hnodes,
      stored_update]
    exact hqueue'.setIndexSlot indexSlot
  refine .inr ⟨indexSlot, index', _, hinsert, hqueue'.getLive_eq_some.mpr hnew,
    hsides₀.putLevel hviews (by rfl) (by rfl) hrep' ?_,
    hindex'.congr (live_append slot order free hviews)⟩
  intro l x hl
  refine hother l x ?_
  rw [live_update] at hl
  split at hl
  · next hside =>
    obtain ⟨v, hv, hrest⟩ := hl
    refine ⟨v, ?_, hrest⟩
    rw [hside, hviews]
    simp only [List.mem_append, List.mem_cons] at hv ⊢
    tauto
  · exact hl

theorem SidesRep.appendNode (hcap : indexCapacity LEVELS ORDERS ≤ 2 ^ 32)
    (hsides : SidesRep book place views) (hindex : IndexRep place book.index (Live views))
    (hviews : views side = pre ++ view :: post) (hlen : view.nodes.length < ORDERS)
    (hpos : 0 < order.quantity.val) (habsent : ∀ l x, Live views l x → x.id ≠ order.id) :
    ∃ level slot free level' indexSlot index' place',
      (book.sideLevels side)[view.handle]? = some (some level) ∧
      level.pushTail ⟨order.id, order.accountId, 0, order.quantity, order.sequence⟩ =
        .ok (some (slot, level')) ∧
      book.index.insert order.id ⟨side, view.handle, slot⟩ = .ok (indexSlot, index') ∧
      level'.getLive slot =
        some ⟨order.id, order.accountId, 0, order.quantity, order.sequence⟩ ∧
      SidesRep (book.putLevel side view.handle (some (level'.setIndexSlot slot
        ⟨order.id, order.accountId, 0, order.quantity, order.sequence⟩ indexSlot))) place'
        (Function.update views side (pre ++
          ⟨view.price, view.handle, view.nodes ++ [(slot, order)], free⟩ :: post)) ∧
      IndexRep place' index' (Live (Function.update views side (pre ++
        ⟨view.price, view.handle, view.nodes ++ [(slot, order)], free⟩ :: post))) := by
  obtain ⟨level, slot, free, level', hget, hpush, hindexed⟩ :=
    hsides.appendNode_builds (addressable hcap) hindex hviews hlen hpos habsent
  obtain ⟨indexSlot, index', place', happended⟩ :=
    hindexed.resolve_left fun ⟨_, _, hlarge⟩ ↦ hlarge.not_ge hcap
  exact ⟨level, slot, free, level', indexSlot, index', place', hget, hpush, happended⟩

/-- Resting an order with a new id where there is room for it. -/
theorem BookRep.restAtTail (hO : 0 < ORDERS) (hcap : indexCapacity LEVELS ORDERS ≤ 2 ^ 32)
    (h : BookRep book place views) (instrument : InstrumentId)
    (hroom : (Views.toBook instrument views).restingReject LEVELS ORDERS side price = none)
    (hpos : 0 < order.quantity.val) (habsent : ∀ l x, Live views l x → x.id ≠ order.id) :
    ∃ book' place' views', book.restAtTail side price
        ⟨order.id, order.accountId, 0, order.quantity, order.sequence⟩ = .ok book' ∧
      book'.instrument = book.instrument ∧ BookRep book' place' views' ∧
      Views.toBook instrument views' = (Views.toBook instrument views).append side price order := by
  obtain ⟨book₁, views₁, pre, view, post, hacquire, hinstrument, hindex, hsides, hlive, hsame, hviews,
    hprice, hlen, hne, happend⟩ := h.acquireLevel hO instrument hroom order
  have hindex₁ : IndexRep place book₁.index (Live views₁) := by
    rw [hindex]
    exact h.index.congr hlive
  obtain ⟨level, slot, free, level', indexSlot, index', place', hget, hpush, hinsert, hlive', hsides',
    hindex'⟩ := hsides.appendNode hcap hindex₁ hviews hlen hpos fun l x hl ↦
      habsent l x ((hlive l x).mp hl)
  refine ⟨_, place', _, ?_, ?_, ⟨hsides'.with_index index', ?_, hindex'⟩, ?_⟩
  · unfold OrderBook.restAtTail
    simp only [hacquire, Run.ok_bind, OrderBook.expectLevel_of_get hget, hpush, Run.expect_some,
      hinsert, Except.toOption, hlive']
    rfl
  · simpa using hinstrument
  · intro s v hv
    by_cases hs : s = side
    · subst hs
      rw [Function.update_self] at hv
      simp only [List.mem_append, List.mem_cons] at hv
      rcases hv with hv | rfl | hv
      · exact hne v (by simp [hv])
      · simp
      · exact hne v (by simp [hv])
    · rw [Function.update_of_ne hs, hsame s hs] at hv
      exact h.occupied s v hv
  · have hside : (Function.update views₁ side (pre ++
        ⟨view.price, view.handle, view.nodes ++ [(slot, order)], free⟩ :: post)) =
        Function.update views side (pre ++
          ⟨view.price, view.handle, view.nodes ++ [(slot, order)], free⟩ :: post) := by
      funext s
      by_cases hs : s = side
      · subst hs
        simp
      · rw [Function.update_of_ne hs, Function.update_of_ne hs, hsame s hs]
    rw [hside, toBook_update, Logical.Book.append, toBook_side, happend]
    congr 1
    simp [LevelView.toLevel, hprice]

/-! ## Cancelling -/

theorem OrderBook.Represents.cancel (hcap : indexCapacity LEVELS ORDERS ≤ 2 ^ 32)
    {logical : Logical.Book} (h : book.Represents logical) (cancel : CancelOrder) :
    Implements OrderBook.Represents book (logical.cancel cancel) (book.cancel cancel) := by
  obtain ⟨place, views, h, rfl⟩ := h
  unfold OrderBook.cancel Logical.Book.cancel Logical.Book.owned
  by_cases hinstrument : cancel.instrumentId = book.instrument
  swap
  · simp only [toBook_instrument, ne_eq, hinstrument, not_false_eq_true, if_true]
    exact .reject rfl rfl
  simp only [toBook_instrument, ne_eq, hinstrument, not_true_eq_false, if_false]
  rcases live_or_absent views cancel.orderId with
    habsent | ⟨side, pre, view, post, xs, slot, order, ys, hviews, hnodes, hid⟩
  · simp only [h.locate_of_absent hcap habsent, find_of_absent habsent]
    exact .reject rfl rfl
  have hview : view ∈ views side := by simp [hviews]
  have hnode : (slot, order) ∈ view.nodes := by simp [hnodes]
  simp only [← hid, h.locate_of_mem hcap hview hnode, h.find_of_mem hview hnode]
  by_cases howner : order.accountId = cancel.accountId
  swap
  · simp only [howner, not_false_eq_true, if_true]
    exact .reject rfl rfl
  obtain ⟨book₁, book₂, place₂, hunlink, hremove, hinstrument₂, hrep⟩ := h.detach hcap hviews hnodes
    "indexed level is occupied" "indexed slot is live"
  simp only [howner, not_true_eq_false, if_false, hunlink, Run.ok_bind, stored_id, decide_true,
    Run.debugAssert_true, stored_indexSlot, hremove, stored_accountId, stored_quantity]
  refine .accept _ rfl rfl ⟨place₂, _, hrep, ?_⟩
  rw [hinstrument₂, h.toBook_erase hviews hnodes]

/-! ## Replacing -/

/-- Amending one order of the views amends it among the live orders. -/
theorem live_amend (hviews : views side = pre ++ view :: post)
    (hhandles : ((views side).map LevelView.handle).Nodup) (hslots : (view.nodes.map Prod.fst).Nodup)
    (hnodes : view.nodes = xs ++ (slot, order) :: ys) (quantity : Quantity) (l : OrderLocation)
    (y : Logical.Order) :
    Live (Function.update views side (pre ++ ⟨view.price, view.handle,
      xs ++ (slot, { order with quantity }) :: ys, view.free⟩ :: post)) l y ↔
      ∃ x, Live views l x ∧
        y = if l = ⟨side, view.handle, slot⟩ then { x with quantity } else x := by
  have hview : view ∈ views side := by simp [hviews]
  rw [hviews, List.map_append, List.map_cons] at hhandles
  have hhandles := (List.nodup_cons.mp (List.nodup_middle.mp hhandles)).1
  rw [hnodes, List.map_append, List.map_cons] at hslots
  have hslots := (List.nodup_cons.mp (List.nodup_middle.mp hslots)).1
  rw [← List.map_append] at hhandles hslots
  rw [live_update]
  split
  · next hside =>
    constructor
    · rintro ⟨v, hv, hhandle, hnode⟩
      have hother (hv' : v ∈ pre ++ post) : ∃ x, Live views l x ∧
          y = if l = ⟨side, view.handle, slot⟩ then { x with quantity } else x := by
        refine ⟨y, ⟨v, ?_, hhandle, hnode⟩, (if_neg ?_).symm⟩
        · rw [hside, hviews]
          simp only [List.mem_append, List.mem_cons] at hv' ⊢
          tauto
        · rintro rfl
          exact hhandles (List.mem_map.mpr ⟨v, hv', hhandle⟩)
      simp only [List.mem_append, List.mem_cons] at hv
      rcases hv with hv | rfl | hv
      · exact hother (List.mem_append_left _ hv)
      · simp only [List.mem_append, List.mem_cons, Prod.mk.injEq] at hnode
        have hkept (hmem : (l.slot, y) ∈ xs ++ ys) : ∃ x, Live views l x ∧
            y = if l = ⟨side, view.handle, slot⟩ then { x with quantity } else x := by
          refine ⟨y, ⟨view, hside ▸ hview, hhandle, ?_⟩, (if_neg ?_).symm⟩
          · rw [hnodes]
            simp only [List.mem_append, List.mem_cons] at hmem ⊢
            tauto
          · rintro rfl
            exact hslots (List.mem_map.mpr ⟨_, hmem, rfl⟩)
        rcases hnode with hnode | ⟨hslot, rfl⟩ | hnode
        · exact hkept (List.mem_append_left _ hnode)
        · refine ⟨order, ⟨view, hside ▸ hview, hhandle, by simp [hnodes, hslot]⟩, (if_pos ?_).symm⟩
          obtain ⟨s, i, j⟩ := l
          simp_all
        · exact hkept (List.mem_append_right _ hnode)
      · exact hother (List.mem_append_right _ hv)
    · rintro ⟨x, ⟨v, hv, hhandle, hnode⟩, rfl⟩
      rw [hside, hviews] at hv
      by_cases hv' : v = view
      · subst hv'
        rw [hnodes] at hnode
        simp only [List.mem_append, List.mem_cons, Prod.mk.injEq] at hnode
        refine ⟨_, List.mem_append_right _ List.mem_cons_self, hhandle, ?_⟩
        simp only [List.mem_append, List.mem_cons, Prod.mk.injEq]
        have hkept (hmem : (l.slot, x) ∈ xs ++ ys) : l ≠ ⟨side, v.handle, slot⟩ := by
          rintro rfl
          exact hslots (List.mem_map.mpr ⟨_, hmem, rfl⟩)
        rcases hnode with hnode | ⟨hslot, rfl⟩ | hnode
        · rw [if_neg (hkept (List.mem_append_left _ hnode))]
          exact .inl hnode
        · refine .inr (.inl ⟨hslot, if_pos ?_⟩)
          obtain ⟨s, i, j⟩ := l
          simp_all
        · rw [if_neg (hkept (List.mem_append_right _ hnode))]
          exact .inr (.inr hnode)
      · have hmem : v ∈ pre ++ post := by
          simp only [List.mem_append, List.mem_cons] at hv ⊢
          tauto
        rw [if_neg]
        · refine ⟨v, ?_, hhandle, hnode⟩
          simp only [List.mem_append, List.mem_cons] at hmem ⊢
          tauto
        · rintro rfl
          exact hhandles (List.mem_map.mpr ⟨v, hmem, hhandle⟩)
  · next hside =>
    have hne : l ≠ ⟨side, view.handle, slot⟩ := by
      rintro rfl
      exact hside rfl
    simp [hne]

/-- A stored book whose level was reduced in place. -/
theorem BookRep.reduceQuantity (h : BookRep book place views) (hviews : views side = pre ++ view :: post)
    (hnodes : view.nodes = xs ++ (slot, order) :: ys) {quantity : Quantity}
    (hlt : quantity.val < order.quantity.val) {level : PriceLevel ORDERS}
    (hget : (book.sideLevels side)[view.handle]? = some (some level)) (hrep : LevelRep place level view) :
    ∃ level', level.reduceQuantity slot quantity = .ok (some level') ∧
      BookRep (book.putLevel side view.handle (some level')) place (Function.update views side (pre ++
        ⟨view.price, view.handle,
          xs ++ (slot, { order with quantity := Unsigned.monus order.quantity quantity }) :: ys,
          view.free⟩ :: post)) := by
  have hqueue := hrep.queue
  rw [hnodes, storedNodes_append, storedNodes_cons] at hqueue
  obtain ⟨level', hreduce, hprice, hqueue'⟩ := hqueue.reduceQuantity hlt
  have hrep' : LevelRep place level' ⟨view.price, view.handle,
      xs ++ (slot, { order with quantity := Unsigned.monus order.quantity quantity }) :: ys,
      view.free⟩ := by
    refine ⟨hprice.trans hrep.price, ?_⟩
    rw [storedNodes_append, storedNodes_cons]
    exact hqueue'
  have hput := h.sides.putLevel hviews (by rfl) (by rfl) hrep' fun _ _ _ ↦ rfl
  refine ⟨level', hreduce, hput, ?_, ?_⟩
  · intro s v hv
    by_cases hs : s = side
    · subst hs
      rw [Function.update_self] at hv
      simp only [List.mem_append, List.mem_cons] at hv
      rcases hv with hv | rfl | hv
      · exact h.occupied s v (by simp [hviews, hv])
      · simp
      · exact h.occupied s v (by simp [hviews, hv])
    · rw [Function.update_of_ne hs] at hv
      exact h.occupied s v hv
  · rw [OrderBook.index_putLevel]
    refine h.index.amend _ ?_ (live_amend hviews (h.sides side).handles_nodup hrep.slots_nodup hnodes _)
    intro l x
    split <;> rfl

/-- The logical book after an order was reduced in place. -/
theorem BookRep.toBook_amend (h : BookRep book place views) (hviews : views side = pre ++ view :: post)
    (hnodes : view.nodes = xs ++ (slot, order) :: ys) (quantity : Quantity) (instrument : InstrumentId) :
    Views.toBook instrument (Function.update views side (pre ++ ⟨view.price, view.handle,
        xs ++ (slot, { order with quantity }) :: ys, view.free⟩ :: post)) =
      (Views.toBook instrument views).setSide side
        (Logical.amendOrder order.id quantity ((Views.toBook instrument views).side side)) := by
  obtain ⟨hxs, hother⟩ := h.ids_ne hviews hnodes
  rw [List.map_append] at hxs hother
  have hamend : Logical.amendOrder order.id quantity (pre.map LevelView.toLevel ++
      ⟨view.price, xs.map Prod.snd ++ order :: ys.map Prod.snd⟩ :: post.map LevelView.toLevel) = _ :=
    Logical.amendOrder_split quantity hxs hother
  rw [toBook_update, toBook_side, hviews]
  congr 1
  rw [List.map_append, List.map_cons, List.map_append, List.map_cons]
  simp only [LevelView.toLevel, hnodes, List.map_append, List.map_cons] at hamend ⊢
  exact hamend.symm

theorem BookRep.bestCrosses (h : BookRep book place views) (side : Side) (limit : PriceTicks)
    (instrument : InstrumentId) :
    ((book.sideIndex side.opposite).entries.head?.any fun best ↦ crosses side limit best.1) =
      (Views.toBook instrument views).wouldTrade side limit := by
  unfold Logical.Book.wouldTrade
  rw [toBook_side, (h.sides side.opposite).entries, List.head?_map, List.head?_map]
  cases (views side.opposite).head? <;> rfl

theorem BookRep.replacePreflight (h : BookRep book place views) (hview : view ∈ views side) (slot : ℕ)
    (replace : ReplaceOrder) (instrument : InstrumentId) :
    book.replacePreflight replace ⟨side, view.handle, slot⟩ view.price =
      .ok (match (Views.toBook instrument views).moveReject LEVELS ORDERS side view.price
          replace.price with
        | some reason => .error reason
        | none => .ok ()) := by
  unfold OrderBook.replacePreflight Logical.Book.moveReject
  simp only [h.bestCrosses side replace.price instrument]
  by_cases hcross : replace.price ≠ view.price ∧
      (Views.toBook instrument views).wouldTrade side replace.price = true
  · rw [if_pos hcross, if_pos hcross]
  rw [if_neg hcross, if_neg hcross, toBook_side]
  cases hfind : (book.sideIndex side).find replace.price (descending side) with
  | some handle =>
    obtain ⟨view', hview', hprice, rfl⟩ := (h.sides side).find_eq_some.mp hfind
    obtain ⟨level, hget, hrep⟩ := (h.sides side).level view' hview'
    have hqueue := h.queueAt_of_mem hview'
    rw [hprice] at hqueue
    have hsame : view'.handle = view.handle ∧ replace.price = view.price ↔
        replace.price = view.price := by
      refine ⟨fun heq ↦ heq.2, fun heq ↦ ⟨?_, heq⟩⟩
      rw [(h.sides side).view_unique_price hview' hview (hprice.trans heq)]
    simp only [OrderBook.expectLevel_of_get hget, Run.ok_bind, hqueue, hrep.len_eq, hsame,
      List.length_map]
    by_cases hfull : view'.nodes.length = ORDERS ∧ ¬ replace.price = view.price
    · rw [if_pos hfull, if_pos hfull]
      rfl
    · rw [if_neg hfull, if_neg hfull]
      rfl
  | none =>
    have hprice := (h.sides side).find_eq_none.mp hfind
    obtain ⟨level, hget, hrep⟩ := (h.sides side).level view hview
    have hlen := (h.sides side).length_le
    have hentries : (book.sideIndex side).entries.length = (views side).length := by
      rw [(h.sides side).entries, List.length_map]
    simp only [OrderBook.expectLevel_of_get hget, Run.ok_bind, hentries, Run.sub_of_le hlen,
      BookRep.queueAt_of_absent hprice, h.queueAt_of_mem hview, hrep.len_eq, List.length_map,
      Option.all_some]
    by_cases hfull : (views side).length = LEVELS ∧ view.nodes.length ≠ 1
    · rw [if_pos (by omega), if_pos (by simpa using hfull)]
      rfl
    · rw [if_neg (by omega), if_neg (by simpa using hfull)]
      rfl

/-- The stored levels of a side fit it. -/
theorem BookRep.fits (h : BookRep book place views) (side : Side) (instrument : InstrumentId) :
    Logical.Fits LEVELS ORDERS (descending side) ((Views.toBook instrument views).side side) := by
  rw [toBook_side]
  refine ⟨?_, ?_, ?_⟩
  · intro level hlevel
    obtain ⟨view, hview, rfl⟩ := List.mem_map.mp hlevel
    obtain ⟨_, _, hrep⟩ := (h.sides side).level view hview
    have hroom := hrep.queue.queue.length_add
    rw [storedNodes_length] at hroom
    rw [toLevel_orders, List.length_map]
    omega
  · rw [List.length_map]
    exact (h.sides side).length_le
  · rw [List.pairwise_map]
    exact (h.sides side).prices_sorted

/-- A permitted move finds room once the order has left its old place. -/
theorem BookRep.restingReject_erase (h : BookRep book place views) (hviews : views side = pre ++ view :: post)
    (hnodes : view.nodes = xs ++ (slot, order) :: ys) (instrument : InstrumentId) (free : List ℕ)
    (hmove : (Views.toBook instrument views).moveReject LEVELS ORDERS side view.price price = none) :
    (Views.toBook instrument (Function.update views side
      (pre ++ (LevelView.kept ⟨view.price, view.handle, xs ++ ys, free⟩ ++ post)))).restingReject
        LEVELS ORDERS side price = none := by
  have hside : (Views.toBook instrument views).side side = pre.map LevelView.toLevel ++
      ⟨view.price, xs.map Prod.snd ++ order :: ys.map Prod.snd⟩ :: post.map LevelView.toLevel := by
    rw [toBook_side, hviews, List.map_append, List.map_cons, LevelView.toLevel, hnodes, List.map_append,
      List.map_cons]
  have hroom := Logical.Book.restingReject_of_moveReject hside (h.fits side instrument) hmove
  rw [toBook_update, List.map_append, List.map_append, kept_map_toLevel]
  rw [← List.map_append] at hroom
  exact hroom


theorem OrderBook.Represents.replace (hO : 0 < ORDERS) (hcap : indexCapacity LEVELS ORDERS ≤ 2 ^ 32)
    {logical : Logical.Book} (h : book.Represents logical) (replace : ReplaceOrder) :
    Implements OrderBook.Represents book (logical.replace LEVELS ORDERS replace)
      (book.replace replace) := by
  obtain ⟨place, views, h, rfl⟩ := h
  unfold OrderBook.replace Logical.Book.replace Logical.Book.owned
  by_cases hinstrument : replace.instrumentId = book.instrument
  swap
  · simp only [toBook_instrument, ne_eq, hinstrument, not_false_eq_true, if_true]
    exact .reject rfl rfl
  simp only [toBook_instrument, ne_eq, hinstrument, not_true_eq_false, if_false]
  rcases live_or_absent views replace.orderId with
    habsent | ⟨side, pre, view, post, xs, slot, order, ys, hviews, hnodes, hid⟩
  · simp only [h.locate_of_absent hcap habsent, find_of_absent habsent]
    exact .reject rfl rfl
  have hview : view ∈ views side := by simp [hviews]
  have hnode : (slot, order) ∈ view.nodes := by simp [hnodes]
  obtain ⟨level, hget, hrep⟩ := (h.sides side).level view hview
  simp only [← hid, h.locate_of_mem hcap hview hnode, h.find_of_mem hview hnode]
  by_cases howner : order.accountId = replace.accountId
  swap
  · simp only [howner, not_false_eq_true, if_true]
    exact .reject rfl rfl
  simp only [howner, not_true_eq_false, if_false]
  by_cases hprice : replace.price.val ≤ 0
  · simp only [hprice, if_true]
    exact .reject rfl rfl
  by_cases hquantity : replace.quantity.val = 0
  · simp only [hprice, hquantity, if_false, if_true]
    exact .reject rfl rfl
  simp only [hprice, hquantity, if_false, OrderBook.expectLevel_of_get hget, Run.ok_bind,
    hrep.getLive_of_mem hnode, Run.expect_some, hrep.price, stored_quantity]
  by_cases hkeep : replace.price = view.price ∧ replace.quantity.val < order.quantity.val
  · simp only [if_pos hkeep, Run.subWord_of_le hkeep.2.le, Run.ok_bind]
    have hlt : (Unsigned.monus order.quantity replace.quantity).val < order.quantity.val := by
      simp only [Unsigned.monus_val]
      omega
    obtain ⟨level', hreduce, hrep'⟩ := h.reduceQuantity hviews hnodes hlt hget hrep
    have hleft : Unsigned.monus order.quantity (Unsigned.monus order.quantity replace.quantity) =
        replace.quantity := by
      apply Fin.ext
      simp only [Unsigned.monus_val]
      omega
    simp only [hreduce, Run.ok_bind, Run.expect_some]
    refine .accept _ rfl rfl ⟨place, _, hrep', ?_⟩
    rw [OrderBook.instrument_putLevel, hleft, h.toBook_amend hviews hnodes]
  · simp only [if_neg hkeep, h.replacePreflight hview slot replace book.instrument, Run.ok_bind]
    cases hmove : (Views.toBook book.instrument views).moveReject LEVELS ORDERS side view.price
        replace.price with
    | some reason => exact .reject rfl rfl
    | none =>
      obtain ⟨book₁, book₂, place₂, hunlink, hremove, hinstrument₂, hrep₂⟩ := h.detach hcap hviews hnodes
        "indexed level is occupied" "indexed slot is live"
      have hroom := h.restingReject_erase hviews hnodes book.instrument (slot :: view.free) hmove
      have hlive := live_erase h.unique (slot :: view.free) hviews (h.sides side).handles_nodup
        (h.slots_nodup hview) hnodes
      have hpos : 0 < (⟨order.id, replace.accountId, replace.quantity, replace.sequence⟩ :
          Logical.Order).quantity.val := Nat.pos_of_ne_zero hquantity
      obtain ⟨book₃, place₃, views₃, hrest, hinstrument₃, hrep₃, htoBook⟩ :=
        hrep₂.restAtTail hO hcap book.instrument hroom hpos fun l x hl ↦ ((hlive l x).mp hl).2
      simp only [hunlink, Run.ok_bind, stored_id, decide_true, Run.debugAssert_true,
        stored_indexSlot, hremove, hrest]
      refine .accept _ rfl rfl ⟨place₃, views₃, hrep₃, ?_⟩
      rw [hinstrument₃, hinstrument₂, htoBook, h.toBook_erase hviews hnodes]

end DeterministicExchange.Book
