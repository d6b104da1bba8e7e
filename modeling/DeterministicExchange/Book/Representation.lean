import DeterministicExchange.Book.Logical

/-!
# Representation of the order book

The stored book is described by handle-carrying views of its levels, and by
the position `place id` that the shared order index gives to each live order.
`SideRep` relates the level array and the level index of a side to its views,
`IndexRep` relates the order index to the live orders, and `BookRep` is the
representation invariant of a whole book.

Closing a hole of the order index moves entries of unrelated orders. Only
`place` changes then, so a view never mentions an index position.
-/

namespace DeterministicExchange.Book

open Machine ProbeTable OrderIndex

variable {LEVELS ORDERS : ℕ}

/-- One occupied level: its price, its slot, its queue with slot handles and its free slots. -/
structure LevelView where
  price : PriceTicks
  handle : ℕ
  nodes : List (ℕ × Logical.Order)
  free : List ℕ

abbrev Views := Side → List LevelView

def LevelView.toLevel (view : LevelView) : Logical.Level := ⟨view.price, view.nodes.map Prod.snd⟩

/-- The resting order that stores a logical order. -/
def stored (place : OrderId → U32) (order : Logical.Order) : RestingOrder :=
  ⟨order.id, order.accountId, place order.id, order.quantity, order.sequence⟩

def storedNodes (place : OrderId → U32) (nodes : List (ℕ × Logical.Order)) : List (ℕ × RestingOrder) :=
  nodes.map fun node ↦ (node.1, stored place node.2)

structure LevelRep (place : OrderId → U32) (level : PriceLevel ORDERS) (view : LevelView) : Prop where
  price : level.price = view.price
  queue : level.Rep (storedNodes place view.nodes) view.free

/-- The level array and the level index of one side store `views`. -/
structure SideRep (place : OrderId → U32) (levels : Vector (Option (PriceLevel ORDERS)) LEVELS)
    (levelIndex : LevelIndex LEVELS) (descending : Bool) (views : List LevelView) : Prop where
  sorted : SortedIndex.Sorted descending levelIndex
  entries : levelIndex.entries = views.map fun view ↦ (view.price, view.handle)
  level : ∀ view ∈ views, ∃ level, levels[view.handle]? = some (some level) ∧
    LevelRep place level view
  vacant : ∀ i, i < LEVELS → i ∉ views.map LevelView.handle → levels[i]? = some none

/-- The order `order` rests at `location`. -/
def Live (views : Views) (location : OrderLocation) (order : Logical.Order) : Prop :=
  ∃ view ∈ views location.side, view.handle = location.levelIndex ∧
    (location.slot, order) ∈ view.nodes

/-- Order ids determine their order and its location. -/
def UniqueIds (live : OrderLocation → Logical.Order → Prop) : Prop :=
  ∀ l x l' x', live l x → live l' x' → x.id = x'.id → l = l' ∧ x = x'

/-- The order index stores exactly the live orders, each at its place. -/
structure IndexRep (place : OrderId → U32) (index : OrderIndex LEVELS ORDERS)
    (live : OrderLocation → Logical.Order → Prop) : Prop where
  probed : Probed (probeStart LEVELS ORDERS) index
  entry : ∀ pos id encoded, slot index pos = some (id, encoded) ↔
    ∃ location order, live location order ∧ order.id = id ∧ (place id).val = pos ∧
      encodeLocation LEVELS ORDERS location = some encoded
  inRange : ∀ location order, live location order → InRange LEVELS ORDERS location
  functional : ∀ location order order', live location order → live location order' → order = order'
  unique : UniqueIds live

def SidesRep (book : OrderBook LEVELS ORDERS) (place : OrderId → U32) (views : Views) : Prop :=
  ∀ side, SideRep place (book.sideLevels side) (book.sideIndex side) (descending side) (views side)

/-- The representation invariant of a book that stores `views`. -/
structure BookRep (book : OrderBook LEVELS ORDERS) (place : OrderId → U32) (views : Views) : Prop where
  sides : SidesRep book place views
  occupied : ∀ side, ∀ view ∈ views side, view.nodes ≠ []
  index : IndexRep place book.index (Live views)

/-! ## Stored queues -/

@[simp] theorem toLevel_price (view : LevelView) : view.toLevel.price = view.price := rfl

@[simp] theorem toLevel_orders (view : LevelView) :
    view.toLevel.orders = view.nodes.map Prod.snd := rfl

@[simp] theorem stored_id (place : OrderId → U32) (order : Logical.Order) :
    (stored place order).id = order.id := rfl

@[simp] theorem stored_accountId (place : OrderId → U32) (order : Logical.Order) :
    (stored place order).accountId = order.accountId := rfl

@[simp] theorem stored_quantity (place : OrderId → U32) (order : Logical.Order) :
    (stored place order).quantity = order.quantity := rfl

@[simp] theorem stored_sequence (place : OrderId → U32) (order : Logical.Order) :
    (stored place order).sequence = order.sequence := rfl

@[simp] theorem stored_indexSlot (place : OrderId → U32) (order : Logical.Order) :
    (stored place order).indexSlot = place order.id := rfl

@[simp] theorem storedNodes_append (place : OrderId → U32) (xs ys : List (ℕ × Logical.Order)) :
    storedNodes place (xs ++ ys) = storedNodes place xs ++ storedNodes place ys := List.map_append

@[simp] theorem storedNodes_cons (place : OrderId → U32) (node : ℕ × Logical.Order)
    (nodes : List (ℕ × Logical.Order)) :
    storedNodes place (node :: nodes) = (node.1, stored place node.2) :: storedNodes place nodes := rfl

@[simp] theorem storedNodes_nil (place : OrderId → U32) : storedNodes place [] = [] := rfl

@[simp] theorem storedNodes_length (place : OrderId → U32) (nodes : List (ℕ × Logical.Order)) :
    (storedNodes place nodes).length = nodes.length := List.length_map _

theorem storedNodes_congr {place place' : OrderId → U32} {nodes : List (ℕ × Logical.Order)}
    (h : ∀ node ∈ nodes, place node.2.id = place' node.2.id) :
    storedNodes place nodes = storedNodes place' nodes := by
  apply List.map_congr_left
  intro node hnode
  simp only [stored, h node hnode]

theorem mem_storedNodes {place : OrderId → U32} {nodes : List (ℕ × Logical.Order)} {slot : ℕ}
    {resting : RestingOrder} :
    (slot, resting) ∈ storedNodes place nodes ↔
      ∃ order, (slot, order) ∈ nodes ∧ stored place order = resting := by
  simp [storedNodes]

theorem stored_injective (place : OrderId → U32) : Function.Injective (stored place) := by
  rintro ⟨id, account, quantity, sequence⟩ ⟨id', account', quantity', sequence'⟩ h
  simp only [stored, RestingOrder.mk.injEq] at h
  simp [h]

namespace LevelRep

variable {place : OrderId → U32} {level : PriceLevel ORDERS} {view : LevelView}

theorem len_eq (h : LevelRep place level view) : level.len = view.nodes.length := by
  rw [h.queue.len_eq, storedNodes_length]

theorem getLive_of_mem (h : LevelRep place level view) {slot : ℕ} {order : Logical.Order}
    (hmem : (slot, order) ∈ view.nodes) : level.getLive slot = some (stored place order) :=
  h.queue.getLive_eq_some.mpr (mem_storedNodes.mpr ⟨order, hmem, rfl⟩)

theorem mem_of_getLive (h : LevelRep place level view) {slot : ℕ} {resting : RestingOrder}
    (hlive : level.getLive slot = some resting) :
    ∃ order, (slot, order) ∈ view.nodes ∧ stored place order = resting :=
  mem_storedNodes.mp (h.queue.getLive_eq_some.mp hlive)

theorem slots_nodup (h : LevelRep place level view) : (view.nodes.map Prod.fst).Nodup := by
  have hnodup := List.Nodup.of_append_left h.queue.queue.nodup
  simpa [storedNodes, Function.comp_def] using hnodup

theorem functional (h : LevelRep place level view) {slot : ℕ} {order order' : Logical.Order}
    (hmem : (slot, order) ∈ view.nodes) (hmem' : (slot, order') ∈ view.nodes) : order = order' :=
  congrArg Prod.snd (List.inj_on_of_nodup_map h.slots_nodup hmem hmem' rfl)

theorem congr {place' : OrderId → U32} (h : LevelRep place level view)
    (heq : ∀ node ∈ view.nodes, place node.2.id = place' node.2.id) : LevelRep place' level view where
  price := h.price
  queue := storedNodes_congr heq ▸ h.queue

end LevelRep

/-! ## One side -/

namespace SideRep

variable {place place' : OrderId → U32} {levels : Vector (Option (PriceLevel ORDERS)) LEVELS}
  {sorted : LevelIndex LEVELS} {descending : Bool} {views pre post : List LevelView}
  {view : LevelView}

theorem handles_eq (h : SideRep place levels sorted descending views) :
    sorted.entries.map Prod.snd = views.map LevelView.handle := by
  rw [h.entries, List.map_map]
  rfl

theorem prices_eq (h : SideRep place levels sorted descending views) :
    sorted.entries.map Prod.fst = views.map LevelView.price := by
  rw [h.entries, List.map_map]
  rfl

theorem handles_nodup (h : SideRep place levels sorted descending views) :
    (views.map LevelView.handle).Nodup :=
  h.handles_eq ▸ List.Nodup.of_append_left h.sorted.handles_nodup

theorem handle_lt (h : SideRep place levels sorted descending views) (hview : view ∈ views) :
    view.handle < LEVELS := by
  have hmem : (view.price, view.handle) ∈ sorted.entries := by
    rw [h.entries]
    exact List.mem_map.mpr ⟨view, hview, rfl⟩
  exact h.sorted.lt_of_mem hmem

theorem view_unique (h : SideRep place levels sorted descending views) {view' : LevelView}
    (hview : view ∈ views) (hview' : view' ∈ views) (heq : view.handle = view'.handle) :
    view = view' := List.inj_on_of_nodup_map h.handles_nodup hview hview' heq

theorem view_unique_price (h : SideRep place levels sorted descending views) {view' : LevelView}
    (hview : view ∈ views) (hview' : view' ∈ views) (heq : view.price = view'.price) :
    view = view' := by
  have hmem : (view.price, view.handle) ∈ sorted.entries := by
    rw [h.entries]
    exact List.mem_map.mpr ⟨view, hview, rfl⟩
  have hmem' : (view.price, view'.handle) ∈ sorted.entries := by
    rw [h.entries, heq]
    exact List.mem_map.mpr ⟨view', hview', rfl⟩
  exact h.view_unique hview hview' (h.sorted.mem_unique hmem hmem')

theorem length_le (h : SideRep place levels sorted descending views) : views.length ≤ LEVELS := by
  have hlen := h.sorted.length_add
  rw [h.entries, List.length_map] at hlen
  omega

theorem isFull_iff (h : SideRep place levels sorted descending views) :
    sorted.isFull = true ↔ views.length = LEVELS := by
  have hlen := h.sorted.length_add
  rw [h.entries, List.length_map] at hlen
  unfold SortedIndex.Index.isFull
  rw [List.isEmpty_iff, ← List.length_eq_zero_iff]
  omega

theorem prices_sorted (h : SideRep place levels sorted descending views) :
    views.Pairwise fun a b ↦ SortedIndex.before descending a.price b.price = true := by
  have hordered := h.sorted.ordered
  rw [h.entries, List.pairwise_map] at hordered
  exact hordered

theorem find_eq_some (h : SideRep place levels sorted descending views) {price : PriceTicks} {i : ℕ} :
    sorted.find price descending = some i ↔ ∃ v ∈ views, v.price = price ∧ v.handle = i := by
  rw [h.sorted.find_eq_some, h.entries, List.mem_map]
  simp

theorem find_eq_none (h : SideRep place levels sorted descending views) {price : PriceTicks} :
    sorted.find price descending = none ↔ ∀ v ∈ views, v.price ≠ price := by
  rw [h.sorted.find_eq_none, h.prices_eq, List.mem_map]
  simp

/-- A change of the index places that no stored order sees. -/
theorem congr (h : SideRep place levels sorted descending views)
    (heq : ∀ v ∈ views, ∀ node ∈ v.nodes, place node.2.id = place' node.2.id) :
    SideRep place' levels sorted descending views where
  sorted := h.sorted
  entries := h.entries
  vacant := h.vacant
  level := fun v hv ↦
    let ⟨level, hget, hrep⟩ := h.level v hv
    ⟨level, hget, hrep.congr (heq v hv)⟩

/-- Overwriting one level. Other levels may see new index places only if these agree on them. -/
theorem set (h : SideRep place levels sorted descending (pre ++ view :: post)) {view' : LevelView}
    {level' : PriceLevel ORDERS} (hprice : view'.price = view.price)
    (hhandle : view'.handle = view.handle) (hrep : LevelRep place' level' view')
    (heq : ∀ v ∈ pre ++ post, ∀ node ∈ v.nodes, place node.2.id = place' node.2.id) :
    SideRep place' (levels.setIfInBounds view.handle (some level')) sorted descending
      (pre ++ view' :: post) := by
  have hlt : view.handle < LEVELS := h.handle_lt (by simp)
  have hnodup := h.handles_nodup
  simp only [List.map_append, List.map_cons] at hnodup
  refine ⟨h.sorted, ?_, ?_, ?_⟩
  · rw [h.entries]
    simp [hprice, hhandle]
  · intro v hv
    rw [Vector.getElem?_setIfInBounds]
    simp only [List.mem_append, List.mem_cons] at hv
    by_cases hv' : v = view'
    · subst hv'
      refine ⟨level', ?_, hrep⟩
      rw [if_pos hhandle.symm, if_pos (hhandle ▸ hlt)]
    · have hv : v ∈ pre ++ post := by
        simp only [List.mem_append]
        tauto
      have hvold : v ∈ pre ++ view :: post := by
        simp only [List.mem_append, List.mem_cons] at hv ⊢
        tauto
      have hne : view.handle ≠ v.handle := by
        intro heq
        have hcount := List.nodup_middle.mp hnodup
        refine (List.nodup_cons.mp hcount).1 ?_
        rw [heq, ← List.map_append]
        exact List.mem_map.mpr ⟨v, hv, rfl⟩
      obtain ⟨level, hget, hrep'⟩ := h.level v hvold
      refine ⟨level, ?_, hrep'.congr (heq v hv)⟩
      rw [if_neg hne, hget]
  · intro i hi hmem
    have hmem' : i ∉ (pre ++ view :: post).map LevelView.handle := by
      simpa [hhandle] using hmem
    have hne : view.handle ≠ i := by
      rintro rfl
      exact hmem' (List.mem_map.mpr ⟨view, by simp, rfl⟩)
    rw [Vector.getElem?_setIfInBounds, if_neg hne]
    exact h.vacant i hi hmem'

/-- Dropping a level. -/
theorem drop (h : SideRep place levels sorted descending (pre ++ view :: post)) :
    ∃ sorted', sorted.remove view.price descending = .ok (some (view.handle, sorted')) ∧
      SideRep place (levels.setIfInBounds view.handle none) sorted' descending (pre ++ post) := by
  have hlt : view.handle < LEVELS := h.handle_lt (by simp)
  have hnodup := h.handles_nodup
  simp only [List.map_append, List.map_cons] at hnodup
  have hout := (List.nodup_cons.mp (List.nodup_middle.mp hnodup)).1
  rw [← List.map_append] at hout
  have hentries := h.entries
  rw [List.map_append, List.map_cons] at hentries
  obtain ⟨hremove, hsorted⟩ := h.sorted.remove hentries
  refine ⟨_, hremove, hsorted, ?_, ?_, ?_⟩
  · simp
  · intro v hv
    have hvold : v ∈ pre ++ view :: post := by
      simp only [List.mem_append, List.mem_cons] at hv ⊢
      tauto
    have hne : view.handle ≠ v.handle := by
      intro heq
      exact hout (List.mem_map.mpr ⟨v, hv, heq.symm⟩)
    obtain ⟨level, hget, hrep⟩ := h.level v hvold
    refine ⟨level, ?_, hrep⟩
    rw [Vector.getElem?_setIfInBounds, if_neg hne, hget]
  · intro i hi hmem
    rw [Vector.getElem?_setIfInBounds]
    by_cases heq : view.handle = i
    · subst heq
      rw [if_pos rfl, if_pos hlt]
    · rw [if_neg heq]
      refine h.vacant i hi ?_
      simp only [List.map_append, List.map_cons, List.mem_append, List.mem_cons] at hmem ⊢
      rintro (hpre | rfl | hpost)
      · exact hmem (.inl hpre)
      · exact heq rfl
      · exact hmem (.inr hpost)

/-- Opening an empty level at an absent price. -/
theorem openLevel (h : SideRep place levels sorted descending views) {price : PriceTicks}
    (hprice : ∀ v ∈ views, v.price ≠ price) (hlen : views.length < LEVELS) :
    ∃ handle sorted' pre post, handle < LEVELS ∧
      sorted.insert price descending = .ok (some (handle, sorted')) ∧ views = pre ++ post ∧
      (∀ v ∈ pre, SortedIndex.before descending v.price price = true) ∧
      (∀ v ∈ post, SortedIndex.before descending price v.price = true) ∧
      SideRep place (levels.setIfInBounds handle (some (PriceLevel.new ORDERS price))) sorted'
        descending (pre ++ ⟨price, handle, [], List.range ORDERS⟩ :: post) := by
  have hlength := h.sorted.length_add
  rw [h.entries, List.length_map] at hlength
  obtain ⟨handle, free, hfree⟩ := List.exists_cons_of_length_pos (by omega : 0 < sorted.free.length)
  have hkey : price ∉ sorted.entries.map Prod.fst := by
    rw [h.prices_eq, List.mem_map]
    rintro ⟨v, hv, heq⟩
    exact hprice v hv heq
  obtain ⟨pre, post, hentries, hpre, hpost, hinsert, hsorted⟩ := h.sorted.insert hfree hkey
  have hnodup := hsorted.handles_nodup
  rw [h.entries] at hentries
  obtain ⟨vpre, vpost, hviews, hvpre, hvpost⟩ := List.map_eq_append_iff.mp hentries
  have hlt : handle < LEVELS := hsorted.lt_of_mem (by simp : (price, handle) ∈ _)
  have hout : handle ∉ views.map LevelView.handle := by
    simp only [List.map_append, List.map_cons] at hnodup
    have hnodup := List.Nodup.of_append_left hnodup
    have hout := (List.nodup_cons.mp (List.nodup_middle.mp hnodup)).1
    rw [← List.map_append, ← hentries, List.map_map] at hout
    exact hout
  refine ⟨handle, _, vpre, vpost, hlt, hinsert, hviews, ?_, ?_, hsorted, ?_, ?_, ?_⟩
  · intro v hv
    exact hpre _ (hvpre ▸ List.mem_map.mpr ⟨v, hv, rfl⟩)
  · intro v hv
    exact hpost _ (hvpost ▸ List.mem_map.mpr ⟨v, hv, rfl⟩)
  · simp [hvpre, hvpost]
  · intro v hv
    rw [Vector.getElem?_setIfInBounds]
    by_cases hnew : v = ⟨price, handle, [], List.range ORDERS⟩
    · subst hnew
      exact ⟨PriceLevel.new ORDERS price, by rw [if_pos rfl, if_pos hlt], rfl, PriceLevel.Rep.new price⟩
    · have hvold : v ∈ views := by
        rw [hviews]
        simp only [List.mem_append, List.mem_cons] at hv ⊢
        tauto
      have hne : handle ≠ v.handle := by
        intro heq
        exact hout (List.mem_map.mpr ⟨v, hvold, heq.symm⟩)
      obtain ⟨level, hget, hrep⟩ := h.level v hvold
      exact ⟨level, by rw [if_neg hne, hget], hrep⟩
  · intro i hi hmem
    have hne : handle ≠ i := by
      rintro rfl
      simp at hmem
    rw [Vector.getElem?_setIfInBounds, if_neg hne]
    refine h.vacant i hi ?_
    rw [hviews]
    simp only [List.map_append, List.map_cons, List.mem_append, List.mem_cons] at hmem ⊢
    tauto

end SideRep

end DeterministicExchange.Book
