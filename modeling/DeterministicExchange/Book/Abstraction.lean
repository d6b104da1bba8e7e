import DeterministicExchange.Book.Entries
import DeterministicExchange.Book.Invariant

/-!
# The logical book behind the invariant

`OrderBook.Invariant` speaks about the arrays of a book alone. A book that
satisfies it represents a logical book: the views of its levels are read off
the queues, and the place of an id is the position that its resting order keeps.
So every result about represented books is one about books with the invariant.
-/

namespace DeterministicExchange.Book

open Machine ProbeTable OrderIndex

variable {LEVELS ORDERS : ℕ} {book : OrderBook LEVELS ORDERS} {place : OrderId → U32} {views : Views}

/-- What a resting order stores besides its index position. -/
def RestingOrder.toOrder (order : RestingOrder) : Logical.Order :=
  ⟨order.id, order.accountId, order.quantity, order.sequence⟩

theorem stored_toOrder {order : RestingOrder} (h : place order.id = order.indexSlot) :
    stored place order.toOrder = order := by
  unfold stored RestingOrder.toOrder
  rw [h]

open Classical in
/-- The position that the resting order with this id keeps. -/
noncomputable def OrderBook.indexPlace (book : OrderBook LEVELS ORDERS) (id : OrderId) : U32 :=
  if h : ∃ order location, book.RestsAt location order ∧ order.id = id then h.choose.indexSlot else 0

theorem slot_of_findSlot {index : OrderIndex LEVELS ORDERS} {id : OrderId} {pos : ℕ}
    (h : index.findSlot id = some pos) : ∃ encoded, slot index pos = some (id, encoded) := by
  have hscan : Scanned index id (probeStart LEVELS ORDERS id) (indexCapacity LEVELS ORDERS) 0
      (probeFrom index id (probeStart LEVELS ORDERS id) (indexCapacity LEVELS ORDERS) 0) :=
    probeFrom_spec _ 0
  unfold OrderIndex.findSlot probe at h
  split at h
  · simp at h
  · split at h
    · next hfound =>
      rw [hfound] at hscan
      obtain ⟨_, _, _, _, hstored, _⟩ := hscan
      rwa [Option.some.inj h] at hstored
    · simp at h

/-! ## Views of the levels -/

/-- A view that reads an entry of the level index off its level. -/
structure Views.Reads (place : OrderId → U32) (levels : Vector (Option (PriceLevel ORDERS)) LEVELS)
    (view : LevelView) : Prop where
  occupied : view.nodes ≠ []
  level : ∃ level, levels[view.handle]? = some (some level) ∧ LevelRep place level view

/-- `place` gives the position that every stored order keeps. -/
def PlacesStored (place : OrderId → U32) (levels : Vector (Option (PriceLevel ORDERS)) LEVELS) : Prop :=
  ∀ (i : ℕ) (level : PriceLevel ORDERS) slot order, levels[i]? = some (some level) →
    level.getLive slot = some order → place order.id = order.indexSlot

namespace SideInvariant

variable {levels : Vector (Option (PriceLevel ORDERS)) LEVELS} {levelIndex : LevelIndex LEVELS}
  {descending : Bool}

theorem exists_view (h : SideInvariant levels levelIndex descending)
    (hplace : PlacesStored place levels)
    {entry : PriceTicks × ℕ} (hentry : entry ∈ levelIndex.entries) :
    ∃ view, Views.Reads place levels view ∧ (view.price, view.handle) = entry := by
  obtain ⟨level, nodes, free, hget, hprice, hnodes, hrep⟩ := h.level entry hentry
  have hstored : storedNodes place (nodes.map fun node ↦ (node.1, node.2.toOrder)) = nodes := by
    have hnode (node : ℕ × RestingOrder) (hmem : node ∈ nodes) :
        (node.1, stored place node.2.toOrder) = node := by
      apply Prod.ext
      · rfl
      · exact stored_toOrder (hplace _ level _ _ hget (hrep.getLive_eq_some.mpr hmem))
    unfold storedNodes
    rw [List.map_map]
    calc
      nodes.map _ = nodes.map id := List.map_congr_left hnode
      _ = nodes := List.map_id nodes
  refine ⟨⟨entry.1, entry.2, nodes.map fun node ↦ (node.1, node.2.toOrder), free⟩, ⟨?_, level, hget, ?_⟩,
    rfl⟩
  · exact fun hnil ↦ hnodes (List.map_eq_nil_iff.mp hnil)
  · exact ⟨hprice, hstored.symm ▸ hrep⟩

/-- One view for each entry of the level index. -/
theorem exists_views (h : SideInvariant levels levelIndex descending)
    (hplace : PlacesStored place levels) :
    ∃ views, SideRep place levels levelIndex descending views ∧ ∀ view ∈ views, view.nodes ≠ [] := by
  have hrange : levelIndex.entries ∈ Set.range
      (List.map fun view : { view // Views.Reads place levels view } ↦
        (view.val.price, view.val.handle)) := by
    rw [Set.range_list_map]
    intro entry hentry
    obtain ⟨view, hreads, heq⟩ := h.exists_view hplace hentry
    exact ⟨⟨view, hreads⟩, heq⟩
  obtain ⟨views, hviews⟩ := hrange
  have hreads : ∀ view ∈ views.map Subtype.val, Views.Reads place levels view := by
    intro view hview
    obtain ⟨view, _, rfl⟩ := List.mem_map.mp hview
    exact view.property
  have hentries : levelIndex.entries =
      (views.map Subtype.val).map fun view ↦ (view.price, view.handle) := by
    rw [List.map_map]
    exact hviews.symm
  refine ⟨views.map Subtype.val, ⟨⟨h.sorted, h.slots⟩, hentries, fun view hview ↦ (hreads view hview).level,
    ?_⟩, fun view hview ↦ (hreads view hview).occupied⟩
  intro i hi hmem
  have hget : levels[i]? = some levels[i] := Vector.getElem?_eq_getElem hi
  cases hlevel : levels[i] with
  | none => rw [hget, hlevel]
  | some level =>
    have hindexed := h.indexed i level (by rw [hget, hlevel])
    rw [hentries] at hindexed
    obtain ⟨view, hview, heq⟩ := List.mem_map.mp hindexed
    exact absurd (List.mem_map.mpr ⟨view, hview, congrArg Prod.snd heq⟩) hmem

end SideInvariant

/-! ## Resting orders -/

theorem OrderBook.RestsAt.functional {location : OrderLocation} {order order' : RestingOrder}
    (h : book.RestsAt location order) (h' : book.RestsAt location order') : order = order' := by
  obtain ⟨level, hlevel, hlive⟩ := h
  obtain ⟨level', hlevel', hlive'⟩ := h'
  obtain rfl : level = level' := Option.some.inj (hlevel.symm.trans hlevel')
  exact Option.some.inj (hlive.symm.trans hlive')

theorem OrderBook.restsAt_of_getLive {side : Side} {i slot : ℕ} {level : PriceLevel ORDERS}
    {order : RestingOrder} (hget : (book.sideLevels side)[i]? = some (some level))
    (hlive : level.getLive slot = some order) : book.RestsAt ⟨side, i, slot⟩ order := by
  refine ⟨level, ?_, hlive⟩
  unfold OrderBook.level?
  rw [hget]
  rfl

namespace OrderBook.Invariant

theorem restsAt_unique (h : book.Invariant) {location location' : OrderLocation}
    {order order' : RestingOrder} (hrests : book.RestsAt location order)
    (hrests' : book.RestsAt location' order') (hid : order.id = order'.id) :
    location = location' ∧ order = order' := by
  have hlocation := (h.location order.id location).mpr ⟨order, hrests, rfl⟩
  have hlocation' := (h.location order.id location').mpr ⟨order', hrests', hid.symm⟩
  obtain rfl : location = location' := Option.some.inj (hlocation.symm.trans hlocation')
  exact ⟨rfl, hrests.functional hrests'⟩

theorem indexPlace_eq (h : book.Invariant) {location : OrderLocation} {order : RestingOrder}
    (hrests : book.RestsAt location order) : book.indexPlace order.id = order.indexSlot := by
  have hexists : ∃ order' location', book.RestsAt location' order' ∧ order'.id = order.id :=
    ⟨order, location, hrests, rfl⟩
  obtain ⟨location', hrests', hid⟩ := hexists.choose_spec
  unfold OrderBook.indexPlace
  rw [dif_pos hexists, (h.restsAt_unique hrests' hrests hid).2]

/-- The order index, read through the views. -/
theorem indexRep (h : book.Invariant) {views : Views}
    (hsides : SidesRep book book.indexPlace views) :
    IndexRep book.indexPlace book.index (Live views) where
  probed := h.probed
  entry pos id encoded := by
    constructor
    · intro hslot
      obtain ⟨location, order, hrests, rfl, hpos, hencode⟩ := h.entry pos id encoded hslot
      obtain ⟨live, hlive, rfl⟩ := hsides.restsAt_iff.mp hrests
      exact ⟨location, live, hlive, rfl, hpos, hencode⟩
    · rintro ⟨location, live, hlive, rfl, rfl, hencode⟩
      have hrests := hsides.restsAt_iff.mpr ⟨live, hlive, rfl⟩
      obtain ⟨encoded', hslot⟩ := slot_of_findSlot (h.indexSlot location _ hrests)
      obtain ⟨location', order', hrests', hid, _, hencode'⟩ := h.entry _ _ _ hslot
      obtain ⟨rfl, _⟩ := h.restsAt_unique hrests hrests' hid.symm
      rw [Option.some.inj (hencode.symm.trans hencode')]
      exact hslot
  inRange location live hlive := by
    obtain ⟨view, hview, hhandle, hmem⟩ := hlive
    obtain ⟨level, _, hrep⟩ := (hsides location.side).level view hview
    refine ⟨?_, hrep.queue.slot_lt (mem_storedNodes.mpr ⟨live, hmem, rfl⟩)⟩
    rw [← hhandle]
    exact (hsides location.side).handle_lt hview
  functional location live live' hlive hlive' := by
    apply stored_injective book.indexPlace
    exact (hsides.restsAt_iff.mpr ⟨live, hlive, rfl⟩).functional
      (hsides.restsAt_iff.mpr ⟨live', hlive', rfl⟩)
  unique location live location' live' hlive hlive' hid := by
    obtain ⟨hlocation, horder⟩ := h.restsAt_unique (hsides.restsAt_iff.mpr ⟨live, hlive, rfl⟩)
      (hsides.restsAt_iff.mpr ⟨live', hlive', rfl⟩) hid
    exact ⟨hlocation, stored_injective _ horder⟩

/-- A book with the invariant represents a logical book. -/
theorem represents (h : book.Invariant) : ∃ logical, book.Represents logical := by
  have hplace (side : Side) : PlacesStored book.indexPlace (book.sideLevels side) :=
    fun _ _ _ _ hget hlive ↦ h.indexPlace_eq (OrderBook.restsAt_of_getLive hget hlive)
  have hexists (side : Side) := (h.side side).exists_views (hplace side)
  choose views hsides hoccupied using hexists
  exact ⟨_, book.indexPlace, views, ⟨hsides, hoccupied, h.indexRep hsides⟩, rfl⟩

end OrderBook.Invariant

/-! ## Represented books are orderly -/

/-- The orders of one side with their locations. -/
def located (views : Views) (side : Side) : List (OrderLocation × Logical.Order) :=
  (views side).flatMap fun view ↦ view.nodes.map fun node ↦ (⟨side, view.handle, node.1⟩, node.2)

theorem mem_located {views : Views} {side : Side} {entry : OrderLocation × Logical.Order} :
    entry ∈ located views side ↔ entry.1.side = side ∧ Live views entry.1 entry.2 := by
  obtain ⟨⟨side', handle, slot⟩, order⟩ := entry
  unfold located Live
  simp only [List.mem_flatMap, List.mem_map, Prod.mk.injEq, OrderLocation.mk.injEq]
  constructor
  · rintro ⟨view, hview, node, hnode, ⟨rfl, rfl, rfl⟩, rfl⟩
    exact ⟨rfl, view, hview, rfl, hnode⟩
  · rintro ⟨rfl, view, hview, rfl, hnode⟩
    exact ⟨view, hview, (slot, order), hnode, ⟨rfl, rfl, rfl⟩, rfl⟩

theorem entries_eq_located (views : Views) (side : Side) :
    (Logical.entries side ((views side).map LevelView.toLevel)).map (fun entry ↦ entry.2.2.id) =
      (located views side).map fun entry ↦ entry.2.id := by
  unfold Logical.entries located
  rw [List.flatMap_map, List.map_flatMap, List.map_flatMap]
  apply List.flatMap_congr
  intro view _
  rw [toLevel_orders, List.map_map, List.map_map, List.map_map]
  rfl

theorem SidesRep.located_nodup (h : SidesRep book place views) (side : Side) :
    (located views side).Nodup := by
  rw [located, List.nodup_flatMap]
  constructor
  · intro view hview
    obtain ⟨level, _, hrep⟩ := (h side).level view hview
    apply List.Nodup.of_map fun entry ↦ entry.1.slot
    rw [List.map_map]
    exact hrep.slots_nodup
  · have hhandles := (h side).handles_nodup
    rw [List.nodup_iff_pairwise_ne, List.pairwise_map] at hhandles
    apply hhandles.imp
    intro view view' hne entry hentry hentry'
    obtain ⟨node, _, rfl⟩ := List.mem_map.mp hentry
    obtain ⟨node', _, heq⟩ := List.mem_map.mp hentry'
    exact hne (congrArg (fun entry ↦ entry.1.levelIndex) heq).symm

theorem BookRep.ids_nodup (h : BookRep book place views) (instrument : InstrumentId) :
    ((Views.toBook instrument views).entries.map fun entry ↦ entry.2.2.id).Nodup := by
  have hids : (Views.toBook instrument views).entries.map (fun entry ↦ entry.2.2.id) =
      (located views .buy ++ located views .sell).map fun entry ↦ entry.2.id := by
    rw [List.map_append, ← entries_eq_located, ← entries_eq_located, ← List.map_append]
    rfl
  have hlive : ∀ entry ∈ located views .buy ++ located views .sell, Live views entry.1 entry.2 := by
    intro entry hentry
    rcases List.mem_append.mp hentry with hbuy | hsell
    · exact (mem_located.mp hbuy).2
    · exact (mem_located.mp hsell).2
  rw [hids]
  apply List.Nodup.map_on
  · intro entry hentry entry' hentry' hid
    obtain ⟨hlocation, horder⟩ := h.unique _ _ _ _ (hlive entry hentry) (hlive entry' hentry') hid
    exact Prod.ext hlocation horder
  · apply List.Nodup.append (h.sides.located_nodup .buy) (h.sides.located_nodup .sell)
    intro entry hbuy hsell
    exact absurd ((mem_located.mp hbuy).1.symm.trans (mem_located.mp hsell).1) nofun

theorem OrderBook.Represents.orderly {logical : Logical.Book} (h : book.Represents logical) :
    logical.Orderly := by
  obtain ⟨place, views, h, rfl⟩ := h
  refine ⟨?_, ?_, ?_, h.ids_nodup _⟩
  · intro side
    rw [toBook_side]
    exact h.levels_nonempty side
  · intro side
    exact (h.fits side _).sorted
  · intro side level hlevel order horder
    rw [toBook_side] at hlevel
    obtain ⟨view, hview, rfl⟩ := List.mem_map.mp hlevel
    obtain ⟨node, hnode, rfl⟩ := List.mem_map.mp horder
    obtain ⟨_, _, hrep⟩ := (h.sides side).level view hview
    exact hrep.queue.positive _ (mem_storedNodes.mpr ⟨node.2, hnode, rfl⟩)

/-! ## Reading the logical book -/

/-- The level behind an entry of the level index. -/
def OrderBook.readLevel (book : OrderBook LEVELS ORDERS) (side : Side) (entry : PriceTicks × ℕ) :
    Logical.Level where
  price := entry.1
  orders :=
    match book.level? side entry.2 with
    | none => []
    | some level =>
      match level.queue.values with
      | .error _ => []
      | .ok orders => orders.map RestingOrder.toOrder

/-- The levels of both sides in priority order, each with its queue. -/
def OrderBook.toLogical (book : OrderBook LEVELS ORDERS) : Logical.Book where
  instrument := book.instrument
  bids := book.bidLevels.entries.map (book.readLevel .buy)
  asks := book.askLevels.entries.map (book.readLevel .sell)

theorem BookRep.readLevel_eq (hcap : indexCapacity LEVELS ORDERS ≤ 2 ^ 32) (h : BookRep book place views)
    {side : Side} {view : LevelView} (hview : view ∈ views side) :
    book.readLevel side (view.price, view.handle) = view.toLevel := by
  obtain ⟨level, hget, hrep⟩ := (h.sides side).level view hview
  have horders := BookRep.orders_le (addressable hcap) (h.levels_pos hview)
  have hvalues := hrep.queue.queue.values (by unfold LinkedSlots.nil; omega)
  unfold OrderBook.readLevel LevelView.toLevel
  simp only [OrderBook.level?_of_get hget, hvalues]
  congr 1
  unfold storedNodes
  rw [List.map_map, List.map_map]
  rfl

/-- A represented book is read back. -/
theorem OrderBook.Represents.toLogical_eq (hcap : indexCapacity LEVELS ORDERS ≤ 2 ^ 32)
    {logical : Logical.Book} (h : book.Represents logical) : book.toLogical = logical := by
  obtain ⟨place, views, h, rfl⟩ := h
  have hside (side : Side) : (book.sideIndex side).entries.map (book.readLevel side) =
      (views side).map LevelView.toLevel := by
    rw [(h.sides side).entries, List.map_map]
    apply List.map_congr_left
    intro view hview
    exact h.readLevel_eq hcap hview
  have hbids : book.bidLevels.entries.map (book.readLevel .buy) = _ := hside .buy
  have hasks : book.askLevels.entries.map (book.readLevel .sell) = _ := hside .sell
  unfold OrderBook.toLogical Views.toBook
  rw [hbids, hasks]

/-- A book with the invariant represents what is read from it. -/
theorem OrderBook.Invariant.represents_toLogical (hcap : indexCapacity LEVELS ORDERS ≤ 2 ^ 32)
    (h : book.Invariant) : book.Represents book.toLogical := by
  obtain ⟨logical, hrep⟩ := h.represents
  rw [hrep.toLogical_eq hcap]
  exact hrep

/-- The best level is that of the logical book. -/
theorem OrderBook.Represents.topLevel {logical : Logical.Book} (h : book.Represents logical) (side : Side) :
    book.topLevel side = logical.topLevel side := by
  obtain ⟨place, views, hrep, rfl⟩ := h
  have hside := hrep.sides side
  unfold OrderBook.topLevel Logical.Book.topLevel
  rw [toBook_side, hside.entries]
  cases hviews : views side with
  | nil => rfl
  | cons view rest =>
    have hview : view ∈ views side := by
      rw [hviews]
      exact List.mem_cons_self
    obtain ⟨level, hget, hlevel⟩ := hside.level view hview
    have hlevel? : book.level? side view.handle = some level := by
      unfold OrderBook.level?
      rw [hget]
      rfl
    have htotal : level.aggregateQuantity =
        (view.toLevel.orders.map fun order ↦ order.quantity.val).sum := by
      rw [hlevel.queue.aggregate, toLevel_orders]
      unfold totalQuantity storedNodes
      rw [List.map_map, List.map_map]
      rfl
    simp only [List.map_cons, List.head?_cons, Option.map_some, Option.bind_eq_bind, Option.bind_some,
      hlevel?, htotal, hlevel.len_eq, toLevel_price, toLevel_orders, List.length_map]
    rfl

end DeterministicExchange.Book
