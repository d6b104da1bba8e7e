import DeterministicExchange.Book.Update
import DeterministicExchange.Book.Levels

/-!
# The order book refines the logical book

A represented book stores a logical book: forget the handles of its views. The
elementary updates then act as the logical operations on one side do, and
lookups find the orders of the logical book.
-/

namespace DeterministicExchange.Book

open Machine ProbeTable OrderIndex

variable {LEVELS ORDERS : ℕ}

def Views.toBook (instrument : InstrumentId) (views : Views) : Logical.Book :=
  ⟨instrument, (views .buy).map LevelView.toLevel, (views .sell).map LevelView.toLevel⟩

/-- The book stores `logical` and satisfies its representation invariant. -/
def OrderBook.Represents (book : OrderBook LEVELS ORDERS) (logical : Logical.Book) : Prop :=
  ∃ place views, BookRep book place views ∧ Views.toBook book.instrument views = logical

/-- A level view, unless it is empty. -/
def LevelView.kept (view : LevelView) : List LevelView := if view.nodes = [] then [] else [view]

/-! ## The logical book of views -/

@[simp] theorem toBook_instrument (instrument : InstrumentId) (views : Views) :
    (Views.toBook instrument views).instrument = instrument := rfl

@[simp] theorem toBook_side (instrument : InstrumentId) (views : Views) (side : Side) :
    (Views.toBook instrument views).side side = (views side).map LevelView.toLevel := by
  cases side <;> rfl

theorem toBook_update (instrument : InstrumentId) (views : Views) (side : Side) (vs : List LevelView) :
    Views.toBook instrument (Function.update views side vs) =
      (Views.toBook instrument views).setSide side (vs.map LevelView.toLevel) := by
  cases side <;> simp [Views.toBook, Logical.Book.setSide, Function.update]

theorem kept_map_toLevel (view : LevelView) :
    view.kept.map LevelView.toLevel = Logical.Level.kept view.toLevel := by
  unfold LevelView.kept Logical.Level.kept LevelView.toLevel
  by_cases h : view.nodes = []
  · simp [h]
  · simp [h]

theorem mem_kept {view view' : LevelView} : view' ∈ view.kept ↔ view.nodes ≠ [] ∧ view' = view := by
  unfold LevelView.kept
  split <;> simp_all

/-- Removing one order from the views removes it from the live orders. -/
theorem live_erase {views : Views} (huniq : UniqueIds (Live views)) {side : Side}
    {pre post : List LevelView} {view : LevelView} {slot : ℕ} {order : Logical.Order}
    {xs ys : List (ℕ × Logical.Order)} (free : List ℕ) (hviews : views side = pre ++ view :: post)
    (hhandles : ((views side).map LevelView.handle).Nodup)
    (hslots : (view.nodes.map Prod.fst).Nodup)
    (hnodes : view.nodes = xs ++ (slot, order) :: ys) (l : OrderLocation) (x : Logical.Order) :
    Live (Function.update views side (pre ++ (LevelView.kept ⟨view.price, view.handle, xs ++ ys, free⟩
      ++ post))) l x ↔ Live views l x ∧ x.id ≠ order.id := by
  have hview : view ∈ views side := by simp [hviews]
  have hnode : (slot, order) ∈ view.nodes := by simp [hnodes]
  have htarget : Live views ⟨side, view.handle, slot⟩ order := live_of_mem hview hnode
  rw [hviews, List.map_append, List.map_cons] at hhandles
  have hhandles := (List.nodup_cons.mp (List.nodup_middle.mp hhandles)).1
  rw [hnodes, List.map_append, List.map_cons] at hslots
  have hslots := (List.nodup_cons.mp (List.nodup_middle.mp hslots)).1
  rw [← List.map_append] at hhandles hslots
  rw [live_update]
  split
  · next hside =>
    constructor
    · rintro ⟨v, hv, hhandle, hvnode⟩
      simp only [List.mem_append, mem_kept] at hv
      have hother (hv' : v ∈ pre ++ post) : Live views l x ∧ x.id ≠ order.id := by
        have hlive : Live views l x := by
          refine ⟨v, ?_, hhandle, hvnode⟩
          rw [hside, hviews]
          simp only [List.mem_append, List.mem_cons] at hv' ⊢
          tauto
        refine ⟨hlive, fun hid ↦ ?_⟩
        have heq := (huniq _ _ _ _ hlive htarget hid).1
        refine hhandles (List.mem_map.mpr ⟨v, hv', ?_⟩)
        rw [hhandle, heq]
      rcases hv with hv | ⟨_, rfl⟩ | hv
      · exact hother (List.mem_append_left _ hv)
      · have hvnode : (l.slot, x) ∈ xs ++ ys := hvnode
        have hlive : Live views l x := by
          refine ⟨view, hside ▸ hview, hhandle, ?_⟩
          rw [hnodes]
          simp only [List.mem_append, List.mem_cons] at hvnode ⊢
          tauto
        refine ⟨hlive, fun hid ↦ ?_⟩
        have heq := (huniq _ _ _ _ hlive htarget hid).1
        refine hslots (List.mem_map.mpr ⟨_, hvnode, ?_⟩)
        rw [heq]
      · exact hother (List.mem_append_right _ hv)
    · rintro ⟨⟨v, hv, hhandle, hvnode⟩, hid⟩
      rw [hside, hviews] at hv
      by_cases hvv : v = view
      · subst hvv
        have hmem : (l.slot, x) ∈ xs ++ ys := by
          rw [hnodes] at hvnode
          simp only [List.mem_append, List.mem_cons, Prod.mk.injEq] at hvnode ⊢
          rcases hvnode with h | ⟨_, rfl⟩ | h
          · exact .inl h
          · exact absurd rfl hid
          · exact .inr h
        refine ⟨_, List.mem_append_right _ (List.mem_append_left _ (mem_kept.mpr ⟨?_, rfl⟩)), hhandle, hmem⟩
        exact List.ne_nil_of_mem hmem
      · refine ⟨v, ?_, hhandle, hvnode⟩
        simp only [List.mem_append, List.mem_cons] at hv ⊢
        tauto
  · next hside =>
    refine ⟨fun hlive ↦ ⟨hlive, fun hid ↦ hside ?_⟩, fun h ↦ h.1⟩
    rw [(huniq _ _ _ _ hlive htarget hid).1]

namespace SidesRep

variable {book : OrderBook LEVELS ORDERS} {place : OrderId → U32} {views : Views} {side : Side}
  {pre post : List LevelView} {view : LevelView} {slot : ℕ} {order : Logical.Order}
  {xs ys : List (ℕ × Logical.Order)}

/-- Dropping an emptied level. -/
theorem dropLevel (h : SidesRep book place views) (hviews : views side = pre ++ view :: post) :
    ∃ book', book.dropLevel side view.handle view.price = .ok book' ∧
      book'.instrument = book.instrument ∧ book'.index = book.index ∧
      SidesRep book' place (Function.update views side (pre ++ post)) := by
  have hside := h side
  rw [hviews] at hside
  obtain ⟨sorted, hremove, hdropped⟩ := hside.drop
  refine ⟨(book.putLevel side view.handle none).setSideIndex side sorted, ?_, by simp, by simp, ?_⟩
  · unfold OrderBook.dropLevel
    simp only [OrderBook.sideIndex_putLevel, hremove, Run.ok_bind, decide_true, Run.debugAssert_true]
    rfl
  · intro s
    rw [OrderBook.sideLevels_setSideIndex, OrderBook.sideIndex_setSideIndex,
      OrderBook.sideLevels_putLevel, OrderBook.sideIndex_putLevel]
    by_cases hs : s = side
    · subst hs
      rw [if_pos rfl, if_pos rfl, Function.update_self]
      exact hdropped
    · rw [if_neg hs, if_neg hs, Function.update_of_ne hs]
      exact h s

/-- Unlinking a live order, and dropping its level when it was alone there. -/
theorem unlinkOrder (hcap : ORDERS ≤ 2 ^ 63) (h : SidesRep book place views)
    (hviews : views side = pre ++ view :: post) (hnodes : view.nodes = xs ++ (slot, order) :: ys)
    (levelMessage orderMessage : String) :
    ∃ book', book.unlinkOrder ⟨side, view.handle, slot⟩ levelMessage orderMessage =
        .ok (stored place order, book') ∧
      book'.instrument = book.instrument ∧ book'.index = book.index ∧
      SidesRep book' place (Function.update views side
        (pre ++ (LevelView.kept ⟨view.price, view.handle, xs ++ ys, slot :: view.free⟩ ++ post))) := by
  obtain ⟨level, hget, hrep⟩ := (h side).level view (by simp [hviews])
  have hqueue := hrep.queue
  rw [hnodes, storedNodes_append, storedNodes_cons] at hqueue
  obtain ⟨level', hunlink, hprice, hqueue'⟩ := hqueue.unlink hcap
  rw [← storedNodes_append] at hqueue'
  have hrep' : LevelRep place level' ⟨view.price, view.handle, xs ++ ys, slot :: view.free⟩ :=
    ⟨hprice.trans hrep.price, hqueue'⟩
  have hput := h.putLevel hviews (by rfl) (by rfl) hrep' fun _ _ _ ↦ rfl
  have hlen := hrep'.len_eq
  by_cases hempty : xs ++ ys = []
  · obtain ⟨book', hdrop, hinstrument, hindex, hsides⟩ := hput.dropLevel (Function.update_self ..)
    rw [Function.update_idem] at hsides
    refine ⟨book', ?_, by rw [hinstrument]; simp, by rw [hindex]; simp, ?_⟩
    · unfold OrderBook.unlinkOrder
      simp only [OrderBook.expectLevel_of_get hget, Run.ok_bind, hunlink, Run.expect_some]
      rw [if_pos (by rw [hlen, hempty]; rfl), hprice, hrep.price, hdrop]
      rfl
    · rw [LevelView.kept, if_pos hempty]
      exact hsides
  · refine ⟨book.putLevel side view.handle (some level'), ?_, by simp, by simp, ?_⟩
    · unfold OrderBook.unlinkOrder
      simp only [OrderBook.expectLevel_of_get hget, Run.ok_bind, hunlink, Run.expect_some]
      rw [if_neg]
      · rfl
      · rw [hlen]
        exact fun hzero ↦ hempty (List.length_eq_zero_iff.mp hzero)
    · rw [LevelView.kept, if_neg hempty]
      exact hput

end SidesRep

namespace BookRep

variable {book : OrderBook LEVELS ORDERS} {place : OrderId → U32} {views : Views} {side : Side}
  {pre post : List LevelView} {view : LevelView} {slot : ℕ} {order : Logical.Order}
  {xs ys : List (ℕ × Logical.Order)}

theorem levels_pos (h : BookRep book place views) (hview : view ∈ views side) : 0 < LEVELS :=
  (Nat.zero_le _).trans_lt ((h.sides side).handle_lt hview)

theorem orders_le (hcap : indexCapacity LEVELS ORDERS ≤ 2 ^ 63) (hlevels : 0 < LEVELS) :
    ORDERS ≤ 2 ^ 63 := by
  have hle : 1 * ORDERS ≤ LEVELS * ORDERS := Nat.mul_le_mul_right _ hlevels
  unfold indexCapacity orderIndexPlanes at hcap
  omega

theorem unique (h : BookRep book place views) : UniqueIds (Live views) := h.index.unique

/-- The other orders of a side have other ids. -/
theorem ids_ne (h : BookRep book place views) (hviews : views side = pre ++ view :: post)
    (hnodes : view.nodes = xs ++ (slot, order) :: ys) :
    (∀ x ∈ (xs ++ ys).map Prod.snd, x.id ≠ order.id) ∧
      Logical.Without order.id ((pre ++ post).map LevelView.toLevel) := by
  have hview : view ∈ views side := by simp [hviews]
  have htarget : Live views ⟨side, view.handle, slot⟩ order := live_of_mem hview (by simp [hnodes])
  have hhandles := (h.sides side).handles_nodup
  rw [hviews, List.map_append, List.map_cons] at hhandles
  have hhandles := (List.nodup_cons.mp (List.nodup_middle.mp hhandles)).1
  obtain ⟨level, _, hrep⟩ := (h.sides side).level view hview
  have hslots := hrep.slots_nodup
  rw [hnodes, List.map_append, List.map_cons] at hslots
  have hslots := (List.nodup_cons.mp (List.nodup_middle.mp hslots)).1
  rw [← List.map_append] at hhandles hslots
  constructor
  · intro x hx hid
    obtain ⟨node, hnode, rfl⟩ := List.mem_map.mp hx
    have hlive : Live views ⟨side, view.handle, node.1⟩ node.2 := by
      refine live_of_mem hview ?_
      rw [hnodes]
      simp only [List.mem_append, List.mem_cons] at hnode ⊢
      tauto
    have heq := (h.unique _ _ _ _ hlive htarget hid).1
    exact hslots (List.mem_map.mpr ⟨node, hnode, congrArg OrderLocation.slot heq⟩)
  · intro level hlevel x hx hid
    obtain ⟨v, hv, rfl⟩ := List.mem_map.mp hlevel
    obtain ⟨node, hnode, rfl⟩ := List.mem_map.mp hx
    have hlive : Live views ⟨side, v.handle, node.1⟩ node.2 := by
      refine live_of_mem ?_ hnode
      rw [hviews]
      simp only [List.mem_append, List.mem_cons] at hv ⊢
      tauto
    have heq := (h.unique _ _ _ _ hlive htarget hid).1
    exact hhandles (List.mem_map.mpr ⟨v, hv, congrArg OrderLocation.levelIndex heq⟩)

theorem levels_nonempty (h : BookRep book place views) (side : Side) :
    ∀ level ∈ (views side).map LevelView.toLevel, level.orders ≠ [] := by
  intro level hlevel
  obtain ⟨v, hv, rfl⟩ := List.mem_map.mp hlevel
  have hne := h.occupied side v hv
  simpa [LevelView.toLevel] using hne

/-- The logical book after an order has left the views. -/
theorem toBook_erase (h : BookRep book place views) (hviews : views side = pre ++ view :: post)
    (hnodes : view.nodes = xs ++ (slot, order) :: ys) (instrument : InstrumentId) (free : List ℕ) :
    Views.toBook instrument (Function.update views side
        (pre ++ (LevelView.kept ⟨view.price, view.handle, xs ++ ys, free⟩ ++ post))) =
      (Views.toBook instrument views).erase side order.id := by
  obtain ⟨hxs, hother⟩ := h.ids_ne hviews hnodes
  have hne : ∀ level ∈ pre.map LevelView.toLevel ++ post.map LevelView.toLevel, level.orders ≠ [] := by
    intro level hlevel
    refine h.levels_nonempty side level ?_
    rw [hviews, List.map_append, List.map_cons]
    simp only [List.mem_append, List.mem_cons] at hlevel ⊢
    tauto
  rw [List.map_append] at hxs hother
  have herase : Logical.eraseOrder order.id (pre.map LevelView.toLevel ++
      ⟨view.price, xs.map Prod.snd ++ order :: ys.map Prod.snd⟩ :: post.map LevelView.toLevel) = _ :=
    Logical.eraseOrder_split hxs hother hne
  rw [toBook_update, Logical.Book.erase, toBook_side, hviews]
  congr 1
  rw [List.map_append, List.map_append, kept_map_toLevel, List.map_append, List.map_cons]
  simp only [LevelView.toLevel, hnodes, List.map_append, List.map_cons] at herase ⊢
  exact herase.symm

theorem slots_nodup (h : BookRep book place views) (hview : view ∈ views side) :
    (view.nodes.map Prod.fst).Nodup := by
  obtain ⟨level, _, hrep⟩ := (h.sides side).level view hview
  exact hrep.slots_nodup

theorem occupied_erase (h : BookRep book place views) (hviews : views side = pre ++ view :: post)
    (free : List ℕ) (s : Side) :
    ∀ v ∈ Function.update views side
      (pre ++ (LevelView.kept ⟨view.price, view.handle, xs ++ ys, free⟩ ++ post)) s, v.nodes ≠ [] := by
  intro v hv
  by_cases hs : s = side
  · subst hs
    rw [Function.update_self] at hv
    simp only [List.mem_append, mem_kept] at hv
    rcases hv with hv | ⟨hne, rfl⟩ | hv
    · exact h.occupied s v (by simp [hviews, hv])
    · exact hne
    · exact h.occupied s v (by simp [hviews, hv])
  · rw [Function.update_of_ne hs] at hv
    exact h.occupied s v hv

/-- Cancelling and moving unlink an order before its index entry is removed. -/
theorem detach (hcap : indexCapacity LEVELS ORDERS ≤ 2 ^ 32) (h : BookRep book place views)
    (hviews : views side = pre ++ view :: post) (hnodes : view.nodes = xs ++ (slot, order) :: ys)
    (levelMessage orderMessage : String) :
    ∃ book₁ book₂ place₂, book.unlinkOrder ⟨side, view.handle, slot⟩ levelMessage orderMessage =
        .ok (stored place order, book₁) ∧
      book₁.removeIndexEntry (place order.id) order.id =
        .ok (some ⟨side, view.handle, slot⟩, book₂) ∧
      book₂.instrument = book.instrument ∧
      BookRep book₂ place₂ (Function.update views side
        (pre ++ (LevelView.kept ⟨view.price, view.handle, xs ++ ys, slot :: view.free⟩ ++ post))) := by
  have hview : view ∈ views side := by simp [hviews]
  have htarget : Live views ⟨side, view.handle, slot⟩ order := live_of_mem hview (by simp [hnodes])
  obtain ⟨book₁, hunlink, hinstrument, hindex, hsides⟩ := h.sides.unlinkOrder
    (orders_le (addressable hcap) (h.levels_pos hview)) hviews hnodes levelMessage orderMessage
  have hlive := live_erase h.unique (slot :: view.free) hviews (h.sides side).handles_nodup
    (h.slots_nodup hview) hnodes
  obtain ⟨book₂, place₂, hremove, hinstrument₂, hsides₂, hindex₂⟩ := removeIndexEntry_spec hcap hsides
    (hindex ▸ h.index) htarget (fun l x hl ↦ ((hlive l x).mp hl).1)
    (fun l x hl hid ↦ (hlive l x).mpr ⟨hl, hid⟩)
  exact ⟨book₁, book₂, place₂, hunlink, hremove, hinstrument₂.trans hinstrument, hsides₂,
    h.occupied_erase hviews _, hindex₂.congr hlive⟩

/-- A filled order leaves the index before its level. -/
theorem removeFilledOrder (hcap : indexCapacity LEVELS ORDERS ≤ 2 ^ 32) (h : BookRep book place views)
    (hviews : views side = pre ++ view :: post) (hnodes : view.nodes = xs ++ (slot, order) :: ys) :
    ∃ book' place', book.removeFilledOrder ⟨side, view.handle, slot⟩ order.id (place order.id)
        order.quantity = .ok book' ∧
      book'.instrument = book.instrument ∧
      BookRep book' place' (Function.update views side
        (pre ++ (LevelView.kept ⟨view.price, view.handle, xs ++ ys, slot :: view.free⟩ ++ post))) := by
  have hview : view ∈ views side := by simp [hviews]
  have htarget : Live views ⟨side, view.handle, slot⟩ order := live_of_mem hview (by simp [hnodes])
  obtain ⟨book₁, place₁, hremove, hinstrument₁, hsides₁, hindex₁⟩ := removeIndexEntry_spec hcap h.sides
    h.index htarget (fun _ _ hl ↦ hl) (fun _ _ hl _ ↦ hl)
  obtain ⟨book₂, hunlink, hinstrument₂, hindex₂, hsides₂⟩ := hsides₁.unlinkOrder
    (orders_le (addressable hcap) (h.levels_pos hview)) hviews hnodes
      "plan level is occupied" "plan maker is live"
  refine ⟨book₂, place₁, ?_, hinstrument₂.trans hinstrument₁, hsides₂, h.occupied_erase hviews _, ?_⟩
  · unfold OrderBook.removeFilledOrder
    simp only [hremove, Run.ok_bind, decide_true, Run.debugAssert_true, hunlink, stored_quantity]
    rfl
  · rw [hindex₂]
    exact hindex₁.congr (live_erase h.unique _ hviews (h.sides side).handles_nodup
      (h.slots_nodup hview) hnodes)

end BookRep

end DeterministicExchange.Book
