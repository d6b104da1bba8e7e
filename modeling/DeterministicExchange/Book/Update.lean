import DeterministicExchange.Book.IndexUpdate

/-!
# Updates of the order book

What the elementary updates of a represented book do to its views: removing an
index entry, unlinking an order and dropping an emptied level, appending an
order at the tail of its level. The index entry of an order is removed while
the order still rests, when it is filled, and after it was unlinked, when it is
cancelled or moved; `removeIndexEntry_spec` covers both orders.
-/

namespace DeterministicExchange.Book

open Machine ProbeTable OrderIndex

variable {LEVELS ORDERS : ℕ}

namespace OrderBook

variable (book : OrderBook LEVELS ORDERS) (side s : Side)

theorem sideLevels_setSideLevels (levels : Vector (Option (PriceLevel ORDERS)) LEVELS) :
    (book.setSideLevels side levels).sideLevels s =
      if s = side then levels else book.sideLevels s := by
  cases side <;> cases s <;> rfl

@[simp] theorem sideIndex_setSideLevels (levels : Vector (Option (PriceLevel ORDERS)) LEVELS) :
    (book.setSideLevels side levels).sideIndex s = book.sideIndex s := by
  cases side <;> cases s <;> rfl

@[simp] theorem index_setSideLevels (levels : Vector (Option (PriceLevel ORDERS)) LEVELS) :
    (book.setSideLevels side levels).index = book.index := by
  cases side <;> rfl

@[simp] theorem instrument_setSideLevels (levels : Vector (Option (PriceLevel ORDERS)) LEVELS) :
    (book.setSideLevels side levels).instrument = book.instrument := by
  cases side <;> rfl

@[simp] theorem sideLevels_setSideIndex (sorted : LevelIndex LEVELS) :
    (book.setSideIndex side sorted).sideLevels s = book.sideLevels s := by
  cases side <;> cases s <;> rfl

theorem sideIndex_setSideIndex (sorted : LevelIndex LEVELS) :
    (book.setSideIndex side sorted).sideIndex s = if s = side then sorted else book.sideIndex s := by
  cases side <;> cases s <;> rfl

@[simp] theorem index_setSideIndex (sorted : LevelIndex LEVELS) :
    (book.setSideIndex side sorted).index = book.index := by
  cases side <;> rfl

@[simp] theorem instrument_setSideIndex (sorted : LevelIndex LEVELS) :
    (book.setSideIndex side sorted).instrument = book.instrument := by
  cases side <;> rfl

theorem sideLevels_putLevel (i : ℕ) (level : Option (PriceLevel ORDERS)) :
    (book.putLevel side i level).sideLevels s =
      if s = side then (book.sideLevels side).setIfInBounds i level else book.sideLevels s :=
  sideLevels_setSideLevels _ _ _ _

@[simp] theorem sideIndex_putLevel (i : ℕ) (level : Option (PriceLevel ORDERS)) :
    (book.putLevel side i level).sideIndex s = book.sideIndex s := sideIndex_setSideLevels _ _ _ _

@[simp] theorem index_putLevel (i : ℕ) (level : Option (PriceLevel ORDERS)) :
    (book.putLevel side i level).index = book.index := index_setSideLevels _ _ _

@[simp] theorem instrument_putLevel (i : ℕ) (level : Option (PriceLevel ORDERS)) :
    (book.putLevel side i level).instrument = book.instrument := instrument_setSideLevels _ _ _

@[simp] theorem sideLevels_with_index (index : OrderIndex LEVELS ORDERS) :
    ({ book with index } : OrderBook LEVELS ORDERS).sideLevels s = book.sideLevels s := by
  cases s <;> rfl

@[simp] theorem sideIndex_with_index (index : OrderIndex LEVELS ORDERS) :
    ({ book with index } : OrderBook LEVELS ORDERS).sideIndex s = book.sideIndex s := by
  cases s <;> rfl

variable {book side} {i : ℕ} {level : PriceLevel ORDERS}

theorem expectLevel_of_get (h : (book.sideLevels side)[i]? = some (some level)) (message : String) :
    book.expectLevel side i message = .ok level := by
  unfold expectLevel
  rw [Run.read_eq_ok.mpr h]
  rfl

theorem level?_of_get (h : (book.sideLevels side)[i]? = some (some level)) :
    book.level? side i = some level := by
  unfold level?
  rw [h]
  rfl

end OrderBook

/-! ## Live orders -/

theorem live_of_mem {views : Views} {side : Side} {view : LevelView} {slot : ℕ}
    {order : Logical.Order} (hview : view ∈ views side) (hnode : (slot, order) ∈ view.nodes) :
    Live views ⟨side, view.handle, slot⟩ order := ⟨view, hview, rfl, hnode⟩

theorem live_update {views : Views} {side : Side} {vs : List LevelView} {l : OrderLocation}
    {x : Logical.Order} :
    Live (Function.update views side vs) l x ↔
      (if l.side = side then ∃ view ∈ vs, view.handle = l.levelIndex ∧ (l.slot, x) ∈ view.nodes
        else Live views l x) := by
  unfold Live
  split
  · next h =>
    rw [h, Function.update_self]
  · next h =>
    rw [Function.update_of_ne h]

namespace SidesRep

variable {book : OrderBook LEVELS ORDERS} {place place' : OrderId → U32} {views : Views}
  {side : Side} {pre post : List LevelView} {view view' : LevelView}

theorem congr (h : SidesRep book place views)
    (heq : ∀ l x, Live views l x → place x.id = place' x.id) : SidesRep book place' views := by
  intro s
  refine (h s).congr ?_
  intro v hv node hnode
  exact heq _ _ (live_of_mem hv hnode)

theorem with_index (h : SidesRep book place views) (index : OrderIndex LEVELS ORDERS) :
    SidesRep { book with index } place views := by
  intro s
  rw [OrderBook.sideLevels_with_index, OrderBook.sideIndex_with_index]
  exact h s

/-- Overwriting one level. -/
theorem putLevel (h : SidesRep book place views) (hviews : views side = pre ++ view :: post)
    {level' : PriceLevel ORDERS} (hprice : view'.price = view.price)
    (hhandle : view'.handle = view.handle) (hrep : LevelRep place' level' view')
    (heq : ∀ l x, Live (Function.update views side (pre ++ post)) l x → place x.id = place' x.id) :
    SidesRep (book.putLevel side view.handle (some level')) place'
      (Function.update views side (pre ++ view' :: post)) := by
  intro s
  rw [OrderBook.sideLevels_putLevel, OrderBook.sideIndex_putLevel]
  by_cases hs : s = side
  · subst hs
    have hside := h s
    rw [hviews] at hside
    rw [if_pos rfl, Function.update_self]
    refine hside.set hprice hhandle hrep ?_
    intro v hv node hnode
    refine heq ⟨s, v.handle, node.1⟩ node.2 ?_
    rw [live_update, if_pos rfl]
    exact ⟨v, hv, rfl, hnode⟩
  · rw [if_neg hs, Function.update_of_ne hs]
    refine (h s).congr ?_
    intro v hv node hnode
    refine heq ⟨s, v.handle, node.1⟩ node.2 ?_
    rw [live_update, if_neg hs]
    exact ⟨v, hv, rfl, hnode⟩

end SidesRep

/-! ## Removing an index entry -/

section RemoveIndexEntry

variable {book : OrderBook LEVELS ORDERS} {place : OrderId → U32} {views : Views}

/-- Moving the index entry of a live order rewrites its stored handle. -/
theorem updateReverseSlot_spec (h : SidesRep book place views) (huniq : UniqueIds (Live views))
    {l : OrderLocation} {x : Logical.Order} (hlive : Live views l x) (newSlot : U32) :
    ∃ book', OrderBook.updateReverseSlot x.id l newSlot book = (true, book') ∧
      book'.instrument = book.instrument ∧ book'.index = book.index ∧
      SidesRep book' (Function.update place x.id newSlot) views := by
  obtain ⟨view, hview, hhandle, hnode⟩ := hlive
  obtain ⟨level, hget, hrep⟩ := (h l.side).level view hview
  obtain ⟨pre, post, hviews⟩ := List.append_of_mem hview
  obtain ⟨xs, ys, hnodes⟩ := List.append_of_mem hnode
  have hlive : Live views l x := ⟨view, hview, hhandle, hnode⟩
  refine ⟨book.putLevel l.side view.handle (some (level.setIndexSlot l.slot (stored place x) newSlot)),
    ?_, by simp, by simp, ?_⟩
  · unfold OrderBook.updateReverseSlot
    rw [← hhandle, OrderBook.level?_of_get hget]
    simp only [hrep.getLive_of_mem hnode, stored_id, ne_eq, not_true_eq_false, if_false]
  · have hsame (l' : OrderLocation) (x' : Logical.Order) (hlive' : Live views l' x')
        (hne : l' ≠ l) : place x'.id = Function.update place x.id newSlot x'.id := by
      rw [Function.update_of_ne]
      intro hid
      exact hne (huniq l' x' l x hlive' hlive hid).1
    have hslots := hrep.slots_nodup
    rw [hnodes, List.map_append, List.map_cons] at hslots
    have hout := (List.nodup_cons.mp (List.nodup_middle.mp hslots)).1
    rw [← List.map_append] at hout
    have hother : ∀ node ∈ xs ++ ys, place node.2.id = Function.update place x.id newSlot node.2.id := by
      intro node hmem
      refine hsame ⟨l.side, view.handle, node.1⟩ node.2 (live_of_mem hview ?_) ?_
      · rw [hnodes]
        simp only [List.mem_append, List.mem_cons] at hmem ⊢
        tauto
      · intro heq
        exact hout (List.mem_map.mpr ⟨node, hmem, congrArg OrderLocation.slot heq⟩)
    have hrep' : LevelRep (Function.update place x.id newSlot)
        (level.setIndexSlot l.slot (stored place x) newSlot) view := by
      refine ⟨hrep.price, ?_⟩
      have hqueue := hrep.queue
      rw [hnodes, storedNodes_append, storedNodes_cons] at hqueue ⊢
      rw [← storedNodes_congr fun node hmem ↦ hother node (List.mem_append_left _ hmem),
        ← storedNodes_congr fun node hmem ↦ hother node (List.mem_append_right _ hmem)]
      have hstored : stored (Function.update place x.id newSlot) x =
          { stored place x with indexSlot := newSlot } := by
        simp [stored]
      rw [hstored]
      exact hqueue.setIndexSlot newSlot
    have hput := h.putLevel hviews rfl rfl hrep' ?_
    · rw [← hviews, Function.update_eq_self] at hput
      exact hput
    · intro l' x' hlive'
      rw [live_update] at hlive'
      have hnodup := (h l.side).handles_nodup
      rw [hviews, List.map_append, List.map_cons] at hnodup
      have hhandles := (List.nodup_cons.mp (List.nodup_middle.mp hnodup)).1
      rw [← List.map_append] at hhandles
      split at hlive'
      · next hside =>
        obtain ⟨v, hv, hvh, hvn⟩ := hlive'
        refine hsame l' x' ⟨v, ?_, hvh, hvn⟩ ?_
        · rw [hside, hviews]
          simp only [List.mem_append, List.mem_cons] at hv ⊢
          tauto
        · rintro rfl
          exact hhandles (List.mem_map.mpr ⟨v, hv, hvh.trans hhandle.symm⟩)
      · next hside =>
        exact hsame l' x' hlive' fun heq ↦ hside (by rw [heq])

/-- The index entry of `order` leaves; the places of other orders may change. -/
theorem removeIndexEntry_spec (hcap : indexCapacity LEVELS ORDERS ≤ 2 ^ 32)
    (hsides : SidesRep book place views) {live : OrderLocation → Logical.Order → Prop}
    (hindex : IndexRep place book.index live) {location : OrderLocation} {order : Logical.Order}
    (hlive : live location order) (hresting : ∀ l x, Live views l x → live l x)
    (hother : ∀ l x, live l x → x.id ≠ order.id → Live views l x) :
    ∃ book' place', book.removeIndexEntry (place order.id) order.id = .ok (some location, book') ∧
      book'.instrument = book.instrument ∧ SidesRep book' place' views ∧
      IndexRep place' book'.index (fun l x ↦ live l x ∧ x.id ≠ order.id) := by
  have hpos := hindex.capacity_pos hlive
  have huniq : UniqueIds (Live views) := fun l x l' x' h h' ↦
    hindex.unique l x l' x' (hresting l x h) (hresting l' x' h')
  obtain ⟨encoded, hencode, hslot⟩ := hindex.slot_of_live hlive
  have hlt := lt_of_slot hslot
  have hdecode := decodeLocation_encodeLocation hencode
  let related (slots : OrderIndex LEVELS ORDERS) (state : OrderBook LEVELS ORDERS) : Prop :=
    state.instrument = book.instrument ∧ ∃ place', SidesRep state place' views ∧
      ∀ pos id encoded, slot slots pos = some (id, encoded) ↔
        ∃ l x, (live l x ∧ x.id ≠ order.id) ∧ x.id = id ∧ (place' id).val = pos ∧
          encodeLocation LEVELS ORDERS l = some encoded
  have hstart : related (store book.index (place order.id).val none) book := by
    refine ⟨rfl, place, hsides, ?_⟩
    intro pos id encoded'
    rw [slot_store _ _ _ hlt]
    constructor
    · intro hpos
      split at hpos
      · simp at hpos
      · next hne =>
        obtain ⟨l, x, hl, rfl, rfl, hrest⟩ := (hindex.entry _ _ _).mp hpos
        refine ⟨l, x, ⟨hl, ?_⟩, rfl, rfl, hrest⟩
        intro hid
        exact hne (by rw [hid])
    · rintro ⟨l, x, ⟨hl, hne⟩, rfl, rfl, hrest⟩
      have hx := (hindex.entry _ _ _).mpr ⟨l, x, hl, rfl, rfl, hrest⟩
      rw [if_neg, hx]
      intro heq
      rw [heq, hslot] at hx
      exact hne (congrArg Prod.fst (Option.some.inj hx)).symm
  have hmoved : ∀ slots state key value hole candidate, related slots state →
      hole < indexCapacity LEVELS ORDERS → hole ≠ candidate → slot slots hole = none →
      slot slots candidate = some (key, value) →
      ∃ state', reportMove LEVELS ORDERS OrderBook.updateReverseSlot key value hole state =
          .ok (some state') ∧
        related (store (store slots hole (some (key, value))) candidate none) state' := by
    intro slots state key value hole candidate hrel hhole hne hvacant hcandidate
    obtain ⟨hinstrument, place', hsides', htable⟩ := hrel
    obtain ⟨l, x, ⟨hl, hxne⟩, rfl, hplace, hxencode⟩ := (htable _ _ _).mp hcandidate
    have hole32 : hole < 2 ^ 32 := by omega
    obtain ⟨state', hupdate, hinstrument', _, hsides''⟩ :=
      updateReverseSlot_spec hsides' huniq (hother l x hl hxne) ⟨hole, hole32⟩
    refine ⟨state', ?_, hinstrument'.trans hinstrument, _, hsides'', ?_⟩
    · unfold reportMove
      rw [decodeLocation_encodeLocation hxencode]
      simp only [Unsigned.ofNat?_of_lt hole32, Run.expect_some, Run.ok_bind, hupdate,
        Run.debugAssert_true]
      rfl
    · intro pos id encoded'
      have hcand := lt_of_slot hcandidate
      rw [slot_store _ _ _ hcand, slot_store _ _ _ hhole]
      by_cases hid : id = x.id
      · subst hid
        rw [Function.update_self]
        constructor
        · intro hpos
          split at hpos
          · simp at hpos
          · split at hpos
            · next hpos' =>
              obtain ⟨_, rfl⟩ : x.id = x.id ∧ value = encoded' := by simpa using hpos
              exact ⟨l, x, ⟨hl, hxne⟩, rfl, hpos'.symm, hxencode⟩
            · next hcandne hholene =>
              obtain ⟨_, _, _, _, hplace', _⟩ := (htable _ _ _).mp hpos
              exact absurd (hplace'.symm.trans hplace) hcandne
        · rintro ⟨l', x', ⟨hl', _⟩, hx', hpos, hencode'⟩
          obtain ⟨rfl, rfl⟩ := hindex.unique l' x' l x hl' hl hx'
          rw [if_neg (fun h ↦ hne (hpos.trans h)), if_pos hpos.symm]
          rw [hencode'] at hxencode
          rw [Option.some.inj hxencode]
      · rw [Function.update_of_ne hid]
        constructor
        · intro hpos
          split at hpos
          · simp at hpos
          · split at hpos
            · exact absurd (congrArg Prod.fst (Option.some.inj hpos)).symm hid
            · exact (htable _ _ _).mp hpos
        · intro hentry
          have hpos := (htable _ _ _).mpr hentry
          rw [if_neg, if_neg, hpos]
          · rintro rfl
            rw [hvacant] at hpos
            simp at hpos
          · rintro rfl
            rw [hcandidate] at hpos
            exact hid (congrArg Prod.fst (Option.some.inj hpos)).symm
  obtain ⟨slots', state', hremove, hprobed, hinstrument, place', hsides', htable⟩ :=
    removeAt_spec Fault.diverged related (addressable hcap) (probeStart_lt hpos) hmoved hindex.probed
      (by rw [hslot]; simp) hstart (hindex.exists_vacant hpos)
  refine ⟨{ state' with index := slots' }, place', ?_, hinstrument, hsides'.with_index slots',
    hprobed, htable, ?_, ?_, ?_⟩
  · unfold OrderBook.removeIndexEntry OrderIndex.removeAt
    rw [if_neg (by omega), hslot]
    simp only [hdecode, ne_eq, not_true_eq_false, if_false, hremove, Run.ok_bind, if_true]
    rfl
  · exact fun l x h ↦ hindex.inRange l x h.1
  · exact fun l x x' h h' ↦ hindex.functional l x x' h.1 h'.1
  · exact fun l x l' x' h h' ↦ hindex.unique l x l' x' h.1 h'.1

end RemoveIndexEntry

end DeterministicExchange.Book
