import DeterministicExchange.Book.Representation

/-!
# Updates of the order index

Lookup, insertion and removal in the shared order index of a represented book.
At most half of the index positions are ever occupied, since the locations of
the live orders are distinct, so every probe meets a vacant position.
-/

namespace DeterministicExchange.Book

open Machine ProbeTable OrderIndex

variable {LEVELS ORDERS : ℕ}

namespace IndexRep

variable {place : OrderId → U32} {index : OrderIndex LEVELS ORDERS}
  {live : OrderLocation → Logical.Order → Prop}

theorem slot_of_live (h : IndexRep place index live) {location : OrderLocation}
    {order : Logical.Order} (hlive : live location order) :
    ∃ encoded, encodeLocation LEVELS ORDERS location = some encoded ∧
      slot index (place order.id).val = some (order.id, encoded) := by
  have hencode := encodeLocation_of_inRange (h.inRange location order hlive)
  exact ⟨_, hencode, (h.entry _ _ _).mpr ⟨location, order, hlive, rfl, rfl, hencode⟩⟩

theorem capacity_pos (h : IndexRep place index live) {location : OrderLocation}
    {order : Logical.Order} (hlive : live location order) : 0 < indexCapacity LEVELS ORDERS := by
  obtain ⟨_, _, hslot⟩ := h.slot_of_live hlive
  exact (Nat.zero_le _).trans_lt (lt_of_slot hslot)

/-- Occupied positions hold distinct encoded locations, which fill at most half of the index. -/
theorem exists_vacant (h : IndexRep place index live) (hpos : 0 < indexCapacity LEVELS ORDERS) :
    ∃ e, e < indexCapacity LEVELS ORDERS ∧ slot index e = none := by
  by_contra hnone
  push Not at hnone
  have hencoded (e : ℕ) (he : e < indexCapacity LEVELS ORDERS) :
      ∃ id encoded, slot index e = some (id, encoded) := by
    obtain ⟨⟨id, encoded⟩, hslot⟩ := Option.ne_none_iff_exists'.mp (hnone e he)
    exact ⟨id, encoded, hslot⟩
  have hmaps : Set.MapsTo (fun e ↦ (slot index e).elim 0 Prod.snd)
      (Finset.range (indexCapacity LEVELS ORDERS) : Set ℕ)
      (Finset.Icc 1 (2 * (LEVELS * ORDERS)) : Set ℕ) := by
    intro e he
    obtain ⟨id, encoded, hslot⟩ := hencoded e (by simpa using he)
    obtain ⟨location, _, _, _, _, hencode⟩ := (h.entry _ _ _).mp hslot
    have hbounds := encodeLocation_bounds hencode
    simp [hslot, hbounds]
  have hinj : Set.InjOn (fun e ↦ (slot index e).elim 0 Prod.snd)
      (Finset.range (indexCapacity LEVELS ORDERS) : Set ℕ) := by
    intro e he e' he' heq
    obtain ⟨id, encoded, hslot⟩ := hencoded e (by simpa using he)
    obtain ⟨id', encoded', hslot'⟩ := hencoded e' (by simpa using he')
    simp only [hslot, hslot', Option.elim_some] at heq
    obtain ⟨location, order, hlive, rfl, rfl, hencode⟩ := (h.entry _ _ _).mp hslot
    obtain ⟨location', order', hlive', rfl, rfl, hencode'⟩ := (h.entry _ _ _).mp hslot'
    have hlocation : location = location' := by
      have hdecode := decodeLocation_encodeLocation hencode
      rw [heq, decodeLocation_encodeLocation hencode'] at hdecode
      exact (Option.some.inj hdecode).symm
    subst hlocation
    rw [h.functional location order order' hlive hlive']
  have hcard := Finset.card_le_card_of_injOn _ hmaps hinj
  rw [Finset.card_range, Nat.card_Icc] at hcard
  unfold indexCapacity orderIndexPlanes at hcard hpos
  omega

theorem absent_slot (h : IndexRep place index live) {id : OrderId}
    (habsent : ∀ location order, live location order → order.id ≠ id) (pos encoded : ℕ) :
    slot index pos ≠ some (id, encoded) := by
  intro hslot
  obtain ⟨location, order, hlive, hid, _⟩ := (h.entry _ _ _).mp hslot
  exact habsent location order hlive hid

/-- The index resolves exactly the live orders. -/
theorem location_eq_some (hcap : indexCapacity LEVELS ORDERS ≤ 2 ^ 63) (h : IndexRep place index live)
    {id : OrderId} {location : OrderLocation} :
    OrderIndex.location index id = some location ↔ ∃ order, live location order ∧ order.id = id := by
  by_cases hlive : ∃ location' order, live location' order ∧ order.id = id
  · obtain ⟨location', order, hlive, rfl⟩ := hlive
    have hpos := h.capacity_pos hlive
    obtain ⟨encoded, hencode, hslot⟩ := h.slot_of_live hlive
    have hprobe := probe_of_slot hcap (probeStart_lt hpos) h.probed hslot
    have hlocation : OrderIndex.location index order.id = some location' := by
      unfold OrderIndex.location OrderIndex.findSlot
      rw [if_neg hpos.ne', hprobe]
      simp [hslot, decodeLocation_encodeLocation hencode]
    rw [hlocation]
    constructor
    · intro heq
      obtain rfl := Option.some.inj heq
      exact ⟨order, hlive, rfl⟩
    · rintro ⟨order', hlive', hid⟩
      rw [(h.unique _ _ _ _ hlive hlive' hid.symm).1]
  · have hlocation : OrderIndex.location index id = none := by
      unfold OrderIndex.location OrderIndex.findSlot
      by_cases hpos : indexCapacity LEVELS ORDERS = 0
      · rw [if_pos hpos]
        rfl
      · have habsent : ∀ location order, live location order → order.id ≠ id :=
          fun location order hl hid ↦ hlive ⟨location, order, hl, hid⟩
        obtain ⟨i, hprobe, _⟩ := probe_of_absent hcap (probeStart_lt (Nat.pos_of_ne_zero hpos))
          (h.absent_slot habsent) (h.exists_vacant (Nat.pos_of_ne_zero hpos))
        rw [if_neg hpos, hprobe]
        rfl
    rw [hlocation]
    simp only [reduceCtorEq, false_iff]
    rintro ⟨order, hl, hid⟩
    exact hlive ⟨location, order, hl, hid⟩

/-- Indexing a new order at an unused location is refused only at a position beyond 32 bits. -/
theorem insert_builds (hcap : indexCapacity LEVELS ORDERS ≤ 2 ^ 63) (h : IndexRep place index live)
    {location : OrderLocation} {order : Logical.Order} (hrange : InRange LEVELS ORDERS location)
    (habsent : ∀ l x, live l x → x.id ≠ order.id) (hfresh : ∀ x, ¬ live location x) :
    (∃ reason, OrderIndex.insert index order.id location = .error reason ∧
        2 ^ 32 < indexCapacity LEVELS ORDERS) ∨
      ∃ indexSlot index', OrderIndex.insert index order.id location = .ok (indexSlot, index') ∧
        IndexRep (Function.update place order.id indexSlot) index'
          (fun l x ↦ live l x ∨ l = location ∧ x = order) := by
  have hpos : 0 < indexCapacity LEVELS ORDERS := by
    obtain ⟨h1, h2⟩ := hrange
    exact Nat.mul_pos (Nat.mul_pos (by omega) (by omega)) (by decide)
  have hencode := encodeLocation_of_inRange hrange
  obtain ⟨i, hprobe, hi, hnone, hpath⟩ := probe_of_absent hcap (probeStart_lt hpos)
    (h.absent_slot habsent) (h.exists_vacant hpos)
  by_cases hi32 : i < 2 ^ 32
  swap
  · refine .inl ⟨.orderCapacity, ?_, by omega⟩
    unfold OrderIndex.insert
    rw [if_neg hpos.ne', hencode]
    simp only [hprobe, Unsigned.ofNat?_eq_none.mpr (not_lt.mp hi32)]
  have hinsert : OrderIndex.insert index order.id location = .ok (⟨i, hi32⟩, store index i
      (some (order.id, (location.levelIndex * ORDERS + location.slot) * 2 +
        (if location.side = .sell then 1 else 0) + 1))) := by
    unfold OrderIndex.insert
    rw [if_neg hpos.ne', hencode]
    simp only [hprobe, Unsigned.ofNat?_of_lt hi32]
  refine .inr ⟨⟨i, hi32⟩, _, hinsert, ?_, ?_, ?_, ?_, ?_⟩
  · exact h.probed.store hi (h.absent_slot habsent) hpath
  · intro pos id encoded
    rw [slot_store _ _ _ hi]
    by_cases hid : id = order.id
    · subst hid
      constructor
      · intro hslot
        split at hslot
        · next heq =>
          obtain ⟨_, rfl⟩ : order.id = order.id ∧ _ := by simpa using hslot
          exact ⟨location, order, .inr ⟨rfl, rfl⟩, rfl, by simp [heq], hencode⟩
        · exact absurd hslot (h.absent_slot habsent _ _)
      · rintro ⟨l, x, hlive | ⟨rfl, rfl⟩, hx, hplace, hl⟩
        · exact absurd hx (habsent l x hlive)
        · rw [Function.update_self] at hplace
          rw [if_pos hplace.symm]
          rw [hencode] at hl
          rw [Option.some.inj hl]
    · rw [Function.update_of_ne hid]
      constructor
      · intro hslot
        split at hslot
        · exact absurd (congrArg Prod.fst (Option.some.inj hslot)).symm hid
        · obtain ⟨l, x, hlive, hrest⟩ := (h.entry _ _ _).mp hslot
          exact ⟨l, x, .inl hlive, hrest⟩
      · rintro ⟨l, x, hlive | ⟨rfl, rfl⟩, hx, hplace, hl⟩
        · have hslot := (h.entry pos id encoded).mpr ⟨l, x, hlive, hx, hplace, hl⟩
          rw [if_neg, hslot]
          rintro rfl
          rw [hnone] at hslot
          simp at hslot
        · exact absurd hx.symm hid
  · rintro l x (hlive | ⟨rfl, rfl⟩)
    · exact h.inRange l x hlive
    · exact hrange
  · rintro l x x' (hlive | ⟨rfl, rfl⟩) (hlive' | ⟨hl, rfl⟩)
    · exact h.functional l x x' hlive hlive'
    · subst hl
      exact absurd hlive (hfresh x)
    · exact absurd hlive' (hfresh x')
    · rfl
  · rintro l x l' x' (hlive | ⟨rfl, rfl⟩) (hlive' | ⟨rfl, rfl⟩) hid
    · exact h.unique l x l' x' hlive hlive' hid
    · exact absurd hid (habsent l x hlive)
    · exact absurd hid.symm (habsent l' x' hlive')
    · exact ⟨rfl, rfl⟩

theorem insert (hcap : indexCapacity LEVELS ORDERS ≤ 2 ^ 32) (h : IndexRep place index live)
    {location : OrderLocation} {order : Logical.Order} (hrange : InRange LEVELS ORDERS location)
    (habsent : ∀ l x, live l x → x.id ≠ order.id) (hfresh : ∀ x, ¬ live location x) :
    ∃ indexSlot index', OrderIndex.insert index order.id location = .ok (indexSlot, index') ∧
      IndexRep (Function.update place order.id indexSlot) index'
        (fun l x ↦ live l x ∨ l = location ∧ x = order) :=
  (h.insert_builds (addressable hcap) hrange habsent hfresh).resolve_left fun ⟨_, _, hlarge⟩ ↦
    hlarge.not_ge hcap

theorem congr {live' : OrderLocation → Logical.Order → Prop} (h : IndexRep place index live)
    (heq : ∀ l x, live' l x ↔ live l x) : IndexRep place index live' := by
  have : live' = live := by
    funext l x
    exact propext (heq l x)
  rw [this]
  exact h

/-- Amending orders in place, without changing their ids. -/
theorem amend {live' : OrderLocation → Logical.Order → Prop} (h : IndexRep place index live)
    (f : OrderLocation → Logical.Order → Logical.Order) (hf : ∀ l x, (f l x).id = x.id)
    (heq : ∀ l y, live' l y ↔ ∃ x, live l x ∧ y = f l x) : IndexRep place index live' where
  probed := h.probed
  entry := by
    intro pos id encoded
    rw [h.entry]
    constructor
    · rintro ⟨l, x, hlive, hid, hrest⟩
      exact ⟨l, f l x, (heq _ _).mpr ⟨x, hlive, rfl⟩, by rw [hf, hid], hrest⟩
    · rintro ⟨l, y, hlive, hid, hrest⟩
      obtain ⟨x, hx, rfl⟩ := (heq _ _).mp hlive
      exact ⟨l, x, hx, by rw [← hid, hf], hrest⟩
  inRange := by
    intro l y hlive
    obtain ⟨x, hx, rfl⟩ := (heq _ _).mp hlive
    exact h.inRange l x hx
  functional := by
    intro l y y' hlive hlive'
    obtain ⟨x, hx, rfl⟩ := (heq _ _).mp hlive
    obtain ⟨x', hx', rfl⟩ := (heq _ _).mp hlive'
    rw [h.functional l x x' hx hx']
  unique := by
    intro l y l' y' hlive hlive' hid
    obtain ⟨x, hx, rfl⟩ := (heq _ _).mp hlive
    obtain ⟨x', hx', rfl⟩ := (heq _ _).mp hlive'
    rw [hf, hf] at hid
    obtain ⟨rfl, rfl⟩ := h.unique l x l' x' hx hx' hid
    exact ⟨rfl, rfl⟩

end IndexRep

end DeterministicExchange.Book
