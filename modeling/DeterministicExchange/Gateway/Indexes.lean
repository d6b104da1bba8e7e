import DeterministicExchange.Book.OrderIndex
import DeterministicExchange.Container.HashedIndex
import DeterministicExchange.Risk.RiskEngine

/-!
# The indexes of a gateway

The order index of a book and the probe index of the risk engine are hashed indexes. They differ in
their keys, in the values that they store, and in what they answer to a refused insertion. Both mix
a key with one multiplication. No property of the mixing is used, so `layout` takes any other.
-/

namespace DeterministicExchange

open Machine

namespace Book.OrderIndex

variable {LEVELS ORDERS : ℕ}

/-- A decoded number is the number of its location. -/
theorem encodeLocation_decodeLocation {encoded : ℕ} (hpos : 1 ≤ encoded)
    (hle : encoded ≤ 2 * (LEVELS * ORDERS)) :
    ∃ location, decodeLocation LEVELS ORDERS encoded = some location ∧
      InRange LEVELS ORDERS location ∧ encodeLocation LEVELS ORDERS location = some encoded := by
  have hproduct : 0 < LEVELS * ORDERS := by omega
  have hORDERS : 0 < ORDERS := Nat.pos_of_mul_pos_left hproduct
  have hflat : (encoded - 1) / 2 < LEVELS * ORDERS := by omega
  have hlevel : (encoded - 1) / 2 / ORDERS < LEVELS :=
    Nat.div_lt_of_lt_mul (by rw [Nat.mul_comm]; exact hflat)
  have hslot : (encoded - 1) / 2 % ORDERS < ORDERS := Nat.mod_lt _ hORDERS
  have hjoin : (encoded - 1) / 2 / ORDERS * ORDERS + (encoded - 1) / 2 % ORDERS = (encoded - 1) / 2 :=
    Nat.div_add_mod' _ _
  refine ⟨⟨if (encoded - 1) % 2 = 0 then .buy else .sell, (encoded - 1) / 2 / ORDERS,
    (encoded - 1) / 2 % ORDERS⟩, ?_, ⟨hlevel, hslot⟩, ?_⟩
  · unfold decodeLocation
    simp only
    rw [if_neg hORDERS.ne', if_neg (Nat.not_le.mpr hlevel)]
  · rw [encodeLocation_of_inRange ⟨hlevel, hslot⟩]
    simp only
    rw [hjoin]
    congr 1
    by_cases hside : (encoded - 1) % 2 = 0
    · simp only [hside, if_true, reduceCtorEq, if_false]
      omega
    · simp only [hside, if_false, if_true]
      omega

/-- The order index of a book, with `mix` in place of the multiplication. -/
def layout (LEVELS ORDERS : ℕ) (mix : OrderId → ℕ) :
    HashedIndex.Layout OrderId OrderLocation (indexCapacity LEVELS ORDERS) where
  start orderId := mix orderId % indexCapacity LEVELS ORDERS
  encode := encodeLocation LEVELS ORDERS
  decode := decodeLocation LEVELS ORDERS
  start_lt hcap _ := Nat.mod_lt _ hcap
  decode_encode _ _ := decodeLocation_encodeLocation

def mixed (orderId : OrderId) : ℕ := orderId.val * 0x9e3779b97f4a7c15 % 2 ^ 64

def refused : HashedIndex.Refusal → RejectReason
  | .full => .orderCapacity
  | .duplicate => .duplicateOrderId

/-- The operations of the book's index are those of a hashed index. -/
structure Hashed (index : OrderIndex LEVELS ORDERS) : Prop where
  findSlot_eq : ∀ orderId, index.findSlot orderId =
    HashedIndex.findSlot (layout LEVELS ORDERS mixed) index orderId
  location_eq : ∀ orderId, index.location orderId =
    HashedIndex.lookup (layout LEVELS ORDERS mixed) index orderId
  insert_eq : ∀ orderId location, index.insert orderId location =
    (HashedIndex.insert (layout LEVELS ORDERS mixed) index orderId location).mapError refused
  removeAt_eq : ∀ (S : Type) slotIndex orderId (update : OrderId → OrderLocation → U32 → S → Bool × S) state,
    index.removeAt slotIndex orderId update state =
      HashedIndex.removeAt (layout LEVELS ORDERS mixed) index slotIndex orderId update state

theorem reportMove_eq {S : Type} (update : OrderId → OrderLocation → U32 → S → Bool × S) :
    reportMove LEVELS ORDERS update = HashedIndex.reportMove (layout LEVELS ORDERS mixed) update := by
  funext orderId encoded hole state
  have hdecode : (layout LEVELS ORDERS mixed).decode encoded = decodeLocation LEVELS ORDERS encoded := rfl
  unfold reportMove HashedIndex.reportMove
  rw [hdecode]
  cases decodeLocation LEVELS ORDERS encoded <;> rfl

theorem insert_eq_hashed (index : OrderIndex LEVELS ORDERS) (orderId : OrderId) (location : OrderLocation) :
    index.insert orderId location =
      (HashedIndex.insert (layout LEVELS ORDERS mixed) index orderId location).mapError refused := by
  have hencode : (layout LEVELS ORDERS mixed).encode location = encodeLocation LEVELS ORDERS location := rfl
  have hstart : (layout LEVELS ORDERS mixed).start orderId = probeStart LEVELS ORDERS orderId := rfl
  unfold OrderIndex.insert HashedIndex.insert
  rw [hencode, hstart]
  split
  · rfl
  · cases encodeLocation LEVELS ORDERS location with
    | none => rfl
    | some encoded =>
      dsimp only
      cases ProbeTable.probe index orderId (probeStart LEVELS ORDERS orderId) with
      | found i => rfl
      | full => rfl
      | vacant i =>
        dsimp only
        cases Unsigned.ofNat? 32 i <;> rfl

theorem removeAt_eq_hashed {S : Type} (index : OrderIndex LEVELS ORDERS) (slotIndex : U32)
    (orderId : OrderId) (update : OrderId → OrderLocation → U32 → S → Bool × S) (state : S) :
    index.removeAt slotIndex orderId update state =
      HashedIndex.removeAt (layout LEVELS ORDERS mixed) index slotIndex orderId update state := by
  have hdecode : (layout LEVELS ORDERS mixed).decode = decodeLocation LEVELS ORDERS := rfl
  have hstart : (layout LEVELS ORDERS mixed).start = probeStart LEVELS ORDERS := rfl
  unfold OrderIndex.removeAt HashedIndex.removeAt
  rw [reportMove_eq, hdecode, hstart]
  split
  · rfl
  · cases ProbeTable.slot index slotIndex.val with
    | none => rfl
    | some entry =>
      dsimp only
      cases decodeLocation LEVELS ORDERS entry.2 with
      | none => rfl
      | some location => rfl

theorem hashed (index : OrderIndex LEVELS ORDERS) : index.Hashed where
  findSlot_eq _ := rfl
  location_eq _ := rfl
  insert_eq := index.insert_eq_hashed
  removeAt_eq _ := index.removeAt_eq_hashed

end Book.OrderIndex

namespace Risk.ProbeIndex

variable {PLANE : ℕ} {S : Type}

/-- The number that keeps a slot; the largest word has none. -/
def encodeSlot (value : ℕ) : Option ℕ := if 2 ^ 64 ≤ value + 1 then none else some (value + 1)

/-- A probe index of the risk engine, with `mix` in place of the multiplication. -/
def layout (PLANE : ℕ) (mix : U64 → ℕ) : HashedIndex.Layout U64 ℕ (PLANE * indexPlanes) where
  start key := mix key % (PLANE * indexPlanes)
  encode := encodeSlot
  decode encoded := some (encoded - 1)
  start_lt hcap _ := Nat.mod_lt _ hcap
  decode_encode := by
    intro value encoded hencode
    unfold encodeSlot at hencode
    split at hencode
    · cases hencode
    · rw [← Option.some.inj hencode]
      rfl

def mixed (key : U64) : ℕ := key.val * 0x9e3779b97f4a7c15 % 2 ^ 64

def refused : HashedIndex.Refusal → ProbeError
  | .full => .full
  | .duplicate => .duplicate

/-- The operations of the risk engine's indexes are those of a hashed index. -/
structure Hashed (index : ProbeIndex PLANE) : Prop where
  findSlot_eq : ∀ key, index.findSlot key = HashedIndex.findSlot (layout PLANE mixed) index key
  lookup_eq : ∀ key, index.lookup key = HashedIndex.lookup (layout PLANE mixed) index key
  insert_eq : ∀ key value, index.insert key value =
    (HashedIndex.insert (layout PLANE mixed) index key value).mapError refused
  removeAt_eq : ∀ (S : Type) flatIndex key (update : U64 → ℕ → U32 → S → Bool × S) state,
    index.removeAt flatIndex key update state =
      HashedIndex.removeAt (layout PLANE mixed) index flatIndex key update state

theorem insert_eq_hashed (index : ProbeIndex PLANE) (key : U64) (value : ℕ) :
    index.insert key value = (HashedIndex.insert (layout PLANE mixed) index key value).mapError refused := by
  have hencode : (layout PLANE mixed).encode value = encodeSlot value := rfl
  have hstart : (layout PLANE mixed).start key = probeStart PLANE key := rfl
  unfold ProbeIndex.insert HashedIndex.insert
  rw [hencode, hstart, encodeSlot]
  split
  · rfl
  · split
    · rfl
    · dsimp only
      cases ProbeTable.probe index key (probeStart PLANE key) with
      | found i => rfl
      | full => rfl
      | vacant i =>
        dsimp only
        cases Unsigned.ofNat? 32 i <;> rfl

/-- A walk that its callback never abandons is completed. -/
theorem closeHole_completed {update : U64 → ℕ → U32 → S → Bool × S} {home : U64 → ℕ} {fuel hole candidate : ℕ}
    {slots slots' : ProbeIndex PLANE} {state state' : S} {closed : Bool}
    (h : ProbeTable.closeHole .diverged home (HashedIndex.reportMove (layout PLANE mixed) update) fuel slots
      hole candidate state = .ok (closed, slots', state')) : closed = true := by
  induction fuel generalizing slots hole candidate state with
  | zero => cases h
  | succ fuel ih =>
    rw [ProbeTable.closeHole] at h
    split at h
    · cases h
      rfl
    · next key encoded _ =>
      split at h
      · split at h
        · cases h
        · next hmoved =>
          unfold HashedIndex.reportMove at hmoved
          obtain ⟨position, _, hmoved⟩ := Run.bind_eq_ok.mp hmoved
          obtain ⟨_, _, hmoved⟩ := Run.bind_eq_ok.mp hmoved
          cases hmoved
        · exact ih h
      · exact ih h

theorem removeAt_eq_hashed (index : ProbeIndex PLANE) (flatIndex : U32) (key : U64)
    (update : U64 → ℕ → U32 → S → Bool × S) (state : S) :
    index.removeAt flatIndex key update state =
      HashedIndex.removeAt (layout PLANE mixed) index flatIndex key update state := by
  have hreport : reportMove update = HashedIndex.reportMove (layout PLANE mixed) update := rfl
  have hstart : (layout PLANE mixed).start = probeStart PLANE := rfl
  unfold ProbeIndex.removeAt HashedIndex.removeAt
  rw [hreport, hstart]
  split
  · rfl
  · cases ProbeTable.slot index flatIndex.val with
    | none => rfl
    | some entry =>
      obtain ⟨indexed, encoded⟩ := entry
      have hdecode : (layout PLANE mixed).decode encoded = some (encoded - 1) := rfl
      simp only [hdecode]
      split
      · rfl
      · cases hwalk : ProbeTable.removeAt .diverged (probeStart PLANE)
            (HashedIndex.reportMove (layout PLANE mixed) update) index flatIndex.val state with
        | error fault => rfl
        | ok result =>
          obtain ⟨closed, slots, state'⟩ := result
          obtain rfl : closed = true := closeHole_completed hwalk
          rfl

theorem hashed (index : ProbeIndex PLANE) : index.Hashed where
  findSlot_eq _ := rfl
  lookup_eq _ := rfl
  insert_eq := index.insert_eq_hashed
  removeAt_eq _ := index.removeAt_eq_hashed

end Risk.ProbeIndex

open Book Risk

/-- For any mixing, in every history that keeps at most half of the positions occupied, an index is
the map of what its client recorded, and the closure keeps the recorded positions exact. The
operations of the code are these ones, and locations are numbered one to one. -/
theorem indexes_refine_maps :
    (∀ (LEVELS ORDERS : ℕ) (mix : OrderId → ℕ) (index : OrderIndex LEVELS ORDERS) records,
      0 < 4 * LEVELS * ORDERS → 4 * LEVELS * ORDERS ≤ 2 ^ 32 →
      HashedIndex.Reached (OrderIndex.layout LEVELS ORDERS mix) index records →
      HashedIndex.Correct (OrderIndex.layout LEVELS ORDERS mix) index records) ∧
    (∀ (PLANE : ℕ) (mix : U64 → ℕ) (index : ProbeIndex PLANE) records,
      0 < 2 * PLANE → 2 * PLANE ≤ 2 ^ 32 →
      HashedIndex.Reached (ProbeIndex.layout PLANE mix) index records →
      HashedIndex.Correct (ProbeIndex.layout PLANE mix) index records) ∧
    (∀ (LEVELS ORDERS : ℕ) (index : OrderIndex LEVELS ORDERS), index.Hashed) ∧
    (∀ (PLANE : ℕ) (index : ProbeIndex PLANE), index.Hashed) ∧
    (∀ (LEVELS ORDERS : ℕ) location, OrderIndex.InRange LEVELS ORDERS location →
      (OrderIndex.encodeLocation LEVELS ORDERS location).bind (OrderIndex.decodeLocation LEVELS ORDERS) =
        some location) ∧
    (∀ LEVELS ORDERS encoded, 1 ≤ encoded → encoded ≤ 2 * (LEVELS * ORDERS) →
      (OrderIndex.decodeLocation LEVELS ORDERS encoded).bind (OrderIndex.encodeLocation LEVELS ORDERS) =
        some encoded) := by
  refine ⟨?_, ?_, fun _ _ index ↦ index.hashed, fun _ index ↦ index.hashed, ?_, ?_⟩
  · intro LEVELS ORDERS mix index records hpos hcap hreached
    rw [← indexCapacity_eq] at hpos hcap
    exact hreached.correct hpos hcap
  · intro PLANE mix index records hpos hcap hreached
    have hcapacity : PLANE * indexPlanes = 2 * PLANE := Nat.mul_comm PLANE 2
    rw [← hcapacity] at hpos hcap
    exact hreached.correct hpos hcap
  · intro LEVELS ORDERS location hrange
    have hencode := OrderIndex.encodeLocation_of_inRange hrange
    rw [hencode]
    exact OrderIndex.decodeLocation_encodeLocation hencode
  · intro LEVELS ORDERS encoded hpos hle
    obtain ⟨location, hdecode, _, hencode⟩ := OrderIndex.encodeLocation_decodeLocation hpos hle
    rw [hdecode]
    exact hencode

/-- Two keys share a home at the last position: the second one wraps around, and moves back when the
first one is removed. -/
theorem indexes_refine_maps_wrapped :
    (∃ (index : OrderIndex 1 1) (records : HashedIndex.Records OrderId OrderLocation),
      HashedIndex.Reached (OrderIndex.layout 1 1 fun _ ↦ 3) index records ∧
      records 9 = some (⟨.sell, 0, 0⟩, 3) ∧
      HashedIndex.Correct (OrderIndex.layout 1 1 fun _ ↦ 3) index records) ∧
    (∃ (index : ProbeIndex 2) (records : HashedIndex.Records U64 ℕ),
      HashedIndex.Reached (ProbeIndex.layout 2 fun _ ↦ 3) index records ∧ records 9 = some (7, 3) ∧
      HashedIndex.Correct (ProbeIndex.layout 2 fun _ ↦ 3) index records) ∧
    (OrderIndex.encodeLocation 2 3 ⟨.sell, 1, 2⟩).bind (OrderIndex.decodeLocation 2 3) =
      some ⟨.sell, 1, 2⟩ ∧
    (OrderIndex.decodeLocation 2 3 12).bind (OrderIndex.encodeLocation 2 3) = some 12 := by
  have horders : ∃ (index : OrderIndex 1 1) (records : HashedIndex.Records OrderId OrderLocation),
      HashedIndex.Reached (OrderIndex.layout 1 1 fun _ ↦ 3) index records ∧
      records 9 = some (⟨.sell, 0, 0⟩, 3) :=
    ⟨_, _, .step (.removeAt 3 5) (.step (.insert 9 ⟨.sell, 0, 0⟩) (.step (.insert 5 ⟨.buy, 0, 0⟩) .new rfl
      (by decide)) rfl (by decide)) rfl (by decide), by decide⟩
  have hslots : ∃ (index : ProbeIndex 2) (records : HashedIndex.Records U64 ℕ),
      HashedIndex.Reached (ProbeIndex.layout 2 fun _ ↦ 3) index records ∧ records 9 = some (7, 3) :=
    ⟨_, _, .step (.removeAt 3 5) (.step (.insert 9 7) (.step (.insert 5 6) .new rfl (by decide)) rfl
      (by decide)) rfl (by decide), by decide⟩
  obtain ⟨orderIndex, orders, hordersReached, horder⟩ := horders
  obtain ⟨slotIndex, slots, hslotsReached, hslot⟩ := hslots
  exact ⟨⟨orderIndex, orders, hordersReached, horder,
      indexes_refine_maps.1 1 1 (fun _ ↦ 3) orderIndex orders (by decide) (by decide) hordersReached⟩,
    ⟨slotIndex, slots, hslotsReached, hslot,
      indexes_refine_maps.2.1 2 (fun _ ↦ 3) slotIndex slots (by decide) (by decide) hslotsReached⟩,
    indexes_refine_maps.2.2.2.2.1 2 3 ⟨.sell, 1, 2⟩ ⟨by decide, by decide⟩,
    indexes_refine_maps.2.2.2.2.2 2 3 12 (by decide) (by decide)⟩

end DeterministicExchange
