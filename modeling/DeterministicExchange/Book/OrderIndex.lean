import DeterministicExchange.Types
import DeterministicExchange.Container.BackShift

/-!
# Order index

The shared `OrderId → OrderLocation` index of a book: four planes of
`LEVELS * ORDERS` slots, probed linearly. A location is stored as a positive
number whose low bit is the side. The products below fit a machine word, since
the index capacity itself is a machine word.
-/

namespace DeterministicExchange.Book

open Machine

/-- A stable per-level slot handle, never a queue position. -/
structure OrderLocation where
  side : Side
  levelIndex : ℕ
  slot : ℕ
  deriving DecidableEq, Repr

def orderIndexPlanes : ℕ := 4

abbrev indexCapacity (LEVELS ORDERS : ℕ) : ℕ := LEVELS * ORDERS * orderIndexPlanes

theorem indexCapacity_eq (LEVELS ORDERS : ℕ) : indexCapacity LEVELS ORDERS = 4 * LEVELS * ORDERS := by
  unfold indexCapacity orderIndexPlanes
  ring

abbrev OrderIndex (LEVELS ORDERS : ℕ) :=
  ProbeTable.Slots OrderId ℕ (indexCapacity LEVELS ORDERS)

namespace OrderIndex

variable {LEVELS ORDERS : ℕ}

def new (LEVELS ORDERS : ℕ) : OrderIndex LEVELS ORDERS := ProbeTable.empty _ _ _

/-- Adding one reserves zero for empty slots. -/
def encodeLocation (LEVELS ORDERS : ℕ) (location : OrderLocation) : Option ℕ :=
  if LEVELS ≤ location.levelIndex ∨ ORDERS ≤ location.slot then none
  else some ((location.levelIndex * ORDERS + location.slot) * 2 +
    (if location.side = .sell then 1 else 0) + 1)

def decodeLocation (LEVELS ORDERS : ℕ) (encoded : ℕ) : Option OrderLocation :=
  let flat := (encoded - 1) / 2
  if ORDERS = 0 then none
  else if LEVELS ≤ flat / ORDERS then none
  else some
    { side := if (encoded - 1) % 2 = 0 then .buy else .sell
      levelIndex := flat / ORDERS
      slot := flat % ORDERS }

def probeStart (LEVELS ORDERS : ℕ) (orderId : OrderId) : ℕ :=
  (orderId.val * 0x9e3779b97f4a7c15 % 2 ^ 64) % indexCapacity LEVELS ORDERS

def findSlot (index : OrderIndex LEVELS ORDERS) (orderId : OrderId) : Option ℕ :=
  if indexCapacity LEVELS ORDERS = 0 then none
  else
    match ProbeTable.probe index orderId (probeStart LEVELS ORDERS orderId) with
    | .found i => some i
    | _ => none

def location (index : OrderIndex LEVELS ORDERS) (orderId : OrderId) : Option OrderLocation := do
  let i ← index.findSlot orderId
  let entry ← ProbeTable.slot index i
  decodeLocation LEVELS ORDERS entry.2

def insert (index : OrderIndex LEVELS ORDERS) (orderId : OrderId) (location : OrderLocation) :
    Except RejectReason (U32 × OrderIndex LEVELS ORDERS) :=
  if indexCapacity LEVELS ORDERS = 0 then .error .orderCapacity
  else
    match encodeLocation LEVELS ORDERS location with
    | none => .error .orderCapacity
    | some encoded =>
      match ProbeTable.probe index orderId (probeStart LEVELS ORDERS orderId) with
      | .vacant i =>
        match Unsigned.ofNat? 32 i with
        | none => .error .orderCapacity
        | some slotId => .ok (slotId, ProbeTable.store index i (some (orderId, encoded)))
      | .found _ => .error .duplicateOrderId
      | .full => .error .orderCapacity

variable {S : Type}

/-- One back-shift move, reported with its decoded location. -/
def reportMove (LEVELS ORDERS : ℕ)
    (updateReverseSlot : OrderId → OrderLocation → U32 → S → Bool × S)
    (orderId : OrderId) (encoded hole : ℕ) (state : S) : Run (Option S) :=
  match decodeLocation LEVELS ORDERS encoded with
  | none => .ok none
  | some location => do
    let newSlot ← Run.expect "occupied slots fit u32" (Unsigned.ofNat? 32 hole)
    let (updated, state) := updateReverseSlot orderId location newSlot state
    Run.debugAssert updated
    return some state

/-- Removes `orderId` at `slotIndex`; a stale handle changes nothing. -/
def removeAt (index : OrderIndex LEVELS ORDERS) (slotIndex : U32) (orderId : OrderId)
    (updateReverseSlot : OrderId → OrderLocation → U32 → S → Bool × S) (state : S) :
    Run (Option OrderLocation × OrderIndex LEVELS ORDERS × S) :=
  if indexCapacity LEVELS ORDERS ≤ slotIndex.val then .ok (none, index, state)
  else
    match ProbeTable.slot index slotIndex.val with
    | none => .ok (none, index, state)
    | some (indexedId, encoded) =>
      match decodeLocation LEVELS ORDERS encoded with
      | none => .ok (none, index, state)
      | some location =>
        if indexedId ≠ orderId then .ok (none, index, state)
        else do
          let (closed, index, state) ← ProbeTable.removeAt .diverged (probeStart LEVELS ORDERS)
            (reportMove LEVELS ORDERS updateReverseSlot) index slotIndex.val state
          return (if closed then some location else none, index, state)

/-! ## Encoded locations -/

def InRange (LEVELS ORDERS : ℕ) (location : OrderLocation) : Prop :=
  location.levelIndex < LEVELS ∧ location.slot < ORDERS

theorem encodeLocation_of_inRange {location : OrderLocation} (h : InRange LEVELS ORDERS location) :
    encodeLocation LEVELS ORDERS location =
      some ((location.levelIndex * ORDERS + location.slot) * 2 +
        (if location.side = .sell then 1 else 0) + 1) := by
  unfold encodeLocation
  rw [if_neg (by obtain ⟨h1, h2⟩ := h; omega)]

theorem inRange_of_encodeLocation {location : OrderLocation} {encoded : ℕ}
    (h : encodeLocation LEVELS ORDERS location = some encoded) : InRange LEVELS ORDERS location := by
  unfold encodeLocation at h
  split at h
  · simp at h
  · constructor <;> omega

theorem decodeLocation_encodeLocation {location : OrderLocation} {encoded : ℕ}
    (h : encodeLocation LEVELS ORDERS location = some encoded) :
    decodeLocation LEVELS ORDERS encoded = some location := by
  have hrange := inRange_of_encodeLocation h
  rw [encodeLocation_of_inRange hrange] at h
  obtain ⟨h1, h2⟩ := hrange
  obtain ⟨side, level, slot⟩ := location
  simp only at h h1 h2
  have hflat : (encoded - 1) / 2 = level * ORDERS + slot := by
    rw [← Option.some.inj h]
    split <;> omega
  have hdiv : (level * ORDERS + slot) / ORDERS = level := by
    rw [Nat.mul_comm, Nat.mul_add_div (by omega), Nat.div_eq_of_lt h2, Nat.add_zero]
  have hmod : (level * ORDERS + slot) % ORDERS = slot := by
    rw [Nat.mul_comm, Nat.mul_add_mod, Nat.mod_eq_of_lt h2]
  have hside : (if (encoded - 1) % 2 = 0 then Side.buy else Side.sell) = side := by
    rw [← Option.some.inj h]
    cases side
    · simp only [reduceCtorEq, if_false]
      rw [if_pos (by omega)]
    · simp only [if_true]
      rw [if_neg (by omega)]
  unfold decodeLocation
  simp only
  rw [if_neg (by omega), hflat, hdiv, hmod, hside, if_neg (by omega)]

/-- Encoded locations are pairwise distinct and lie in `1 … 2 * LEVELS * ORDERS`. -/
theorem encodeLocation_bounds {location : OrderLocation} {encoded : ℕ}
    (h : encodeLocation LEVELS ORDERS location = some encoded) :
    1 ≤ encoded ∧ encoded ≤ 2 * (LEVELS * ORDERS) := by
  have hrange := inRange_of_encodeLocation h
  rw [encodeLocation_of_inRange hrange] at h
  have hle : (location.levelIndex + 1) * ORDERS ≤ LEVELS * ORDERS :=
    Nat.mul_le_mul_right _ hrange.1
  have hslot := hrange.2
  rw [Nat.add_mul, one_mul] at hle
  rw [← Option.some.inj h]
  split <;> omega

theorem probeStart_lt (hcap : 0 < indexCapacity LEVELS ORDERS) (orderId : OrderId) :
    probeStart LEVELS ORDERS orderId < indexCapacity LEVELS ORDERS := Nat.mod_lt _ hcap

end OrderIndex

end DeterministicExchange.Book
