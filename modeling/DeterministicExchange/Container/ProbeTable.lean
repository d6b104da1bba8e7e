import Mathlib.Tactic
import DeterministicExchange.Machine.Integer

/-!
# Open-addressed tables with linear probing

A table is an array of optional key/value pairs. A key probes from its home
position, cyclically, until it meets itself or a vacant slot. Deletion closes
the hole it leaves by shifting displaced entries back, so no tombstones remain.

`Probed` is the representation invariant: every slot between the home of a
stored key and its position is occupied, and keys are stored once. The hash
function is an arbitrary map into the table's positions.
-/

namespace DeterministicExchange.ProbeTable

open Machine

variable {K V : Type} {cap : ℕ}

abbrev Slots (K V : Type) (cap : ℕ) := Vector (Option (K × V)) cap

/-- The content of a position; positions outside the array are vacant. -/
def slot (slots : Slots K V cap) (i : ℕ) : Option (K × V) := slots[i]?.join

def store (slots : Slots K V cap) (i : ℕ) (entry : Option (K × V)) : Slots K V cap :=
  slots.setIfInBounds i entry

def empty (K V : Type) (cap : ℕ) : Slots K V cap := Vector.replicate cap none

/-- Number of forward steps from `home` to `current` on the cycle of positions. -/
def distance (cap home current : ℕ) : ℕ :=
  if home ≤ current then current - home else cap - (home - current)

@[simp] theorem slot_empty (i : ℕ) : slot (empty K V cap) i = none := by
  unfold slot empty
  rw [Vector.getElem?_replicate]
  split <;> rfl

theorem slot_store (slots : Slots K V cap) {i : ℕ} (j : ℕ) (entry : Option (K × V)) (hi : i < cap) :
    slot (store slots i entry) j = if j = i then entry else slot slots j := by
  unfold slot store
  rw [Vector.getElem?_setIfInBounds]
  by_cases h : i = j
  · subst h
    simp [hi]
  · simp [h, Ne.symm h]

theorem lt_of_slot {slots : Slots K V cap} {i : ℕ} {entry : K × V}
    (h : slot slots i = some entry) : i < cap := by
  unfold slot at h
  by_contra hi
  rw [Vector.getElem?_eq_none (by omega)] at h
  simp at h

theorem slots_ext {s t : Slots K V cap} (h : ∀ i, i < cap → slot s i = slot t i) : s = t := by
  apply Vector.ext
  intro i hi
  have := h i hi
  unfold slot at this
  rw [Vector.getElem?_eq_getElem hi, Vector.getElem?_eq_getElem hi] at this
  simpa using this

/-! ## Cyclic distances -/

theorem distance_self (home : ℕ) : distance cap home home = 0 := by simp [distance]

theorem distance_lt {home current : ℕ} (hh : home < cap) (hc : current < cap) :
    distance cap home current < cap := by
  unfold distance
  split <;> omega

theorem distance_eq_zero {home current : ℕ} (hh : home < cap) (h : distance cap home current = 0) :
    home = current := by
  unfold distance at h
  split at h <;> omega

theorem distance_injective {home i j : ℕ} (hh : home < cap) (hi : i < cap) (hj : j < cap)
    (h : distance cap home i = distance cap home j) : i = j := by
  unfold distance at h
  split at h <;> split at h <;> omega

/-- The position reached from `home` after `offset` forward steps. -/
def position (cap home offset : ℕ) : ℕ := wrappingAdd home offset % cap

theorem position_lt (home offset : ℕ) (h : 0 < cap) : position cap home offset < cap :=
  Nat.mod_lt _ h

theorem position_eq {home offset : ℕ} (hcap : cap ≤ 2 ^ 63) (hh : home < cap) (ho : offset ≤ cap) :
    position cap home offset =
      if home + offset < cap then home + offset else home + offset - cap := by
  unfold position
  rw [wrappingAdd_of_lt (by omega)]
  split
  · exact Nat.mod_eq_of_lt (by omega)
  · rw [Nat.mod_eq_sub_mod (by omega)]
    exact Nat.mod_eq_of_lt (by omega)

theorem distance_position {home offset : ℕ} (hcap : cap ≤ 2 ^ 63) (hh : home < cap)
    (ho : offset < cap) : distance cap home (position cap home offset) = offset := by
  rw [position_eq hcap hh ho.le]
  unfold distance
  split <;> split <;> omega

theorem position_distance {home i : ℕ} (hcap : cap ≤ 2 ^ 63) (hh : home < cap) (hi : i < cap) :
    position cap home (distance cap home i) = i := by
  rw [position_eq hcap hh (distance_lt hh hi).le]
  unfold distance
  split <;> split <;> omega

/-! ## Probing -/

inductive Probe where
  /-- The key is stored at this position. -/
  | found (i : ℕ)
  /-- The key is absent; this is the first vacant position of its probe path. -/
  | vacant (i : ℕ)
  /-- Every position is occupied by another key. -/
  | full
  deriving DecidableEq, Repr

/-- Probe the positions at `offset`, `offset + 1`, … from `start`, at most `fuel` of them. -/
def probeFrom [DecidableEq K] (slots : Slots K V cap) (key : K) (start : ℕ) : ℕ → ℕ → Probe
  | 0, _ => .full
  | fuel + 1, offset =>
    match slot slots (position cap start offset) with
    | none => .vacant (position cap start offset)
    | some entry =>
      if entry.1 = key then .found (position cap start offset)
      else probeFrom slots key start fuel (offset + 1)

/-- A full probe visits every position once. -/
def probe [DecidableEq K] (slots : Slots K V cap) (key : K) (start : ℕ) : Probe :=
  probeFrom slots key start cap 0

/-- The representation invariant for the home function `home`. -/
structure Probed (home : K → ℕ) (slots : Slots K V cap) : Prop where
  reach : ∀ i key value, slot slots i = some (key, value) → ∀ j, j < cap →
    distance cap (home key) j < distance cap (home key) i → slot slots j ≠ none
  unique : ∀ i j key value value', slot slots i = some (key, value) →
    slot slots j = some (key, value') → i = j

theorem Probed.empty (home : K → ℕ) : Probed home (empty K V cap) where
  reach := by simp
  unique := by simp

section Probing

variable [DecidableEq K] {slots : Slots K V cap} {key : K} {start : ℕ}

/-- The positions from `offset` up to `o` hold other keys. -/
def Passed (slots : Slots K V cap) (key : K) (start offset o : ℕ) : Prop :=
  ∀ o', offset ≤ o' → o' < o →
    ∃ entry, slot slots (position cap start o') = some entry ∧ entry.1 ≠ key

/-- What a scan of `fuel` positions from `offset` reports. -/
def Scanned (slots : Slots K V cap) (key : K) (start fuel offset : ℕ) : Probe → Prop
  | .found i => ∃ o, offset ≤ o ∧ o < offset + fuel ∧ i = position cap start o ∧
      (∃ value, slot slots i = some (key, value)) ∧ Passed slots key start offset o
  | .vacant i => ∃ o, offset ≤ o ∧ o < offset + fuel ∧ i = position cap start o ∧
      slot slots i = none ∧ Passed slots key start offset o
  | .full => Passed slots key start offset (offset + fuel)

/-- The scan stops at the first position of the probe path that is vacant or holds the key. -/
theorem probeFrom_spec (fuel offset : ℕ) :
    Scanned slots key start fuel offset (probeFrom slots key start fuel offset) := by
  induction fuel generalizing offset with
  | zero => exact fun o' h1 h2 ↦ by omega
  | succ fuel ih =>
    have hnext := ih (offset + 1)
    rw [probeFrom]
    cases hslot : slot slots (position cap start offset) with
    | none => exact ⟨offset, le_rfl, by omega, rfl, hslot, fun o' h1 h2 ↦ by omega⟩
    | some entry =>
      by_cases hkey : entry.1 = key
      · simp only [hkey, if_true]
        refine ⟨offset, le_rfl, by omega, rfl, ⟨entry.2, ?_⟩, fun o' h1 h2 ↦ by omega⟩
        rw [hslot, ← hkey]
      · simp only [hkey, if_false]
        have hpassed {o : ℕ} (h : Passed slots key start (offset + 1) o) :
            Passed slots key start offset o := by
          intro o' h1 h2
          by_cases ho : o' = offset
          · exact ho ▸ ⟨entry, hslot, hkey⟩
          · exact h o' (by omega) h2
        cases hrest : probeFrom slots key start fuel (offset + 1) with
        | found i =>
          rw [hrest] at hnext
          obtain ⟨o, h1, h2, h3, h4, h5⟩ := hnext
          exact ⟨o, by omega, by omega, h3, h4, hpassed h5⟩
        | vacant i =>
          rw [hrest] at hnext
          obtain ⟨o, h1, h2, h3, h4, h5⟩ := hnext
          exact ⟨o, by omega, by omega, h3, h4, hpassed h5⟩
        | full =>
          rw [hrest] at hnext
          have h : Passed slots key start (offset + 1) (offset + (fuel + 1)) := by
            rw [show offset + (fuel + 1) = offset + 1 + fuel by omega]
            exact hnext
          exact hpassed h

variable {home : K → ℕ}

/-- A stored key is found at its position. -/
theorem probe_of_slot (hcap : cap ≤ 2 ^ 63) (hhome : ∀ key, home key < cap)
    (hprobed : Probed home slots) {i : ℕ} {value : V} (hslot : slot slots i = some (key, value)) :
    probe slots key (home key) = .found i := by
  have hi := lt_of_slot hslot
  have hspec : Scanned slots key (home key) cap 0 (probeFrom slots key (home key) cap 0) :=
    probeFrom_spec cap 0
  have hpath : distance cap (home key) i < cap := distance_lt (hhome key) hi
  have hpos := position_distance hcap (hhome key) hi
  unfold probe
  cases hj : probeFrom slots key (home key) cap 0 with
  | found j =>
    rw [hj] at hspec
    obtain ⟨o, -, -, -, ⟨value', hj'⟩, -⟩ := hspec
    rw [hprobed.unique j i key value' value hj' hslot]
  | vacant j =>
    rw [hj] at hspec
    obtain ⟨o, -, ho, hpj, hnone, hbefore⟩ := hspec
    exfalso
    have hoj : distance cap (home key) j = o := by
      rw [hpj, distance_position hcap (hhome key) (by omega)]
    by_cases hlt : o < distance cap (home key) i
    · have hjcap : j < cap := hpj ▸ position_lt _ _ (by omega)
      exact hprobed.reach i key value hslot j hjcap (hoj ▸ hlt) hnone
    · rcases Nat.lt_or_ge (distance cap (home key) i) o with h | h
      · obtain ⟨entry, he, hne⟩ := hbefore _ (Nat.zero_le _) h
        rw [hpos, hslot] at he
        exact hne (by simpa using congrArg Prod.fst (Option.some.inj he).symm)
      · have : j = i := distance_injective (hhome key) (hpj ▸ position_lt _ _ (by omega)) hi (by omega)
        rw [this, hslot] at hnone
        simp at hnone
  | full =>
    rw [hj] at hspec
    obtain ⟨entry, he, hne⟩ := hspec (distance cap (home key) i) (Nat.zero_le _) (by omega)
    rw [hpos, hslot] at he
    exact absurd (by simpa using congrArg Prod.fst (Option.some.inj he).symm) hne

/-- An absent key meets the first vacant position of its path. -/
theorem probe_of_absent (hcap : cap ≤ 2 ^ 63) (hhome : ∀ key, home key < cap)
    (habsent : ∀ i value, slot slots i ≠ some (key, value))
    (hvacant : ∃ i, i < cap ∧ slot slots i = none) :
    ∃ i, probe slots key (home key) = .vacant i ∧ i < cap ∧ slot slots i = none ∧
      ∀ j, j < cap → distance cap (home key) j < distance cap (home key) i → slot slots j ≠ none := by
  have hspec : Scanned slots key (home key) cap 0 (probeFrom slots key (home key) cap 0) :=
    probeFrom_spec cap 0
  unfold probe
  cases hj : probeFrom slots key (home key) cap 0 with
  | found j =>
    rw [hj] at hspec
    obtain ⟨o, -, -, -, ⟨value, hj'⟩, -⟩ := hspec
    exact absurd hj' (habsent j value)
  | vacant j =>
    rw [hj] at hspec
    obtain ⟨o, -, ho, hpj, hnone, hbefore⟩ := hspec
    have hoj : distance cap (home key) j = o := by
      rw [hpj, distance_position hcap (hhome key) (by omega)]
    refine ⟨j, rfl, hpj ▸ position_lt _ _ (by omega), hnone, ?_⟩
    intro k hk hlt
    obtain ⟨entry, he, -⟩ := hbefore (distance cap (home key) k) (Nat.zero_le _) (by omega)
    rw [position_distance hcap (hhome key) hk] at he
    rw [he]
    exact Option.some_ne_none entry
  | full =>
    rw [hj] at hspec
    obtain ⟨i, hi, hnone⟩ := hvacant
    obtain ⟨entry, he, -⟩ := hspec (distance cap (home key) i) (Nat.zero_le _)
      (by have := distance_lt (hhome key) hi; omega)
    rw [position_distance hcap (hhome key) hi, hnone] at he
    simp at he

end Probing

/-- Storing an absent key at the first vacant position of its path keeps the invariant. -/
theorem Probed.store {home : K → ℕ} {slots : Slots K V cap} (hprobed : Probed home slots)
    {key : K} {value : V} {i : ℕ} (hi : i < cap)
    (habsent : ∀ j value', slot slots j ≠ some (key, value'))
    (hpath : ∀ j, j < cap → distance cap (home key) j < distance cap (home key) i →
      slot slots j ≠ none) :
    Probed home (store slots i (some (key, value))) where
  reach := by
    intro j key' value' hj k hk hlt
    rw [slot_store _ _ _ hi] at hj ⊢
    split
    · simp
    · split at hj
      · next h =>
        obtain ⟨rfl, rfl⟩ : key = key' ∧ value = value' := by simpa using hj
        exact hpath k hk (h ▸ hlt)
      · exact hprobed.reach j key' value' hj k hk hlt
  unique := by
    intro j k key' value' value'' hj hk
    rw [slot_store _ _ _ hi] at hj hk
    split at hj
    · next h =>
      obtain ⟨rfl, rfl⟩ : key = key' ∧ value = value' := by simpa using hj
      split at hk
      · next h' => exact h.trans h'.symm
      · exact absurd hk (habsent k value'')
    · split at hk
      · obtain ⟨rfl, rfl⟩ : key = key' ∧ value = value'' := by simpa using hk
        exact absurd hj (habsent j value')
      · exact hprobed.unique j k key' value' value'' hj hk

end DeterministicExchange.ProbeTable
