import DeterministicExchange.Container.BackShift

/-!
# Probe tables as partial maps

A probed table stores a relation between keys and values together with the
position of every stored key. `Stores` is the map view of such a table: it is
kept by inserting an absent key and by deleting a stored one. A deletion moves
other keys, and reports each new position to a callback on the caller's state.
-/

namespace DeterministicExchange.ProbeTable

open Machine

variable {K V S ε : Type} {cap : ℕ}

/-- The table holds exactly the pairs of `stored`, each key at its place. -/
structure Stores (home : K → ℕ) (slots : Slots K V cap) (place : K → ℕ) (stored : K → V → Prop) :
    Prop where
  probed : Probed home slots
  entry : ∀ pos key value, slot slots pos = some (key, value) ↔ stored key value ∧ place key = pos

theorem Stores.empty (home : K → ℕ) (place : K → ℕ) :
    Stores home (ProbeTable.empty K V cap) place fun _ _ ↦ False where
  probed := Probed.empty home
  entry := by simp

namespace Stores

variable {home : K → ℕ} {slots : Slots K V cap} {place : K → ℕ} {stored stored' : K → V → Prop}

theorem congr (h : Stores home slots place stored)
    (heq : ∀ key value, stored' key value ↔ stored key value) : Stores home slots place stored' where
  probed := h.probed
  entry := by
    intro pos key value
    rw [h.entry, heq]

theorem slot_place (h : Stores home slots place stored) {key : K} {value : V}
    (hstored : stored key value) : slot slots (place key) = some (key, value) :=
  (h.entry _ _ _).mpr ⟨hstored, rfl⟩

theorem place_lt (h : Stores home slots place stored) {key : K} {value : V}
    (hstored : stored key value) : place key < cap := lt_of_slot (h.slot_place hstored)

/-- A key is stored with one value. -/
theorem functional (h : Stores home slots place stored) {key : K} {value value' : V}
    (hstored : stored key value) (hstored' : stored key value') : value = value' := by
  have heq := (h.slot_place hstored).symm.trans (h.slot_place hstored')
  exact congrArg Prod.snd (Option.some.inj heq)

theorem absent (h : Stores home slots place stored) {key : K} (habsent : ∀ value, ¬ stored key value)
    (pos : ℕ) (value : V) : slot slots pos ≠ some (key, value) :=
  fun hslot ↦ habsent value ((h.entry _ _ _).mp hslot).1

/-- A table whose values are distinct numbers of `1 … n` with `n < cap` has a vacant position. -/
theorem exists_vacant {slots : Slots K ℕ cap} {stored : K → ℕ → Prop}
    (h : Stores home slots place stored) {n : ℕ} (hn : n < cap)
    (hbound : ∀ key value, stored key value → 1 ≤ value ∧ value ≤ n)
    (hinj : ∀ key key' value, stored key value → stored key' value → key = key') :
    ∃ e, e < cap ∧ slot slots e = none := by
  by_contra hnone
  push Not at hnone
  have hentry (e : ℕ) (he : e < cap) : ∃ key value, slot slots e = some (key, value) := by
    obtain ⟨⟨key, value⟩, hslot⟩ := Option.ne_none_iff_exists'.mp (hnone e he)
    exact ⟨key, value, hslot⟩
  have hmaps : Set.MapsTo (fun e ↦ (slot slots e).elim 0 Prod.snd) (Finset.range cap : Set ℕ)
      (Finset.Icc 1 n : Set ℕ) := by
    intro e he
    obtain ⟨key, value, hslot⟩ := hentry e (by simpa using he)
    have hbounds := hbound key value ((h.entry _ _ _).mp hslot).1
    simp [hslot, hbounds]
  have hinjOn : Set.InjOn (fun e ↦ (slot slots e).elim 0 Prod.snd) (Finset.range cap : Set ℕ) := by
    intro e he e' he' heq
    obtain ⟨key, value, hslot⟩ := hentry e (by simpa using he)
    obtain ⟨key', value', hslot'⟩ := hentry e' (by simpa using he')
    simp only [hslot, hslot', Option.elim_some] at heq
    subst heq
    obtain ⟨hstored, rfl⟩ := (h.entry _ _ _).mp hslot
    obtain ⟨hstored', rfl⟩ := (h.entry _ _ _).mp hslot'
    rw [hinj key key' value hstored hstored']
  have hcard := Finset.card_le_card_of_injOn _ hmaps hinjOn
  rw [Finset.card_range, Nat.card_Icc] at hcard
  omega

variable [DecidableEq K]

theorem probe_stored (h : Stores home slots place stored) (hcap : cap ≤ 2 ^ 63)
    (hhome : ∀ key, home key < cap) {key : K} {value : V} (hstored : stored key value) :
    probe slots key (home key) = .found (place key) :=
  probe_of_slot hcap hhome h.probed (h.slot_place hstored)

theorem probe_absent (h : Stores home slots place stored) (hcap : cap ≤ 2 ^ 63)
    (hhome : ∀ key, home key < cap) (hvacant : ∃ e, e < cap ∧ slot slots e = none) {key : K}
    (habsent : ∀ value, ¬ stored key value) : ∃ i, probe slots key (home key) = .vacant i := by
  obtain ⟨i, hprobe, _⟩ := probe_of_absent hcap hhome (h.absent habsent) hvacant
  exact ⟨i, hprobe⟩

/-- Storing an absent key at the vacant position that ends its probe path. -/
theorem store (h : Stores home slots place stored) (hcap : cap ≤ 2 ^ 63)
    (hhome : ∀ key, home key < cap) (hvacant : ∃ e, e < cap ∧ slot slots e = none) {key : K}
    (habsent : ∀ value, ¬ stored key value) :
    ∃ i, probe slots key (home key) = .vacant i ∧ i < cap ∧ ∀ value,
      Stores home (ProbeTable.store slots i (some (key, value))) (Function.update place key i)
        fun key' value' ↦ stored key' value' ∨ key' = key ∧ value' = value := by
  obtain ⟨i, hprobe, hi, hnone, hpath⟩ := probe_of_absent hcap hhome (h.absent habsent) hvacant
  refine ⟨i, hprobe, hi, fun value ↦ ⟨h.probed.store hi (h.absent habsent) hpath, ?_⟩⟩
  intro pos key' value'
  rw [slot_store _ _ _ hi]
  by_cases hkey : key' = key
  · subst hkey
    rw [Function.update_self]
    by_cases hpos : pos = i
    · subst hpos
      simp [habsent, eq_comm]
    · rw [if_neg hpos]
      simp only [h.absent habsent, false_iff, not_and]
      exact fun _ heq ↦ hpos heq.symm
  · rw [Function.update_of_ne hkey]
    by_cases hpos : pos = i
    · subst hpos
      rw [if_pos rfl]
      constructor
      · intro heq
        exact absurd (congrArg Prod.fst (Option.some.inj heq)).symm hkey
      · rintro ⟨hstored | ⟨heq, _⟩, hplace⟩
        · have hslot := h.slot_place hstored
          rw [hplace, hnone] at hslot
          simp at hslot
        · exact absurd heq hkey
    · rw [if_neg hpos, h.entry]
      simp [hkey]

/-- Moving a key from one position to a vacant one. -/
theorem entry_move {hole candidate : ℕ} {key : K} {value : V}
    (h : ∀ pos key value, slot slots pos = some (key, value) ↔ stored key value ∧ place key = pos)
    (hhole : hole < cap) (hne : hole ≠ candidate) (hvacant : slot slots hole = none)
    (hslot : slot slots candidate = some (key, value)) (pos : ℕ) (key' : K) (value' : V) :
    slot (ProbeTable.store (ProbeTable.store slots hole (some (key, value))) candidate none) pos =
        some (key', value') ↔
      stored key' value' ∧ Function.update place key hole key' = pos := by
  have hcandidate := lt_of_slot hslot
  obtain ⟨hstored, hplace⟩ := (h _ _ _).mp hslot
  rw [slot_store _ _ _ hcandidate, slot_store _ _ _ hhole]
  by_cases hkey : key' = key
  · subst hkey
    rw [Function.update_self]
    constructor
    · intro hpos
      split at hpos
      · simp at hpos
      · split at hpos
        · next heq =>
          obtain ⟨_, rfl⟩ : key' = key' ∧ value = value' := by simpa using hpos
          exact ⟨hstored, heq.symm⟩
        · next hnot _ =>
          exact absurd (((h _ _ _).mp hpos).2.symm.trans hplace) hnot
    · rintro ⟨hstored', rfl⟩
      rw [if_neg hne, if_pos rfl]
      have heq := (h candidate key' value').mpr ⟨hstored', hplace⟩
      rw [← hslot, heq]
  · rw [Function.update_of_ne hkey]
    constructor
    · intro hpos
      split at hpos
      · simp at hpos
      · split at hpos
        · exact absurd (congrArg Prod.fst (Option.some.inj hpos)).symm hkey
        · exact (h _ _ _).mp hpos
    · intro hentry
      have hpos := (h _ _ _).mpr hentry
      have hnothole : pos ≠ hole := by
        rintro rfl
        rw [hvacant] at hpos
        simp at hpos
      have hnotcandidate : pos ≠ candidate := by
        rintro rfl
        rw [hslot] at hpos
        exact hkey (congrArg Prod.fst (Option.some.inj hpos)).symm
      rw [if_neg hnotcandidate, if_neg hnothole, hpos]

/-- Deleting a stored key. The callback learns the new place of every key that moves, and keeps a
relation between the caller's state and all places. -/
theorem removeAt (h : Stores home slots place stored) (hcap : cap ≤ 2 ^ 63)
    (hhome : ∀ key, home key < cap) (hvacant : ∃ e, e < cap ∧ slot slots e = none) (stuck : ε)
    {moved : K → V → ℕ → S → Except ε (Option S)} (related : S → (K → ℕ) → Prop) {key : K} {value : V}
    (hstored : stored key value)
    (hmoved : ∀ state place key' value' hole, key' ≠ key → stored key' value' → hole < cap →
      related state place → ∃ state', moved key' value' hole state = .ok (some state') ∧
        related state' (Function.update place key' hole))
    {state : S} (hrelated : related state place) :
    ∃ slots' state' place', ProbeTable.removeAt stuck home moved slots (place key) state =
        .ok (true, slots', state') ∧
      Stores home slots' place' (fun key' value' ↦ stored key' value' ∧ key' ≠ key) ∧
      related state' place' := by
  let relation (slots : Slots K V cap) (state : S) : Prop :=
    ∃ place', related state place' ∧ ∀ pos key' value', slot slots pos = some (key', value') ↔
      (stored key' value' ∧ key' ≠ key) ∧ place' key' = pos
  have hslot := h.slot_place hstored
  have hstart : relation (ProbeTable.store slots (place key) none) state := by
    refine ⟨place, hrelated, ?_⟩
    intro pos key' value'
    rw [slot_store _ _ _ (lt_of_slot hslot)]
    constructor
    · intro hpos
      split at hpos
      · simp at hpos
      · next hne =>
        obtain ⟨hstored', rfl⟩ := (h.entry _ _ _).mp hpos
        refine ⟨⟨hstored', ?_⟩, rfl⟩
        rintro rfl
        exact hne rfl
    · rintro ⟨⟨hstored', hne⟩, rfl⟩
      have hslot' := h.slot_place hstored'
      rw [if_neg, hslot']
      intro heq
      rw [heq, hslot] at hslot'
      exact hne (congrArg Prod.fst (Option.some.inj hslot')).symm
  have hstep : ∀ slots state key' value' hole candidate, relation slots state → hole < cap →
      hole ≠ candidate → slot slots hole = none → slot slots candidate = some (key', value') →
      ∃ state', moved key' value' hole state = .ok (some state') ∧
        relation (ProbeTable.store (ProbeTable.store slots hole (some (key', value'))) candidate none)
          state' := by
    intro slots state key' value' hole candidate hrel hhole hne hnone hcandidate
    obtain ⟨place', hrelated', htable⟩ := hrel
    obtain ⟨⟨hstored', hkey⟩, _⟩ := (htable _ _ _).mp hcandidate
    obtain ⟨state', hcall, hrelated''⟩ := hmoved state place' key' value' hole hkey hstored' hhole
      hrelated'
    exact ⟨state', hcall, _, hrelated'', entry_move htable hhole hne hnone hcandidate⟩
  obtain ⟨slots', state', hremove, hprobed, place', hrelated', htable⟩ :=
    removeAt_spec stuck relation hcap hhome hstep h.probed (by rw [hslot]; simp) hstart hvacant
  exact ⟨slots', state', place', hremove, ⟨hprobed, htable⟩, hrelated'⟩

end Stores

end DeterministicExchange.ProbeTable
