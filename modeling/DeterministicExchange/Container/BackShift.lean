import DeterministicExchange.Container.ProbeTable

/-!
# Back-shift deletion

Deleting an entry leaves a hole that later entries of the same run may need to
be reachable across. The loop walks forward from the hole. An entry whose probe
path crosses the hole moves into it, and its old position becomes the hole. The
loop ends at the first vacant slot, where the last hole is cleared.

Each move is reported to a callback on a state of the caller. A callback may
also abandon the walk. `closeHole_spec` is the rule for this loop: any relation
between the table without its hole and the caller's state that every single
move preserves is preserved by the whole walk, which terminates whenever the
table has another vacant slot.
-/

namespace DeterministicExchange.ProbeTable

open Machine

variable {K V S ε : Type} {cap : ℕ}

/-- The walk with hole `hole` and candidate `candidate`. The flag tells whether it was completed
or abandoned by the callback; `stuck` is the error of a walk that finds no vacant slot. -/
def closeHole (stuck : ε) (home : K → ℕ) (moved : K → V → ℕ → S → Except ε (Option S)) :
    ℕ → Slots K V cap → ℕ → ℕ → S → Except ε (Bool × Slots K V cap × S)
  | 0, _, _, _, _ => .error stuck
  | fuel + 1, slots, hole, candidate, state =>
    match slot slots candidate with
    | none => .ok (true, store slots hole none, state)
    | some (key, value) =>
      if distance cap (home key) hole < distance cap (home key) candidate then
        match moved key value hole state with
        | .error e => .error e
        | .ok none => .ok (false, slots, state)
        | .ok (some state') =>
          closeHole stuck home moved fuel (store slots hole (some (key, value))) candidate
            (position cap candidate 1) state'
      else closeHole stuck home moved fuel slots hole (position cap candidate 1) state

/-- Deletion at `i`. -/
def removeAt (stuck : ε) (home : K → ℕ) (moved : K → V → ℕ → S → Except ε (Option S))
    (slots : Slots K V cap) (i : ℕ) (state : S) : Except ε (Bool × Slots K V cap × S) :=
  closeHole stuck home moved cap slots i (position cap i 1) state

/-- Loop invariant: `Probed` up to the hole, with every path across the hole still ahead. -/
structure Shifting (home : K → ℕ) (slots : Slots K V cap) (hole candidate : ℕ) : Prop where
  hole_lt : hole < cap
  candidate_lt : candidate < cap
  hole_ne : hole ≠ candidate
  between : ∀ j, j < cap → distance cap hole j < distance cap hole candidate → slot slots j ≠ none
  reach : ∀ i key value, i ≠ hole → slot slots i = some (key, value) → ∀ j, j < cap → j ≠ hole →
    distance cap (home key) j < distance cap (home key) i → slot slots j ≠ none
  ahead : ∀ i key value, i ≠ hole → slot slots i = some (key, value) →
    distance cap (home key) hole < distance cap (home key) i →
    distance cap hole candidate ≤ distance cap hole i
  unique : ∀ i j key value value', i ≠ hole → j ≠ hole → slot slots i = some (key, value) →
    slot slots j = some (key, value') → i = j

section Steps

variable {home : K → ℕ} {slots : Slots K V cap} {hole candidate : ℕ}

/-- A vacant slot other than the hole lies at or beyond the candidate. -/
theorem Shifting.vacant_ahead (h : Shifting home slots hole candidate) {e : ℕ} (he : e < cap)
    (hnone : slot slots e = none) : distance cap hole candidate ≤ distance cap hole e := by
  by_contra hlt
  exact h.between e he (by omega) hnone

theorem position_one (hcap : cap ≤ 2 ^ 63) {i : ℕ} (hi : i < cap) :
    position cap i 1 = if i + 1 < cap then i + 1 else 0 := by
  rw [position_eq hcap hi (by omega)]
  split <;> omega

/-- Keeping a candidate whose path does not cross the hole. -/
theorem Shifting.keep (hcap : cap ≤ 2 ^ 63) (h : Shifting home slots hole candidate)
    {key : K} {value : V} (hslot : slot slots candidate = some (key, value))
    (hkeep : ¬ distance cap (home key) hole < distance cap (home key) candidate)
    {e : ℕ} (he : e < cap) (hne : e ≠ hole) (hnone : slot slots e = none) :
    Shifting home slots hole (position cap candidate 1) := by
  have hcand := h.candidate_lt
  have hhole := h.hole_lt
  have hahead := h.vacant_ahead he hnone
  have hec : e ≠ candidate := by
    rintro rfl
    simp [hslot] at hnone
  have hstep : distance cap hole (position cap candidate 1) = distance cap hole candidate + 1 := by
    rw [position_one hcap hcand]
    unfold distance at hahead ⊢
    grind
  refine ⟨hhole, position_lt _ _ (by omega), ?_, ?_, h.reach, ?_, h.unique⟩
  · intro heq
    rw [← heq, distance_self] at hstep
    omega
  · intro j hj hlt
    rw [hstep] at hlt
    rcases Nat.lt_or_ge (distance cap hole j) (distance cap hole candidate) with hlt' | hge
    · exact h.between j hj hlt'
    · rw [distance_injective hhole hj hcand (by omega), hslot]
      exact Option.some_ne_none _
  · intro i key' value' hi hslot' hcross
    have hle := h.ahead i key' value' hi hslot' hcross
    rw [hstep]
    rcases Nat.lt_or_ge (distance cap hole candidate) (distance cap hole i) with hlt | hge
    · omega
    · have hic := distance_injective hhole (lt_of_slot hslot') hcand (by omega)
      subst hic
      rw [hslot] at hslot'
      obtain ⟨rfl, rfl⟩ : key = key' ∧ value = value' := by simpa using hslot'
      exact absurd hcross hkeep

/-- Moving the candidate into the hole. -/
theorem Shifting.shift (hcap : cap ≤ 2 ^ 63) (h : Shifting home slots hole candidate)
    {key : K} {value : V} (hslot : slot slots candidate = some (key, value))
    (hmove : distance cap (home key) hole < distance cap (home key) candidate) :
    Shifting home (store slots hole (some (key, value))) candidate (position cap candidate 1) := by
  have hcand := h.candidate_lt
  have hhole := h.hole_lt
  have hne := h.hole_ne
  have hstep : distance cap candidate (position cap candidate 1) = 1 := by
    rw [position_one hcap hcand]
    unfold distance
    grind
  refine ⟨hcand, position_lt _ _ (by omega), ?_, ?_, ?_, ?_, ?_⟩
  · intro heq
    rw [← heq, distance_self] at hstep
    omega
  · intro j hj hlt
    rw [hstep] at hlt
    have hjc : candidate = j := distance_eq_zero hcand (by omega)
    rw [slot_store _ _ _ hhole, if_neg (by omega), ← hjc, hslot]
    exact Option.some_ne_none _
  · intro i key' value' hi hslot' j hj hjc hlt
    rw [slot_store _ _ _ hhole] at hslot' ⊢
    split
    · exact Option.some_ne_none _
    · next hjh =>
      split at hslot'
      · next hih =>
        obtain ⟨rfl, rfl⟩ : key = key' ∧ value = value' := by simpa using hslot'
        exact h.reach candidate key value (Ne.symm hne) hslot j hj hjh (by rw [hih] at hlt; omega)
      · next hih => exact h.reach i key' value' hih hslot' j hj hjh hlt
  · intro i key' value' hi _ _
    rw [hstep]
    by_contra hlt
    exact hi (distance_eq_zero hcand (by omega)).symm
  · intro i j key' value' value'' hi hj hsi hsj
    rw [slot_store _ _ _ hhole] at hsi hsj
    split at hsi
    · next hih =>
      obtain ⟨rfl, rfl⟩ : key = key' ∧ value = value' := by simpa using hsi
      split at hsj
      · next hjh => exact hih.trans hjh.symm
      · next hjh =>
        exact absurd (h.unique candidate j key value value'' (Ne.symm hne) hjh hslot hsj) (Ne.symm hj)
    · next hih =>
      split at hsj
      · obtain ⟨rfl, rfl⟩ : key = key' ∧ value = value'' := by simpa using hsj
        exact absurd (h.unique i candidate key value' value hih (Ne.symm hne) hsi hslot) hi
      · next hjh => exact h.unique i j key' value' value'' hih hjh hsi hsj

/-- At a vacant candidate no path crosses the hole any more. -/
theorem Shifting.finish (hhome : ∀ key, home key < cap) (h : Shifting home slots hole candidate)
    (hnone : slot slots candidate = none) : Probed home (store slots hole none) where
  reach := by
    intro i key value hslot j hj hlt
    have hhole := h.hole_lt
    rw [slot_store _ _ _ hhole] at hslot ⊢
    split at hslot
    · simp at hslot
    · next hih =>
      split
      · next hjh =>
        exfalso
        have hi := lt_of_slot hslot
        have hahead := h.ahead i key value hih hslot (hjh ▸ hlt)
        have hic : i ≠ candidate := by
          rintro rfl
          simp [hslot] at hnone
        have hcand := h.candidate_lt
        have hb := hhome key
        refine h.reach i key value hih hslot candidate hcand (Ne.symm h.hole_ne) ?_ hnone
        have hlt' : distance cap hole candidate < distance cap hole i := by
          rcases Nat.lt_or_ge (distance cap hole candidate) (distance cap hole i) with hlt | hge
          · exact hlt
          · exact absurd (distance_injective hhole hcand hi (by omega)).symm hic
        rw [hjh] at hlt
        unfold distance at hlt hlt' ⊢
        grind
      · next hjh => exact h.reach i key value hih hslot j hj hjh hlt
  unique := by
    intro i j key value value' hi hj
    rw [slot_store _ _ _ h.hole_lt] at hi hj
    split at hi
    · simp at hi
    · next hih =>
      split at hj
      · simp at hj
      · next hjh => exact h.unique i j key value value' hih hjh hi hj

/-- Deletion starts with the invariant. -/
theorem Probed.shifting (hcap : cap ≤ 2 ^ 63) (h : Probed home slots) {i : ℕ} (hi : i < cap)
    (hone : 1 < cap) (hslot : slot slots i ≠ none) : Shifting home slots i (position cap i 1) := by
  have hstep : distance cap i (position cap i 1) = 1 := by
    rw [position_one hcap hi]
    unfold distance
    grind
  refine ⟨hi, position_lt _ _ (by omega), ?_, ?_, ?_, ?_, ?_⟩
  · intro heq
    rw [← heq, distance_self] at hstep
    omega
  · intro j hj hlt
    rw [← distance_eq_zero hi (by omega : distance cap i j = 0)]
    exact hslot
  · intro k key value _ hk j hj _ hlt
    exact h.reach k key value hk j hj hlt
  · intro k key value hk _ _
    rw [hstep]
    by_contra hlt
    exact hk (distance_eq_zero hi (by omega)).symm
  · intro k j key value value' _ _ hk hj
    exact h.unique k j key value value' hk hj

end Steps

/-- The rule of the loop. `related` holds of the table without its hole and the caller's state; it
is preserved by each single move, so it holds at the end, where the invariant is restored. -/
theorem closeHole_spec {stuck : ε} {home : K → ℕ} {moved : K → V → ℕ → S → Except ε (Option S)}
    (related : Slots K V cap → S → Prop) (hcap : cap ≤ 2 ^ 63) (hhome : ∀ key, home key < cap)
    (hmoved : ∀ slots state key value hole candidate, related slots state → hole < cap →
      hole ≠ candidate → slot slots hole = none → slot slots candidate = some (key, value) →
      ∃ state', moved key value hole state = .ok (some state') ∧
        related (store (store slots hole (some (key, value))) candidate none) state')
    (fuel : ℕ) (slots : Slots K V cap) (hole candidate : ℕ) (state : S) {e : ℕ}
    (hshift : Shifting home slots hole candidate) (hrel : related (store slots hole none) state)
    (he : e < cap) (hne : e ≠ hole) (hnone : slot slots e = none)
    (hfuel : distance cap candidate e < fuel) :
    ∃ slots' state', closeHole stuck home moved fuel slots hole candidate state =
      .ok (true, slots', state') ∧ Probed home slots' ∧ related slots' state' := by
  induction fuel generalizing slots hole candidate state with
  | zero => omega
  | succ fuel ih =>
    have hcand := hshift.candidate_lt
    have hhole := hshift.hole_lt
    rw [closeHole]
    cases hslot : slot slots candidate with
    | none => exact ⟨_, _, rfl, hshift.finish hhome hslot, hrel⟩
    | some entry =>
      obtain ⟨key, value⟩ := entry
      have hec : e ≠ candidate := by
        rintro rfl
        simp [hslot] at hnone
      have hfuel' : distance cap (position cap candidate 1) e < fuel := by
        rw [position_one hcap hcand]
        unfold distance at hfuel ⊢
        grind
      by_cases hmove : distance cap (home key) hole < distance cap (home key) candidate
      · simp only [hmove, if_true]
        have hslot' : slot (store slots hole none) candidate = some (key, value) := by
          rw [slot_store _ _ _ hhole, if_neg (Ne.symm hshift.hole_ne), hslot]
        obtain ⟨state', hok, hrel'⟩ := hmoved _ state key value hole candidate hrel hhole
          hshift.hole_ne (by rw [slot_store _ _ _ hhole, if_pos rfl]) hslot'
        rw [hok]
        have hsame : store (store (store slots hole none) hole (some (key, value))) candidate none =
            store (store slots hole (some (key, value))) candidate none := by
          apply slots_ext
          intro i hi
          rw [slot_store _ _ _ hcand, slot_store _ _ _ hcand, slot_store _ _ _ hhole,
            slot_store _ _ _ hhole, slot_store _ _ _ hhole]
          grind
        rw [hsame] at hrel'
        refine ih _ _ _ _ (hshift.shift hcap hslot hmove) hrel' hec ?_ hfuel'
        rw [slot_store _ _ _ hhole, if_neg hne, hnone]
      · simp only [hmove, if_false]
        exact ih _ _ _ _ (hshift.keep hcap hslot hmove he hne hnone) hrel hne hnone hfuel'

/-- The rule of deletion. -/
theorem removeAt_spec (stuck : ε) {home : K → ℕ} {moved : K → V → ℕ → S → Except ε (Option S)}
    (related : Slots K V cap → S → Prop) (hcap : cap ≤ 2 ^ 63) (hhome : ∀ key, home key < cap)
    (hmoved : ∀ slots state key value hole candidate, related slots state → hole < cap →
      hole ≠ candidate → slot slots hole = none → slot slots candidate = some (key, value) →
      ∃ state', moved key value hole state = .ok (some state') ∧
        related (store (store slots hole (some (key, value))) candidate none) state')
    {slots : Slots K V cap} {i : ℕ} {state : S} (hprobed : Probed home slots)
    (hslot : slot slots i ≠ none) (hrel : related (store slots i none) state)
    (hvacant : ∃ e, e < cap ∧ slot slots e = none) :
    ∃ slots' state', removeAt stuck home moved slots i state = .ok (true, slots', state') ∧
      Probed home slots' ∧ related slots' state' := by
  obtain ⟨e, he, hnone⟩ := hvacant
  obtain ⟨entry, hentry⟩ := Option.ne_none_iff_exists'.mp hslot
  have hi := lt_of_slot hentry
  have hei : e ≠ i := by
    rintro rfl
    exact hslot hnone
  have hshift := hprobed.shifting hcap hi (by omega) hslot
  exact closeHole_spec related hcap hhome hmoved cap slots i _ state hshift hrel he hei hnone
    (distance_lt hshift.candidate_lt he)

end DeterministicExchange.ProbeTable
