import DeterministicExchange.Container.BackShift

/-!
# Moves of a deletion

Closing the hole of a deletion moves some entries back. The walk passes every position once before
it ends, so an entry moves at most once, and its new position is final when the callback hears of
it. The moves depend on the table alone: any callback is told the same ones, in the same order.
-/

namespace DeterministicExchange.ProbeTable

open Machine

variable {K V ε : Type} {cap : ℕ}

/-- What closing a hole does to a table: some entries move, each of them once, and no other entry
but that of the hole changes. -/
structure Closed (slots slots' : Slots K V cap) (hole : ℕ) (moves : List (K × V × ℕ)) : Prop where
  once : (moves.map Prod.fst).Nodup
  moved : ∀ move ∈ moves, slot slots' move.2.2 = some (move.1, move.2.1)
  kept : ∀ i key value, i ≠ hole → slot slots i = some (key, value) → key ∉ moves.map Prod.fst →
    slot slots' i = some (key, value)
  origin : ∀ i key value, slot slots' i = some (key, value) →
    ∃ j, j ≠ hole ∧ slot slots j = some (key, value)
  vacant : ∃ e, e < cap ∧ slot slots' e = none

/-- The moved entries come from other positions than the hole and their new one, which lie from the
candidate on and before the vacant position `e`. -/
def Ahead (slots : Slots K V cap) (hole candidate e : ℕ) (moves : List (K × V × ℕ)) : Prop :=
  ∀ move ∈ moves, ∃ i, i ≠ hole ∧ i ≠ move.2.2 ∧ slot slots i = some (move.1, move.2.1) ∧
    distance cap candidate i < distance cap candidate e

/-- The walk reports its moves, one after the other, whatever its callback does with them. -/
def Reports (stuck : ε) (home : K → ℕ) (fuel : ℕ) (slots : Slots K V cap) (hole candidate : ℕ)
    (slots' : Slots K V cap) (moves : List (K × V × ℕ)) : Prop :=
  ∀ {S R : Type} (moved : K → V → ℕ → S → Except ε (Option S)) (reports : List R)
    (report : S → R → Except ε S),
    List.Forall₂ (fun move r ↦ ∀ state, moved move.1 move.2.1 move.2.2 state =
      (report state r).map some) moves reports →
    ∀ state, closeHole stuck home moved fuel slots hole candidate state =
      (reports.foldlM report state).map fun state' ↦ (true, slots', state')

section Moves

variable {home : K → ℕ} {slots slots' : Slots K V cap} {hole candidate e fuel : ℕ} {key : K} {value : V}
  {moves : List (K × V × ℕ)}

theorem distance_next (hcap : cap ≤ 2 ^ 63) (hcandidate : candidate < cap) {i : ℕ} (hi : i < cap)
    (hne : i ≠ candidate) : distance cap candidate i = distance cap (position cap candidate 1) i + 1 := by
  rw [position_one hcap hcandidate]
  unfold distance
  rcases Nat.lt_or_gt_of_ne hne with hlt | hlt <;> grind

/-- A hole behind the candidate is not met before the vacant position. -/
theorem not_ahead_of_hole (hcap : cap ≤ 2 ^ 63) (hhole : hole < cap) (hcandidate : candidate < cap)
    (he : e < cap) (hne : hole ≠ candidate) (hec : e ≠ candidate)
    (hahead : distance cap hole candidate ≤ distance cap hole e) :
    ¬ distance cap (position cap candidate 1) hole < distance cap (position cap candidate 1) e := by
  rw [position_one hcap hcandidate]
  unfold distance at hahead ⊢
  rcases Nat.lt_or_gt_of_ne hne with hlt | hlt <;> grind

theorem Closed.nil (hhole : hole < cap) : Closed slots (store slots hole none) hole [] where
  once := List.nodup_nil
  moved := by simp
  kept := by
    intro i key value hi hslot _
    rw [slot_store _ _ _ hhole, if_neg hi, hslot]
  origin := by
    intro i key value hslot
    rw [slot_store _ _ _ hhole] at hslot
    split at hslot
    · simp at hslot
    · next hi => exact ⟨i, hi, hslot⟩
  vacant := ⟨hole, hhole, by rw [slot_store _ _ _ hhole, if_pos rfl]⟩

/-- A key that moves into the hole is not moved again. -/
theorem Ahead.fresh (hcap : cap ≤ 2 ^ 63) (hshift : Shifting home slots hole candidate) (he : e < cap)
    (hec : e ≠ candidate) (hnone : slot slots e = none) (hslot : slot slots candidate = some (key, value))
    (h : Ahead (store slots hole (some (key, value))) candidate (position cap candidate 1) e moves) :
    key ∉ moves.map Prod.fst := by
  intro hmem
  obtain ⟨move, hmove, rfl⟩ := List.mem_map.mp hmem
  obtain ⟨i, hi, _, hslot', hlt⟩ := h move hmove
  rw [slot_store _ _ _ hshift.hole_lt] at hslot'
  split at hslot'
  · next heq =>
    rw [heq] at hlt
    exact not_ahead_of_hole hcap hshift.hole_lt hshift.candidate_lt he hshift.hole_ne hec
      (hshift.vacant_ahead he hnone) hlt
  · next hhole =>
    exact hi (hshift.unique i candidate move.1 move.2.1 value hhole (Ne.symm hshift.hole_ne) hslot' hslot)

/-- The walk goes on after an entry moved into the hole. -/
theorem Closed.cons (hhole : hole < cap) (hne : hole ≠ candidate)
    (hslot : slot slots candidate = some (key, value)) (hfresh : key ∉ moves.map Prod.fst)
    (h : Closed (store slots hole (some (key, value))) slots' candidate moves) :
    Closed slots slots' hole ((key, value, hole) :: moves) where
  once := List.nodup_cons.mpr ⟨hfresh, h.once⟩
  moved := by
    intro move hmove
    rcases List.mem_cons.mp hmove with rfl | hmove
    · exact h.kept hole key value hne (by rw [slot_store _ _ _ hhole, if_pos rfl]) hfresh
    · exact h.moved move hmove
  kept := by
    intro i key' value' hi hslot' hkey
    rw [List.map_cons, List.mem_cons, not_or] at hkey
    have hic : i ≠ candidate := by
      rintro rfl
      rw [hslot] at hslot'
      exact hkey.1 (congrArg Prod.fst (Option.some.inj hslot')).symm
    exact h.kept i key' value' hic (by rw [slot_store _ _ _ hhole, if_neg hi, hslot']) hkey.2
  origin := by
    intro i key' value' hslot'
    obtain ⟨j, hj, horigin⟩ := h.origin i key' value' hslot'
    rw [slot_store _ _ _ hhole] at horigin
    split at horigin
    · rw [← horigin]
      exact ⟨candidate, Ne.symm hne, hslot⟩
    · next hjh => exact ⟨j, hjh, horigin⟩
  vacant := h.vacant

theorem Ahead.cons (hcap : cap ≤ 2 ^ 63) (hshift : Shifting home slots hole candidate) (he : e < cap)
    (hec : e ≠ candidate) (hnone : slot slots e = none) (hslot : slot slots candidate = some (key, value))
    (h : Ahead (store slots hole (some (key, value))) candidate (position cap candidate 1) e moves) :
    Ahead slots hole candidate e ((key, value, hole) :: moves) := by
  intro move hmove
  rcases List.mem_cons.mp hmove with rfl | hmove
  · refine ⟨candidate, Ne.symm hshift.hole_ne, Ne.symm hshift.hole_ne, hslot, ?_⟩
    rw [distance_self, distance_next hcap hshift.candidate_lt he hec]
    exact Nat.succ_pos _
  · obtain ⟨i, hi, hmoved, hslot', hlt⟩ := h move hmove
    rw [slot_store _ _ _ hshift.hole_lt] at hslot'
    split at hslot'
    · next heq =>
      rw [heq] at hlt
      exact absurd hlt (not_ahead_of_hole hcap hshift.hole_lt hshift.candidate_lt he hshift.hole_ne hec
        (hshift.vacant_ahead he hnone))
    · next hhole =>
      refine ⟨i, hhole, hmoved, hslot', ?_⟩
      rw [distance_next hcap hshift.candidate_lt (lt_of_slot hslot') hi,
        distance_next hcap hshift.candidate_lt he hec]
      exact Nat.succ_lt_succ hlt

theorem Ahead.keep (hcap : cap ≤ 2 ^ 63) (hcandidate : candidate < cap) (he : e < cap)
    (hec : e ≠ candidate) (h : Ahead slots hole (position cap candidate 1) e moves) :
    Ahead slots hole candidate e moves := by
  intro move hmove
  obtain ⟨i, hi, hmoved, hslot, hlt⟩ := h move hmove
  refine ⟨i, hi, hmoved, hslot, ?_⟩
  rw [distance_next hcap hcandidate he hec]
  by_cases hic : i = candidate
  · rw [hic, distance_self]
    exact Nat.succ_pos _
  · rw [distance_next hcap hcandidate (lt_of_slot hslot) hic]
    exact Nat.succ_lt_succ hlt

/-- A walk ends at a vacant position, and moves each entry at most once. -/
theorem closeHole_moves (hcap : cap ≤ 2 ^ 63) (hhome : ∀ key, home key < cap) (stuck : ε) (fuel : ℕ)
    (slots : Slots K V cap) (hole candidate : ℕ) (hshift : Shifting home slots hole candidate)
    (he : e < cap) (hne : e ≠ hole) (hnone : slot slots e = none)
    (hfuel : distance cap candidate e < fuel) :
    ∃ slots' moves, Probed home slots' ∧ Closed slots slots' hole moves ∧
      Ahead slots hole candidate e moves ∧ Reports stuck home fuel slots hole candidate slots' moves := by
  induction fuel generalizing slots hole candidate with
  | zero => omega
  | succ fuel ih =>
    have hcandidate := hshift.candidate_lt
    cases hslot : slot slots candidate with
    | none =>
      refine ⟨store slots hole none, [], hshift.finish hhome hslot, .nil hshift.hole_lt, by simp [Ahead], ?_⟩
      intro S R moved reports report hreports state
      cases hreports
      rw [closeHole, hslot]
      rfl
    | some entry =>
      obtain ⟨key, value⟩ := entry
      have hec : e ≠ candidate := by
        rintro rfl
        simp [hslot] at hnone
      have hfuel' : distance cap (position cap candidate 1) e < fuel := by
        rw [distance_next hcap hcandidate he hec] at hfuel
        exact Nat.lt_of_succ_lt_succ hfuel
      by_cases hmove : distance cap (home key) hole < distance cap (home key) candidate
      · have hnone' : slot (store slots hole (some (key, value))) e = none := by
          rw [slot_store _ _ _ hshift.hole_lt, if_neg hne, hnone]
        obtain ⟨slots', moves, hprobed, hclosed, hahead, hreports⟩ :=
          ih _ _ _ (hshift.shift hcap hslot hmove) hec hnone' hfuel'
        have hfresh := hahead.fresh hcap hshift he hec hnone hslot
        refine ⟨slots', (key, value, hole) :: moves, hprobed,
          hclosed.cons hshift.hole_lt hshift.hole_ne hslot hfresh,
          hahead.cons hcap hshift he hec hnone hslot, ?_⟩
        intro S R moved reports report hpairs state
        cases hpairs with
        | @cons _ r _ reports hhead htail =>
          rw [closeHole, hslot, List.foldlM_cons]
          dsimp only at hhead ⊢
          rw [if_pos hmove, hhead]
          cases report state r with
          | error error => rfl
          | ok state' => exact hreports moved reports report htail state'
      · obtain ⟨slots', moves, hprobed, hclosed, hahead, hreports⟩ :=
          ih _ _ _ (hshift.keep hcap hslot hmove he hne hnone) hne hnone hfuel'
        refine ⟨slots', moves, hprobed, hclosed, hahead.keep hcap hcandidate he hec, ?_⟩
        intro S R moved reports report hpairs state
        rw [closeHole, hslot]
        dsimp only
        rw [if_neg hmove]
        exact hreports moved reports report hpairs state

end Moves

end DeterministicExchange.ProbeTable
