import Mathlib.Data.List.Pairwise
import Mathlib.Order.Lattice
import Mathlib.Tactic.Common

/-!
# Binary search

The search of the standard library in an array of strictly ascending keys: a
window of candidates is halved until one is left, which is then compared.
-/

namespace DeterministicExchange.BinarySearch

/-- Halves the window of `size` positions at `base`, as long as it has more than one. -/
def narrow (above : ℕ → Bool) : ℕ → ℕ → ℕ → ℕ
  | 0, base, _ => base
  | fuel + 1, base, size =>
    if 1 < size then
      let half := size / 2
      narrow above fuel (if above (base + half) then base else base + half) (size - half)
    else base

/-- A position inside the window that separates the larger keys from the others is found. -/
theorem narrow_eq {above : ℕ → Bool} {target fuel base size : ℕ} (hfuel : size ≤ fuel)
    (hbase : base ≤ target) (hsize : target < base + size)
    (habove : ∀ i, base ≤ i → i < base + size → (above i = true ↔ target < i)) :
    narrow above fuel base size = target := by
  induction fuel generalizing base size with
  | zero => omega
  | succ fuel ih =>
    by_cases hmore : 1 < size
    · have hstep : narrow above (fuel + 1) base size = narrow above fuel
          (if above (base + size / 2) then base else base + size / 2) (size - size / 2) := if_pos hmore
      have hhalf := habove (base + size / 2) (by omega) (by omega)
      rw [hstep]
      cases hmid : above (base + size / 2) with
      | true =>
        have hlt : target < base + size / 2 := hhalf.mp hmid
        rw [if_pos rfl]
        apply ih (by omega) hbase (by omega)
        intro i hi hi'
        exact habove i hi (by omega)
      | false =>
        have hle : ¬ target < base + size / 2 := fun hlt ↦ by simp [hhalf.mpr hlt] at hmid
        rw [if_neg (by simp)]
        apply ih (by omega) (by omega) (by omega)
        intro i hi hi'
        exact habove i (by omega) (by omega)
    · have hstep : narrow above (fuel + 1) base size = base := if_neg hmore
      omega

variable {K : Type} [LinearOrder K]

def find (keys : List K) (key : K) : Option ℕ :=
  let position := narrow (fun i ↦ (keys[i]?).any fun other ↦ key < other) keys.length 0 keys.length
  if keys[position]? = some key then some position else none

/-- In ascending keys a key is found at its position, and no other key is found. -/
theorem find_eq_some {keys : List K} (h : keys.Pairwise (· < ·)) (key : K) (position : ℕ) :
    find keys key = some position ↔ keys[position]? = some key := by
  have hfind : ∀ i, keys[i]? = some key → find keys key = some i := by
    intro i hi
    obtain ⟨hlt, hkey⟩ := List.getElem?_eq_some_iff.mp hi
    have hposition : narrow (fun j ↦ (keys[j]?).any fun other ↦
      key < other) keys.length 0 keys.length = i := by
      apply narrow_eq (Nat.le_refl _) (Nat.zero_le i) (by omega)
      intro j _ hj
      have hj' : j < keys.length := by omega
      rw [List.getElem?_eq_getElem hj', Option.any_some, decide_eq_true_eq, ← hkey]
      constructor
      · intro habove
        apply Nat.lt_of_not_le
        intro hle
        rcases Nat.lt_or_eq_of_le hle with hlt' | rfl
        · exact lt_asymm habove (List.pairwise_iff_getElem.mp h j i hj' hlt hlt')
        · exact lt_irrefl _ habove
      · exact List.pairwise_iff_getElem.mp h i j hlt hj'
    unfold find
    rw [hposition, if_pos hi]
  constructor
  · intro hsome
    unfold find at hsome
    simp only at hsome
    split at hsome
    · next hkey => rwa [← Option.some.inj hsome]
    · simp at hsome
  · exact hfind position

end DeterministicExchange.BinarySearch
