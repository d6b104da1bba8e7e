import DeterministicExchange.Machine.Run

/-!
# Padded arrays

A list of bounded length is stored in a fixed array, followed by a filler.
Writing at the end of the stored part appends to the list. An array is the
padding of its first `k` entries exactly when all other entries are fillers.
-/

namespace DeterministicExchange.Machine

variable {α : Type} {n : ℕ}

def pad (n : ℕ) (filler : α) (stored : List α) : Vector α n := Vector.ofFn fun i ↦ stored.getD i filler

namespace Run

/-- The slice `array[..k]`. -/
def sliceTo (array : Vector α n) (k : ℕ) : Run (List α) :=
  if k ≤ n then .ok (array.toList.take k) else .error .index

/-- The slice `array[k..]`. -/
def sliceFrom (array : Vector α n) (k : ℕ) : Run (List α) :=
  if k ≤ n then .ok (array.toList.drop k) else .error .index

theorem sliceTo_of_le (array : Vector α n) {k : ℕ} (h : k ≤ n) :
    sliceTo array k = .ok (array.toList.take k) := if_pos h

theorem sliceFrom_of_le (array : Vector α n) {k : ℕ} (h : k ≤ n) :
    sliceFrom array k = .ok (array.toList.drop k) := if_pos h

end Run

theorem getElem?_pad (filler : α) (stored : List α) (i : ℕ) :
    (pad n filler stored)[i]? = if i < n then some (stored.getD i filler) else none := by
  unfold pad
  rw [Vector.getElem?_ofFn]
  split <;> rfl

theorem write_pad {filler : α} {stored : List α} (h : stored.length < n) (a : α) :
    Run.write (pad n filler stored) stored.length a = .ok (pad n filler (stored ++ [a])) := by
  rw [Run.write_of_lt _ _ h]
  congr 1
  apply Vector.ext
  intro i hi
  simp only [pad, Vector.getElem_setIfInBounds, Vector.getElem_ofFn]
  split
  · next heq =>
    subst heq
    simp
  · next hne =>
    rcases Nat.lt_or_ge i stored.length with hlt | hge
    · simp [hlt, List.getElem?_append_left]
    · have hge' : (stored ++ [a]).length ≤ i := by
        rw [List.length_append, List.length_singleton]
        omega
      simp [List.getElem?_eq_none hge, List.getElem?_eq_none hge']

theorem read_pad {filler : α} {stored : List α} (h : stored.length < n) :
    Run.read (pad n filler stored) stored.length = .ok filler := by
  rw [Run.read_eq_ok, getElem?_pad, if_pos h]
  simp

theorem toList_pad {filler : α} {stored : List α} (h : stored.length ≤ n) :
    (pad n filler stored).toList = stored ++ List.replicate (n - stored.length) filler := by
  apply List.ext_getElem?
  intro i
  rw [Vector.getElem?_toList, getElem?_pad]
  rcases Nat.lt_or_ge i stored.length with hlt | hge
  · rw [if_pos (by omega), List.getElem?_append_left hlt]
    simp [hlt]
  · rw [List.getElem?_append_right hge, List.getElem?_replicate, List.getD_eq_getElem?_getD,
      List.getElem?_eq_none hge, Option.getD_none]
    by_cases hi : i < n
    · rw [if_pos hi, if_pos (by omega)]
    · rw [if_neg hi, if_neg (by omega)]

theorem take_toList_pad (filler : α) {stored : List α} (h : stored.length ≤ n) :
    (pad n filler stored).toList.take stored.length = stored := by
  rw [toList_pad h, List.take_left]

theorem drop_toList_pad (filler : α) {stored : List α} (h : stored.length ≤ n) :
    (pad n filler stored).toList.drop stored.length = List.replicate (n - stored.length) filler := by
  rw [toList_pad h, List.drop_left]

/-- An array whose entries from `k` on are fillers. -/
theorem eq_pad {array : Vector α n} {filler : α} {k : ℕ} (hk : k ≤ n)
    (h : ∀ a ∈ array.toList.drop k, a = filler) : array = pad n filler (array.toList.take k) := by
  have hlen : (array.toList.take k).length = k := by simp [hk]
  have hdrop : array.toList.drop k = List.replicate (n - k) filler := by
    rw [List.eq_replicate_iff]
    exact ⟨by simp, h⟩
  apply Vector.toList_inj.mp
  rw [toList_pad (by omega), hlen, ← hdrop, List.take_append_drop]

end DeterministicExchange.Machine
