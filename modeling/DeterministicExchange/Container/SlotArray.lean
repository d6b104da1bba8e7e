import Mathlib.Data.List.ReduceOption
import DeterministicExchange.Machine.Run

/-!
# Arrays of optional values

A table of fixed capacity without an index: a value is found by a scan from the
first slot, a new one goes into the first free slot. What the table holds is the
list of its values, of which one write exchanges one.
-/

namespace DeterministicExchange.SlotArray

variable {α : Type} {n : ℕ} {slots : Vector (Option α) n} {i : ℕ}

/-- The values of the used slots, in slot order. -/
def values (slots : Vector (Option α) n) : List α := slots.toList.reduceOption

/-- The first slot that passes a test. -/
def findSlot (test : Option α → Bool) (slots : Vector (Option α) n) : Option ℕ :=
  slots.toList.findIdx? test

theorem mem_values {a : α} : a ∈ values slots ↔ ∃ i : ℕ, slots[i]? = some (some a) := by
  unfold values
  rw [List.reduceOption_mem_iff, List.mem_iff_getElem?]
  simp only [Vector.getElem?_toList]

/-- A write exchanges one value. -/
theorem values_set {old : Option α} (h : slots[i]? = some old) :
    ∃ pre post, values slots = pre ++ old.toList ++ post ∧
      ∀ new, values (slots.setIfInBounds i new) = pre ++ new.toList ++ post := by
  have hi : i < slots.toList.length := by
    by_contra hout
    rw [← Vector.getElem?_toList, List.getElem?_eq_none (by omega)] at h
    exact absurd h (by simp)
  rw [← Vector.getElem?_toList, List.getElem?_eq_getElem hi] at h
  refine ⟨(slots.toList.take i).reduceOption, (slots.toList.drop (i + 1)).reduceOption, ?_, fun new ↦ ?_⟩
  · unfold values
    calc
      _ = (slots.toList.take i ++ old :: slots.toList.drop (i + 1)).reduceOption := by
        rw [← Option.some.inj h, List.getElem_cons_drop, List.take_append_drop]
      _ = _ := by cases old <;> simp [List.reduceOption_append]
  · unfold values
    have hlist : (slots.setIfInBounds i new).toList = slots.toList.set i new := by simp
    rw [hlist, List.set_eq_take_append_cons_drop, if_pos hi]
    cases new <;> simp [List.reduceOption_append]

theorem findSlot_eq_some {test : Option α → Bool} (h : findSlot test slots = some i) :
    ∃ slot, slots[i]? = some slot ∧ test slot = true := by
  obtain ⟨hi, htest, _⟩ := List.findIdx?_eq_some_iff_getElem.mp h
  refine ⟨slots.toList[i], ?_, htest⟩
  rw [← Vector.getElem?_toList, List.getElem?_eq_getElem hi]

theorem exists_findSlot {test : Option α → Bool} {slot : Option α} (hslot : slot ∈ slots.toList)
    (htest : test slot = true) : ∃ i, findSlot test slots = some i := by
  apply Option.isSome_iff_exists.mp
  unfold findSlot
  rw [List.findIdx?_isSome, List.any_eq_true]
  exact ⟨slot, hslot, htest⟩

/-- A scan finds the only value that it can be looking for. -/
theorem findSlot_value {p : α → Bool} {a : α} (hmem : a ∈ values slots) (ha : p a = true)
    (honly : ∀ b ∈ values slots, p b = true → b = a) :
    ∃ i, findSlot (fun slot ↦ slot.any p) slots = some i ∧ slots[i]? = some (some a) := by
  have hslot : some a ∈ slots.toList := List.reduceOption_mem_iff.mp hmem
  have htest : (some a).any p = true := ha
  obtain ⟨i, hfind⟩ := @exists_findSlot _ _ _ (fun slot ↦ slot.any p) _ hslot htest
  refine ⟨i, hfind, ?_⟩
  obtain ⟨slot, hget, htest⟩ := findSlot_eq_some hfind
  obtain ⟨b, rfl, hb⟩ := (Option.any_eq_true _ _).mp htest
  rw [hget, honly b (mem_values.mpr ⟨i, hget⟩) hb]

/-- A table that is not full has a free slot. -/
theorem findSlot_free (h : (values slots).length < n) :
    ∃ i, findSlot Option.isNone slots = some i ∧ slots[i]? = some none := by
  have hfree : ∃ slot ∈ slots.toList, slot.isNone = true := by
    by_contra hfull
    have hsome : ∀ slot ∈ slots.toList, slot.isSome = true := by
      intro slot hslot
      by_contra hnone
      exact hfull ⟨slot, hslot, by simpa using hnone⟩
    have hlength := List.reduceOption_length_eq_iff.mpr hsome
    unfold values at h
    rw [hlength, Vector.length_toList] at h
    exact lt_irrefl _ h
  obtain ⟨slot, hslot, hnone⟩ := hfree
  obtain ⟨i, hfind⟩ := exists_findSlot hslot hnone
  obtain ⟨slot', hget, hnone'⟩ := findSlot_eq_some hfind
  refine ⟨i, hfind, ?_⟩
  rw [hget, Option.isNone_iff_eq_none.mp hnone']

end DeterministicExchange.SlotArray
