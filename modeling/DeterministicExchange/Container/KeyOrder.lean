import Mathlib.Data.List.Chain
import Mathlib.Data.List.Sort

/-!
# Lists ordered by a key

Records with distinct keys have one arrangement in strictly ascending key order.
Sorting a list of such records yields that arrangement, whatever order they were
met in.
-/

namespace DeterministicExchange.KeyOrder

variable {α β : Type} [LinearOrder β] {f : α → β}

theorem nodup_keys {l : List α} (h : l.Pairwise fun a b ↦ f a < f b) : (l.map f).Nodup := by
  rw [List.nodup_iff_pairwise_ne, List.pairwise_map]
  exact h.imp fun hlt ↦ hlt.ne

/-- Two arrangements of the same records with the same sequence of distinct keys are equal. -/
theorem eq_of_map_eq {γ : Type} {g : α → γ} {l l' : List α} (hperm : l.Perm l')
    (hnodup : (l.map g).Nodup) (hkeys : l.map g = l'.map g) : l = l' := by
  refine List.ext_getElem hperm.length_eq ?_
  intro i hi hi'
  have hkey : g l[i] = g l'[i] := by
    have hget := List.getElem_of_eq hkeys (by simpa using hi : i < (l.map g).length)
    rwa [List.getElem_map, List.getElem_map] at hget
  exact List.inj_on_of_nodup_map hnodup (List.getElem_mem hi)
    (hperm.mem_iff.mpr (List.getElem_mem hi')) hkey

/-- Two lists of as many records, written one after the other at a fixed width, agree record by
record. -/
theorem map_eq_of_flatMap_eq {γ : Type} {g : α → List γ} {n : ℕ} (hwidth : ∀ a, (g a).length = n)
    {l l' : List α} (hlength : l.length = l'.length) (h : l.flatMap g = l'.flatMap g) :
    l.map g = l'.map g := by
  induction l generalizing l' with
  | nil =>
    obtain rfl := List.length_eq_zero_iff.mp hlength.symm
    rfl
  | cons a l ih =>
    cases l' with
    | nil => simp at hlength
    | cons b l' =>
      rw [List.flatMap_cons, List.flatMap_cons] at h
      obtain ⟨hhead, htail⟩ := List.append_inj h ((hwidth a).trans (hwidth b).symm)
      rw [List.map_cons, List.map_cons, hhead, ih (by simpa using hlength) htail]

/-- The values found in a list whose first places hold them in turn. -/
theorem filterMap_eq {γ : Type} {g : α → Option γ} {l : List α} {values : List γ}
    (h : ∀ i : ℕ, l[i]?.bind g = values[i]?) : l.filterMap g = values := by
  induction l generalizing values with
  | nil =>
    have hnone := h 0
    rw [List.getElem?_nil, Option.bind_none] at hnone
    rw [List.filterMap_nil]
    exact (List.getElem?_eq_none_iff.mp hnone.symm |> fun hle ↦
      (List.length_eq_zero_iff.mp (Nat.le_zero.mp hle)).symm)
  | cons a l ih =>
    have hhead := h 0
    rw [List.getElem?_cons_zero, Option.bind_some] at hhead
    cases values with
    | nil =>
      have htail : ∀ i : ℕ, l[i]?.bind g = ([] : List γ)[i]? := fun i ↦ by simpa using h (i + 1)
      rw [List.filterMap_cons_none hhead, ih htail]
    | cons b values =>
      have htail : ∀ i : ℕ, l[i]?.bind g = values[i]? := fun i ↦ by simpa using h (i + 1)
      rw [List.filterMap_cons_some hhead, ih htail]

theorem find?_eq_some {l : List α} (hnodup : (l.map f).Nodup) {key : β} {a : α} :
    l.find? (fun x ↦ f x = key) = some a ↔ a ∈ l ∧ f a = key := by
  constructor
  · intro h
    exact ⟨List.mem_of_find?_eq_some h, by simpa using List.find?_some h⟩
  · rintro ⟨hmem, rfl⟩
    cases hfind : l.find? fun x ↦ f x = f a with
    | none => simpa using List.find?_eq_none.mp hfind a hmem
    | some b =>
      have hb : f b = f a := by simpa using List.find?_some hfind
      rw [List.inj_on_of_nodup_map hnodup (List.mem_of_find?_eq_some hfind) hmem hb]

theorem find?_replace (l : List α) (a : α) (key : β) :
    (l.map fun x ↦ if f x = f a then a else x).find? (fun x ↦ f x = key) =
      if key = f a then (l.find? fun x ↦ f x = key).map fun _ ↦ a else l.find? fun x ↦ f x = key := by
  induction l with
  | nil => simp
  | cons b l ih =>
    rw [List.map_cons, List.find?_cons, List.find?_cons, ih]
    by_cases hb : f b = f a
    · rw [if_pos hb, hb]
      by_cases hkey : f a = key
      · simp [hkey]
      · simp [hkey, Ne.symm hkey]
    · rw [if_neg hb]
      by_cases hkey : f b = key
      · have hne : key ≠ f a := fun heq ↦ hb (hkey.trans heq)
        simp [hkey, hne]
      · simp [hkey]

theorem find?_erase (l : List α) (erased key : β) :
    (l.filter fun x ↦ f x ≠ erased).find? (fun x ↦ f x = key) =
      if key = erased then none else l.find? fun x ↦ f x = key := by
  rw [List.find?_filter]
  split
  · next heq =>
    rw [List.find?_eq_none]
    simp [heq]
  · next hne =>
    congr 1
    funext x
    by_cases hkey : f x = key
    · simp [hkey, hne]
    · simp [hkey]

/-- The last of two replacements by records of one key decides. -/
theorem replace_replace (l : List α) {a b : α} (hkey : f b = f a) :
    (l.map fun x ↦ if f x = f a then a else x).map (fun x ↦ if f x = f b then b else x) =
      l.map fun x ↦ if f x = f b then b else x := by
  rw [List.map_map]
  apply List.map_congr_left
  intro x _
  show (if f (if f x = f a then a else x) = f b then b else if f x = f a then a else x) =
    if f x = f b then b else x
  rw [hkey]
  by_cases heq : f x = f a
  · rw [if_pos heq, if_pos heq, if_pos rfl]
  · rw [if_neg heq, if_neg heq]

theorem replace_self {l : List α} (hnodup : (l.map f).Nodup) {a : α} (hmem : a ∈ l) :
    (l.map fun x ↦ if f x = f a then a else x) = l := by
  conv_rhs => rw [← List.map_id l]
  apply List.map_congr_left
  intro x hx
  show (if f x = f a then a else x) = x
  split
  · next heq => exact (List.inj_on_of_nodup_map hnodup hx hmem heq).symm
  · rfl

theorem orderedInsert {l : List α} (h : l.Pairwise fun a b ↦ f a < f b) {a : α}
    (hnew : ∀ b ∈ l, f b ≠ f a) :
    (l.orderedInsert (fun x y ↦ f x ≤ f y) a).Pairwise fun a b ↦ f a < f b := by
  induction l with
  | nil => simp
  | cons b l ih =>
    obtain ⟨hb, hl⟩ := List.pairwise_cons.mp h
    by_cases hle : f a ≤ f b
    · have hlt : f a < f b := lt_of_le_of_ne hle (hnew b (by simp)).symm
      rw [List.orderedInsert_cons, if_pos hle, List.pairwise_cons]
      refine ⟨?_, h⟩
      intro c hc
      rcases List.mem_cons.mp hc with rfl | hc
      · exact hlt
      · exact hlt.trans (hb c hc)
    · rw [List.orderedInsert_cons, if_neg hle, List.pairwise_cons]
      refine ⟨?_, ih hl fun c hc ↦ hnew c (List.mem_cons_of_mem _ hc)⟩
      intro c hc
      rcases (List.mem_orderedInsert _).mp hc with rfl | hc
      · exact lt_of_not_ge hle
      · exact hb c hc

/-- A record with a larger key than all others goes to the end. -/
theorem orderedInsert_of_lt {l : List α} {a : α} (hlt : ∀ b ∈ l, f b < f a) :
    l.orderedInsert (fun x y ↦ f x ≤ f y) a = l ++ [a] := by
  induction l with
  | nil => rfl
  | cons b l ih =>
    rw [List.orderedInsert_cons, if_neg (not_le.mpr (hlt b List.mem_cons_self)), List.cons_append,
      ih fun c hc ↦ hlt c (List.mem_cons_of_mem _ hc)]

theorem insertionSort_pairwise (l : List α) (hnodup : (l.map f).Nodup) :
    (l.insertionSort fun x y ↦ f x ≤ f y).Pairwise fun a b ↦ f a < f b := by
  induction l with
  | nil => exact List.Pairwise.nil
  | cons a l ih =>
    rw [List.map_cons, List.nodup_cons] at hnodup
    refine orderedInsert (ih hnodup.2) ?_
    intro b hb heq
    rw [List.mem_insertionSort] at hb
    exact hnodup.1 (List.mem_map.mpr ⟨b, hb, heq⟩)

/-- In ascending order, keys that differ from their neighbours are strictly ascending. -/
theorem pairwise_of_neighbours {l : List α} (h : l.Pairwise fun a b ↦ f a ≤ f b)
    (hne : l.IsChain fun a b ↦ f a ≠ f b) : l.Pairwise fun a b ↦ f a < f b := by
  induction l with
  | nil => exact List.Pairwise.nil
  | cons a l ih =>
    rw [List.pairwise_cons] at h ⊢
    have hrest := ih h.2 hne.tail
    refine ⟨?_, hrest⟩
    cases l with
    | nil => simp
    | cons b l =>
      have hlt : f a < f b := lt_of_le_of_ne (h.1 b List.mem_cons_self) (List.isChain_cons_cons.mp hne).1
      intro c hc
      rcases List.mem_cons.mp hc with rfl | hc
      · exact hlt
      · exact hlt.trans ((List.pairwise_cons.mp hrest).1 c hc)

/-- Two arrangements in strictly ascending key order of the same records are equal. -/
theorem eq_of_perm {l l' : List α} (h : l.Pairwise fun a b ↦ f a < f b)
    (h' : l'.Pairwise fun a b ↦ f a < f b) (hperm : l.Perm l') : l = l' := by
  refine hperm.eq_of_pairwise ?_ h h'
  intro a b _ _ hab hba
  exact absurd hab hba.asymm

/-- Sorting recovers the strictly ascending arrangement. -/
theorem insertionSort_eq {l l' : List α} (hperm : l.Perm l') (h : l'.Pairwise fun a b ↦ f a < f b) :
    (l.insertionSort fun x y ↦ f x ≤ f y) = l' := by
  have hnodup : (l.map f).Nodup := (hperm.map f).nodup_iff.mpr (nodup_keys h)
  exact eq_of_perm (insertionSort_pairwise l hnodup) h ((List.perm_insertionSort _ l).trans hperm)

end DeterministicExchange.KeyOrder
