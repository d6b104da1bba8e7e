import DeterministicExchange.Container.KeyOrder

/-!
# Ordered maps

A map whose rows are kept in strictly ascending key order, as an ordered tree iterates over them.
Two maps with the same lookups have the same rows, so that a map is described by its lookups and
iterates over any sorted list that answers them.
-/

namespace DeterministicExchange

structure OrderedMap (K V : Type) [LinearOrder K] where
  rows : List (K × V)
  sorted : rows.Pairwise fun a b ↦ a.1 < b.1

namespace OrderedMap

variable {K V : Type} [LinearOrder K] {map : OrderedMap K V} {key : K} {value : V}

def empty : OrderedMap K V := ⟨[], List.Pairwise.nil⟩

def get (map : OrderedMap K V) (key : K) : Option V :=
  (map.rows.find? fun row ↦ row.1 = key).map Prod.snd

def remove (map : OrderedMap K V) (key : K) : OrderedMap K V :=
  ⟨map.rows.filter fun row ↦ row.1 ≠ key, map.sorted.filter _⟩

theorem mem_remove {row : K × V} : row ∈ (map.remove key).rows ↔ row ∈ map.rows ∧ row.1 ≠ key := by
  show row ∈ map.rows.filter _ ↔ _
  rw [List.mem_filter, decide_eq_true_eq]

/-- Inserts a row, or replaces the row with the same key. -/
def insert (map : OrderedMap K V) (key : K) (value : V) : OrderedMap K V where
  rows := (map.remove key).rows.orderedInsert (fun a b ↦ a.1 ≤ b.1) (key, value)
  sorted := KeyOrder.orderedInsert (map.remove key).sorted fun _ hrow ↦ (mem_remove.mp hrow).2

theorem mem_insert {row : K × V} :
    row ∈ (map.insert key value).rows ↔ row = (key, value) ∨ row ∈ map.rows ∧ row.1 ≠ key := by
  show row ∈ (map.remove key).rows.orderedInsert _ (key, value) ↔ _
  rw [List.mem_orderedInsert, mem_remove]

/-! ## Lookups -/

theorem get_eq_some : map.get key = some value ↔ (key, value) ∈ map.rows := by
  have hfind {row : K × V} : (map.rows.find? fun row ↦ row.1 = key) = some row ↔
      row ∈ map.rows ∧ row.1 = key :=
    KeyOrder.find?_eq_some (KeyOrder.nodup_keys map.sorted)
  unfold get
  rw [Option.map_eq_some_iff]
  constructor
  · rintro ⟨row, hrow, rfl⟩
    obtain ⟨hmem, rfl⟩ := hfind.mp hrow
    exact hmem
  · intro hmem
    exact ⟨(key, value), hfind.mpr ⟨hmem, rfl⟩, rfl⟩

@[simp] theorem get_empty (key : K) : (empty : OrderedMap K V).get key = none := rfl

theorem get_insert (map : OrderedMap K V) (key : K) (value : V) (other : K) :
    (map.insert key value).get other = if other = key then some value else map.get other := by
  ext found
  rw [get_eq_some, mem_insert]
  by_cases heq : other = key
  · subst heq
    simp [eq_comm]
  · rw [if_neg heq, get_eq_some]
    simp [heq]

theorem get_remove (map : OrderedMap K V) (key other : K) :
    (map.remove key).get other = if other = key then none else map.get other := by
  ext found
  rw [get_eq_some, mem_remove]
  by_cases heq : other = key
  · simp [heq]
  · rw [if_neg heq, get_eq_some]
    simp [heq]

/-- A map iterates over the sorted list that answers its lookups. -/
theorem rows_eq {α : Type} {l : List α} {f : α → K} {g : α → V}
    (hsorted : l.Pairwise fun a b ↦ f a < f b)
    (h : ∀ key value, map.get key = some value ↔ ∃ a ∈ l, f a = key ∧ g a = value) :
    map.rows = l.map fun a ↦ (f a, g a) := by
  have hrows : (l.map fun a ↦ (f a, g a)).Pairwise fun a b ↦ a.1 < b.1 := List.pairwise_map.mpr hsorted
  have hnodup {rows : List (K × V)} (hrows : rows.Pairwise fun a b ↦ a.1 < b.1) : rows.Nodup :=
    hrows.imp fun hlt heq ↦ hlt.ne (congrArg Prod.fst heq)
  refine KeyOrder.eq_of_perm map.sorted hrows ?_
  rw [List.perm_ext_iff_of_nodup (hnodup map.sorted) (hnodup hrows)]
  rintro ⟨key, value⟩
  rw [← get_eq_some, h, List.mem_map]
  simp only [Prod.mk.injEq]

end OrderedMap

end DeterministicExchange
