import DeterministicExchange.Machine.Run
import Mathlib.Data.List.TakeWhile

/-!
# Sorted index with a pool of free handles

Occupied handles are listed under their keys, in strictly ascending or strictly
descending key order. Unused handles wait in a pool. Only the occupied prefix
of the underlying arrays is represented; the range checks of the array
operations are explicit. The next handle to be allocated heads the pool.
-/

namespace DeterministicExchange.SortedIndex

open Machine

variable {P : Type} [LinearOrder P] {n : ℕ}

/-- Whether key `a` is listed before key `b`. -/
def before (descending : Bool) (a b : P) : Bool :=
  if descending then decide (b < a) else decide (a < b)

structure Index (P : Type) (n : ℕ) where
  entries : List (P × ℕ)
  free : List ℕ
  deriving DecidableEq, Repr

namespace Index

def empty (P : Type) (n : ℕ) : Index P n := ⟨[], List.range n⟩

def isFull (index : Index P n) : Bool := index.free.isEmpty

/-- The number of entries listed before a key. -/
def partitionPoint (index : Index P n) (descending : Bool) (key : P) : ℕ :=
  (index.entries.takeWhile fun entry ↦ before descending entry.1 key).length

/-- The insertion point of a key and whether that key occupies it. -/
def position (index : Index P n) (key : P) (descending : Bool) : ℕ × Bool :=
  (index.partitionPoint descending key,
    (index.entries[index.partitionPoint descending key]?).any fun entry ↦ entry.1 = key)

def find (index : Index P n) (key : P) (descending : Bool) : Option ℕ :=
  let (position, found) := index.position key descending
  if found then index.entries[position]?.map Prod.snd else none

/-- Allocate a handle under a new key; `none` when the pool is exhausted. -/
def insert (index : Index P n) (key : P) (descending : Bool) : Run (Option (ℕ × Index P n)) := do
  let (position, found) := index.position key descending
  Run.debugAssert !found
  match index.free with
  | [] => return none
  | handle :: free =>
    if n ≤ index.entries.length then .error .index
    else
      return some (handle,
        ⟨index.entries.take position ++ (key, handle) :: index.entries.drop position, free⟩)

/-- Remove a key and return its handle to the pool. -/
def remove (index : Index P n) (key : P) (descending : Bool) : Run (Option (ℕ × Index P n)) :=
  let (position, found) := index.position key descending
  if !found then .ok none
  else
    match index.entries[position]? with
    | none => .error .index
    | some (_, handle) =>
      if n ≤ index.free.length then .error .index
      else .ok (some (handle, ⟨index.entries.eraseIdx position, handle :: index.free⟩))

end Index

structure Sorted (descending : Bool) (index : Index P n) : Prop where
  ordered : index.entries.Pairwise fun a b ↦ before descending a.1 b.1 = true
  partition : (index.entries.map Prod.snd ++ index.free).Perm (List.range n)

theorem Sorted.empty (descending : Bool) : Sorted descending (Index.empty P n) where
  ordered := List.Pairwise.nil
  partition := by simp [Index.empty]

section Order

variable {descending : Bool} {a b c : P}

theorem before_trans (h1 : before descending a b = true) (h2 : before descending b c = true) :
    before descending a c = true := by
  unfold before at *
  split at h1 <;> simp_all <;> order

theorem before_irrefl (a : P) : before descending a a = false := by
  unfold before
  split <;> simp

theorem before_asymm (h : before descending a b = true) : before descending b a = false := by
  unfold before at *
  split at h <;> simp_all <;> order

theorem before_total (hne : a ≠ b) :
    before descending a b = true ∨ before descending b a = true := by
  unfold before
  rcases lt_or_gt_of_ne hne with h | h <;> split <;> simp_all

theorem before_ne (h : before descending a b = true) : a ≠ b := by
  rintro rfl
  simp [before_irrefl] at h

end Order

namespace Sorted

variable {descending : Bool} {index : Index P n} {key : P}

/-- The entries split at a key: those listed before it, the entry of the key, those after it. -/
theorem split (h : Sorted descending index) (key : P) :
    ∃ pre post, (∀ e ∈ pre, before descending e.1 key = true) ∧
      (∀ e ∈ post, before descending key e.1 = true) ∧
      index.partitionPoint descending key = pre.length ∧
      ((∃ handle, index.entries = pre ++ (key, handle) :: post) ∨
        (index.entries = pre ++ post ∧ key ∉ index.entries.map Prod.fst)) := by
  have hsplit := List.takeWhile_append_dropWhile
    (p := fun entry : P × ℕ ↦ before descending entry.1 key) (l := index.entries)
  have hpre : ∀ e ∈ index.entries.takeWhile fun entry ↦ before descending entry.1 key,
      before descending e.1 key = true := fun e he ↦
    List.mem_takeWhile_imp (p := fun entry : P × ℕ ↦ before descending entry.1 key) he
  have hordered := h.ordered
  rw [← hsplit] at hordered
  have hpost := (List.pairwise_append.mp hordered).2.1
  cases hdrop : index.entries.dropWhile fun entry ↦ before descending entry.1 key with
  | nil =>
    rw [hdrop, List.append_nil] at hsplit
    refine ⟨_, [], hpre, by simp, rfl, .inr ⟨by rw [List.append_nil, hsplit], ?_⟩⟩
    rw [← hsplit]
    intro hmem
    obtain ⟨e, he, heq⟩ := List.mem_map.mp hmem
    exact before_ne (hpre e he) heq
  | cons e post =>
    rw [hdrop] at hpost hsplit
    have hnot : before descending e.1 key = false := by
      have := List.head?_dropWhile_not (fun entry : P × ℕ ↦ before descending entry.1 key)
        index.entries
      rw [hdrop] at this
      simpa using this
    have hafter (x : P × ℕ) (hx : x ∈ post) : before descending e.1 x.1 = true :=
      (List.pairwise_cons.mp hpost).1 x hx
    by_cases hkey : e.1 = key
    · refine ⟨_, post, hpre, ?_, rfl, .inl ⟨e.2, ?_⟩⟩
      · intro x hx
        rw [← hkey]
        exact hafter x hx
      · rw [show ((key, e.2) : P × ℕ) = e from Prod.ext hkey.symm rfl]
        exact hsplit.symm
    · have hlt : before descending key e.1 = true := by
        rcases (before_total hkey : before descending e.1 key = true ∨ before descending key e.1 = true)
          with h | h
        · rw [hnot] at h
          simp at h
        · exact h
      have hpostAll : ∀ x ∈ e :: post, before descending key x.1 = true := by
        intro x hx
        rcases List.mem_cons.mp hx with rfl | hx
        · exact hlt
        · exact before_trans hlt (hafter x hx)
      refine ⟨_, e :: post, hpre, hpostAll, rfl, .inr ⟨hsplit.symm, ?_⟩⟩
      rw [← hsplit]
      intro hmem
      obtain ⟨x, hx, heq⟩ := List.mem_map.mp hmem
      rcases List.mem_append.mp hx with hx | hx
      · exact before_ne (hpre x hx) heq
      · exact before_ne (hpostAll x hx) heq.symm

theorem position_of_mem {pre post : List (P × ℕ)} {handle : ℕ}
    (hentries : index.entries = pre ++ (key, handle) :: post)
    (hpoint : index.partitionPoint descending key = pre.length) :
    index.position key descending = (pre.length, true) := by
  unfold Index.position
  rw [hpoint, hentries]
  simp

theorem position_of_not_mem {pre : List (P × ℕ)}
    (hpoint : index.partitionPoint descending key = pre.length)
    (hmem : key ∉ index.entries.map Prod.fst) :
    index.position key descending = (pre.length, false) := by
  unfold Index.position
  rw [hpoint]
  have : (index.entries[pre.length]?).any (fun entry ↦ decide (entry.1 = key)) = false := by
    cases hget : index.entries[pre.length]? with
    | none => rfl
    | some e =>
      have he : e ∈ index.entries := List.mem_of_getElem? hget
      have : e.1 ≠ key := fun heq ↦ hmem (List.mem_map.mpr ⟨e, he, heq⟩)
      simp [this]
  rw [this]

theorem mem_unique (h : Sorted descending index) {i j : ℕ} (hi : (key, i) ∈ index.entries)
    (hj : (key, j) ∈ index.entries) : i = j := by
  by_contra hne
  have hkeys : index.entries.Pairwise fun a b ↦ a.1 ≠ b.1 := h.ordered.imp fun hab ↦ before_ne hab
  have hnodup : (index.entries.map Prod.fst).Nodup := List.pairwise_map.mpr hkeys
  have := List.inj_on_of_nodup_map hnodup hi hj rfl
  exact hne (congrArg Prod.snd this)

/-- A key is found exactly at its entry. -/
theorem find_eq_some (h : Sorted descending index) {i : ℕ} :
    index.find key descending = some i ↔ (key, i) ∈ index.entries := by
  obtain ⟨pre, post, hpre, hpost, hpoint, ⟨handle, hentries⟩ | ⟨hentries, hmem⟩⟩ := h.split key
  · have hfind : index.find key descending = some handle := by
      unfold Index.find
      rw [position_of_mem hentries hpoint, hentries]
      simp
    have hhandle : (key, handle) ∈ index.entries := by simp [hentries]
    rw [hfind]
    constructor
    · rintro heq
      obtain rfl := Option.some.inj heq
      exact hhandle
    · exact fun hi ↦ congrArg some (h.mem_unique hhandle hi)
  · have hfind : index.find key descending = none := by
      unfold Index.find
      rw [position_of_not_mem hpoint hmem]
      rfl
    rw [hfind]
    simp only [reduceCtorEq, false_iff]
    exact fun hi ↦ hmem (List.mem_map.mpr ⟨_, hi, rfl⟩)

theorem find_eq_none (h : Sorted descending index) :
    index.find key descending = none ↔ key ∉ index.entries.map Prod.fst := by
  rw [Option.eq_none_iff_forall_not_mem]
  simp only [Option.mem_def, h.find_eq_some, List.mem_map, Prod.exists, exists_and_right,
    exists_eq_right, not_exists]

theorem length_add (h : Sorted descending index) : index.entries.length + index.free.length = n := by
  simpa using h.partition.length_eq

theorem handles_nodup (h : Sorted descending index) :
    (index.entries.map Prod.snd ++ index.free).Nodup := h.partition.nodup_iff.mpr List.nodup_range

theorem lt_of_mem (h : Sorted descending index) {i : ℕ} (hi : (key, i) ∈ index.entries) : i < n :=
  List.mem_range.mp (h.partition.mem_iff.mp
    (List.mem_append_left _ (List.mem_map.mpr ⟨_, hi, rfl⟩)))

/-- Allocation lists the new key in its place. -/
theorem insert (h : Sorted descending index) {handle : ℕ} {free : List ℕ}
    (hfree : index.free = handle :: free) (hkey : key ∉ index.entries.map Prod.fst) :
    ∃ pre post, index.entries = pre ++ post ∧
      (∀ e ∈ pre, before descending e.1 key = true) ∧
      (∀ e ∈ post, before descending key e.1 = true) ∧
      index.insert key descending =
        .ok (some (handle, ⟨pre ++ (key, handle) :: post, free⟩)) ∧
      Sorted descending (⟨pre ++ (key, handle) :: post, free⟩ : Index P n) := by
  obtain ⟨pre, post, hpre, hpost, hpoint, ⟨handle', hentries⟩ | ⟨hentries, hmem⟩⟩ := h.split key
  · exact absurd (by simp [hentries]) hkey
  · refine ⟨pre, post, hentries, hpre, hpost, ?_, ?_⟩
    · have hlen := h.length_add
      rw [hfree, List.length_cons] at hlen
      unfold Index.insert
      rw [position_of_not_mem hpoint hmem]
      simp only [Bool.not_false, Run.debugAssert_true, Run.ok_bind, hfree]
      rw [if_neg (by omega), hentries, List.take_left, List.drop_left]
      rfl
    · have hordered := h.ordered
      rw [hentries, List.pairwise_append] at hordered
      refine ⟨?_, ?_⟩
      · rw [List.pairwise_append, List.pairwise_cons]
        refine ⟨hordered.1, ⟨hpost, hordered.2.1⟩, ?_⟩
        intro x hx y hy
        rcases List.mem_cons.mp hy with rfl | hy
        · exact hpre x hx
        · exact hordered.2.2 x hx y hy
      · refine List.Perm.trans ?_ h.partition
        rw [hentries, hfree]
        simp only [List.map_append, List.map_cons, List.append_assoc, List.cons_append]
        refine List.Perm.append_left _ ?_
        exact List.perm_middle.symm

/-- Removal drops the entry of the key and frees its handle. -/
theorem remove (h : Sorted descending index) {handle : ℕ} {pre post : List (P × ℕ)}
    (hentries : index.entries = pre ++ (key, handle) :: post) :
    index.remove key descending = .ok (some (handle, ⟨pre ++ post, handle :: index.free⟩)) ∧
      Sorted descending (⟨pre ++ post, handle :: index.free⟩ : Index P n) := by
  have hordered := h.ordered
  rw [hentries, List.pairwise_append, List.pairwise_cons] at hordered
  have hpoint : index.partitionPoint descending key = pre.length := by
    unfold Index.partitionPoint
    rw [hentries, List.takeWhile_append_of_pos
      (fun e he ↦ hordered.2.2 e he (key, handle) (by simp)),
      List.takeWhile_cons_of_neg (by simp [before_irrefl])]
    simp
  constructor
  · have hlen := h.length_add
    rw [hentries, List.length_append, List.length_cons] at hlen
    unfold Index.remove
    rw [position_of_mem hentries hpoint]
    simp only [Bool.not_true, Bool.false_eq_true, if_false]
    have hget : index.entries[pre.length]? = some (key, handle) := by simp [hentries]
    rw [hget]
    simp only
    rw [if_neg (by omega), hentries, List.eraseIdx_append_of_length_le (by simp)]
    simp
  · refine ⟨?_, ?_⟩
    · rw [List.pairwise_append]
      exact ⟨hordered.1, hordered.2.1.2, fun x hx y hy ↦ hordered.2.2 x hx y (by simp [hy])⟩
    · refine List.Perm.trans ?_ h.partition
      rw [hentries]
      simp only [List.map_append, List.map_cons, List.append_assoc, List.cons_append]
      refine List.Perm.append_left _ ?_
      exact List.perm_middle

end Sorted

end DeterministicExchange.SortedIndex
