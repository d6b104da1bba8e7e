import DeterministicExchange.Machine.Run

/-!
# Slabs

A slab is a fixed array of slots, each of which holds a value or the link of a
free list. A slot keeps its handle while it is live; a released slot is the
next one to be taken.

`Rep` lists the live handles with their values, in any order, and the free
handles in the order of the list. Both together are the handles of the array.
-/

namespace DeterministicExchange.Slab

open Machine

variable {α : Type} {n : ℕ}

/-- The terminator of the free list. -/
def nil : ℕ := 2 ^ 64 - 1

inductive Cell (α : Type) where
  | free (nextFree : ℕ)
  | live (value : α)
  deriving DecidableEq, Repr

def Cell.value? : Cell α → Option α
  | .free _ => none
  | .live value => some value

def FreeSeg (slots : Vector (Cell α) n) : ℕ → List ℕ → Prop
  | cur, [] => cur = nil
  | cur, i :: rest => cur = i ∧ ∃ next, slots[i]? = some (.free next) ∧ FreeSeg slots next rest

structure Rep (slots : Vector (Cell α) n) (freeHead : ℕ) (live : List (ℕ × α)) (free : List ℕ) :
    Prop where
  value : ∀ entry ∈ live, slots[entry.1]? = some (.live entry.2)
  freeSeg : FreeSeg slots freeHead free
  partition : (live.map Prod.fst ++ free).Perm (List.range n)

theorem FreeSeg.of_agree {slots slots' : Vector (Cell α) n} {free : List ℕ} {cur : ℕ}
    (h : FreeSeg slots cur free) (hsame : ∀ i ∈ free, slots'[i]? = slots[i]?) :
    FreeSeg slots' cur free := by
  induction free generalizing cur with
  | nil => exact h
  | cons i rest ih =>
    obtain ⟨rfl, next, hslot, hrest⟩ := h
    refine ⟨rfl, next, ?_, ih hrest fun j hj ↦ hsame j (by simp [hj])⟩
    rw [hsame cur (by simp), hslot]

theorem FreeSeg.slot_of_mem {slots : Vector (Cell α) n} {free : List ℕ} {cur i : ℕ}
    (h : FreeSeg slots cur free) (hmem : i ∈ free) : ∃ next, slots[i]? = some (.free next) := by
  induction free generalizing cur with
  | nil => simp at hmem
  | cons j rest ih =>
    obtain ⟨rfl, next, hslot, hrest⟩ := h
    rcases List.mem_cons.mp hmem with rfl | hmem
    · exact ⟨next, hslot⟩
    · exact ih hrest hmem

/-- The free slots from `start` on form a list, if the array holds the chain there. -/
theorem FreeSeg.chain {slots : Vector (Cell α) n} (len start : ℕ) (hlen : start + len = n)
    (hslots : ∀ i, start ≤ i → i < n →
      slots[i]? = some (.free (if i + 1 < n then i + 1 else nil))) :
    FreeSeg slots (if start = n then nil else start) (List.range' start len) := by
  induction len generalizing start with
  | zero => simp [FreeSeg, show start = n by omega]
  | succ len ih =>
    rw [List.range'_succ]
    refine ⟨if_neg (by omega), _, hslots start le_rfl (by omega), ?_⟩
    have hrest := ih (start + 1) (by omega) fun i hi hn ↦ hslots i (by omega) hn
    by_cases hlast : start + 1 = n
    · rw [if_pos hlast] at hrest
      rw [if_neg (by omega)]
      exact hrest
    · rw [if_neg hlast] at hrest
      rw [if_pos (by omega)]
      exact hrest

theorem FreeSeg.head_eq_nil {slots : Vector (Cell α) n} (hn : n ≤ nil) {cur : ℕ} {free : List ℕ}
    (h : FreeSeg slots cur free) : cur = nil ↔ free = [] := by
  cases free with
  | nil => exact ⟨fun _ ↦ rfl, fun _ ↦ h⟩
  | cons i rest =>
    obtain ⟨rfl, next, hslot, _⟩ := h
    have hlt : cur < n := by
      by_contra hle
      rw [Vector.getElem?_eq_none (by omega)] at hslot
      simp at hslot
    constructor
    · intro heq
      omega
    · intro heq
      simp at heq

/-- The values met on a walk over an array, up to their order, are those of its cells. -/
theorem cells_perm {β : Type} {slots : Vector β n} {f : β → Option α} {cells : List (ℕ × α)}
    (hcell : ∀ i a, slots[i]?.bind f = some a ↔ (i, a) ∈ cells) (hnodup : (cells.map Prod.fst).Nodup) :
    (slots.toList.filterMap f).Perm (cells.map Prod.snd) := by
  set walk := slots.toList.zipIdx.filterMap fun entry ↦ (f entry.1).map fun a ↦ (entry.2, a) with hwalk
  have hmem (i : ℕ) (a : α) : (i, a) ∈ walk ↔ (i, a) ∈ cells := by
    rw [← hcell, hwalk, List.mem_filterMap, Option.bind_eq_some_iff]
    constructor
    · rintro ⟨⟨b, j⟩, hb, heq⟩
      obtain ⟨a', ha', hpair⟩ := Option.map_eq_some_iff.mp heq
      obtain ⟨rfl, rfl⟩ := Prod.mk.inj hpair
      have hget := List.mem_zipIdx_iff_getElem?.mp hb
      rw [Vector.getElem?_toList] at hget
      exact ⟨b, hget, ha'⟩
    · rintro ⟨b, hb, ha⟩
      refine ⟨(b, i), List.mem_zipIdx_iff_getElem?.mpr ?_, Option.map_eq_some_iff.mpr ⟨a, ha, rfl⟩⟩
      rw [Vector.getElem?_toList]
      exact hb
  have hkeys : (walk.map Prod.fst).Nodup := by
    have hsub (l : List (β × ℕ)) : ((l.filterMap fun entry ↦
        (f entry.1).map fun a ↦ (entry.2, a)).map Prod.fst).Sublist (l.map Prod.snd) := by
      induction l with
      | nil => exact List.Sublist.slnil
      | cons entry l ih =>
        rw [List.filterMap_cons]
        cases f entry.1 with
        | none => exact ih.cons _
        | some a => exact ih.cons_cons _
    refine List.Nodup.sublist (hsub _) ?_
    rw [List.zipIdx_map_snd]
    exact List.nodup_range'
  have hperm : walk.Perm cells :=
    (List.perm_ext_iff_of_nodup (List.Nodup.of_map _ hkeys) (List.Nodup.of_map _ hnodup)).mpr
      fun entry ↦ hmem entry.1 entry.2
  have hvalues : slots.toList.filterMap f = walk.map Prod.snd := by
    conv_lhs => rw [← List.zipIdx_map_fst 0 slots.toList, List.filterMap_map]
    rw [hwalk, List.map_filterMap]
    apply List.filterMap_congr
    intro entry _
    show f entry.1 = ((f entry.1).map fun a ↦ (entry.2, a)).map Prod.snd
    rw [Option.map_map]
    exact Option.map_id'.symm
  rw [hvalues]
  exact hperm.map Prod.snd

namespace Rep

variable {slots : Vector (Cell α) n} {freeHead : ℕ} {live : List (ℕ × α)} {free : List ℕ}

theorem nodup (h : Rep slots freeHead live free) : (live.map Prod.fst ++ free).Nodup :=
  h.partition.nodup_iff.mpr List.nodup_range

theorem handles_nodup (h : Rep slots freeHead live free) : (live.map Prod.fst).Nodup :=
  List.Nodup.of_append_left h.nodup

theorem lt_of_mem (h : Rep slots freeHead live free) {entry : ℕ × α} (hmem : entry ∈ live) :
    entry.1 < n := by
  have hall : entry.1 ∈ List.range n :=
    h.partition.mem_iff.mp (List.mem_append_left _ (List.mem_map.mpr ⟨entry, hmem, rfl⟩))
  exact List.mem_range.mp hall

theorem free_lt (h : Rep slots freeHead live free) {i : ℕ} (hmem : i ∈ free) : i < n :=
  List.mem_range.mp (h.partition.mem_iff.mp (List.mem_append_right _ hmem))

theorem length_add (h : Rep slots freeHead live free) : live.length + free.length = n := by
  have hlen := h.partition.length_eq
  rw [List.length_append, List.length_map, List.length_range] at hlen
  exact hlen

/-- The live slots are those that are listed. -/
theorem slot_eq_live (h : Rep slots freeHead live free) {i : ℕ} {a : α} :
    slots[i]? = some (.live a) ↔ (i, a) ∈ live := by
  constructor
  · intro hslot
    have hi : i < n := by
      by_contra hle
      rw [Vector.getElem?_eq_none (by omega)] at hslot
      simp at hslot
    have hmem := h.partition.mem_iff.mpr (List.mem_range.mpr hi)
    rcases List.mem_append.mp hmem with hmem | hmem
    · obtain ⟨⟨j, b⟩, hentry, rfl⟩ := List.mem_map.mp hmem
      have hvalue := h.value (j, b) hentry
      rw [hvalue] at hslot
      obtain rfl : b = a := by simpa using hslot
      exact hentry
    · obtain ⟨next, hfree⟩ := h.freeSeg.slot_of_mem hmem
      rw [hslot] at hfree
      simp at hfree
  · exact h.value (i, a)

/-- The slab is full exactly when its free list is empty. -/
theorem freeHead_eq_nil (h : Rep slots freeHead live free) (hn : n ≤ nil) :
    freeHead = nil ↔ live.length = n := by
  have hlen := h.length_add
  rw [h.freeSeg.head_eq_nil hn, ← List.length_eq_zero_iff]
  omega

theorem congr {live' : List (ℕ × α)} (h : Rep slots freeHead live free) (hperm : live'.Perm live) :
    Rep slots freeHead live' free where
  value := fun entry hentry ↦ h.value entry (hperm.mem_iff.mp hentry)
  freeSeg := h.freeSeg
  partition := ((hperm.map Prod.fst).append_right free).trans h.partition

/-- Taking the head of the free list. -/
theorem take {i : ℕ} (h : Rep slots freeHead live (i :: free)) :
    ∃ next, freeHead = i ∧ slots[i]? = some (.free next) ∧
      ∀ a, Rep (slots.setIfInBounds i (.live a)) next (live ++ [(i, a)]) free := by
  obtain ⟨rfl, next, hslot, hrest⟩ := h.freeSeg
  have hi := h.free_lt (List.mem_cons_self ..)
  have hnodup := h.nodup
  have hout := (List.nodup_cons.mp (List.nodup_middle.mp hnodup)).1
  refine ⟨next, rfl, hslot, fun a ↦ ⟨?_, ?_, ?_⟩⟩
  · intro entry hentry
    rw [Vector.getElem?_setIfInBounds]
    rcases List.mem_append.mp hentry with hentry | hentry
    · have hne : freeHead ≠ entry.1 := by
        rintro heq
        exact hout (List.mem_append_left _ (List.mem_map.mpr ⟨entry, hentry, heq.symm⟩))
      rw [if_neg hne]
      exact h.value entry hentry
    · rw [List.mem_singleton.mp hentry]
      simp [hi]
  · refine hrest.of_agree fun j hj ↦ ?_
    have hne : freeHead ≠ j := by
      rintro rfl
      exact hout (List.mem_append_right _ hj)
    rw [Vector.getElem?_setIfInBounds, if_neg hne]
  · have hperm := h.partition
    rw [List.map_append, List.append_assoc]
    exact hperm

/-- Overwriting a live value. -/
theorem put {xs ys : List (ℕ × α)} {i : ℕ} {a : α}
    (h : Rep slots freeHead (xs ++ (i, a) :: ys) free) (b : α) :
    Rep (slots.setIfInBounds i (.live b)) freeHead (xs ++ (i, b) :: ys) free := by
  have hi : i < n := h.lt_of_mem (by simp : (i, a) ∈ xs ++ (i, a) :: ys)
  have hnodup := h.nodup
  rw [List.map_append, List.map_cons, List.append_assoc, List.cons_append] at hnodup
  have hout := (List.nodup_cons.mp (List.nodup_middle.mp hnodup)).1
  refine ⟨?_, ?_, ?_⟩
  · intro entry hentry
    rw [Vector.getElem?_setIfInBounds]
    rcases List.mem_append.mp hentry with hentry | hentry
    · have hne : i ≠ entry.1 := by
        rintro heq
        exact hout (List.mem_append_left _ (List.mem_map.mpr ⟨entry, hentry, heq.symm⟩))
      rw [if_neg hne]
      exact h.value entry (by simp [hentry])
    · rcases List.mem_cons.mp hentry with rfl | hentry
      · simp [hi]
      · have hne : i ≠ entry.1 := by
          rintro heq
          exact hout (List.mem_append_right _ (List.mem_append_left _
            (List.mem_map.mpr ⟨entry, hentry, heq.symm⟩)))
        rw [if_neg hne]
        exact h.value entry (by simp [hentry])
  · refine h.freeSeg.of_agree fun j hj ↦ ?_
    have hne : i ≠ j := by
      rintro rfl
      exact hout (List.mem_append_right _ (List.mem_append_right _ hj))
    rw [Vector.getElem?_setIfInBounds, if_neg hne]
  · have hperm := h.partition
    simpa only [List.map_append, List.map_cons] using hperm

/-- Returning a live slot to the free list. -/
theorem release {xs ys : List (ℕ × α)} {i : ℕ} {a : α}
    (h : Rep slots freeHead (xs ++ (i, a) :: ys) free) :
    Rep (slots.setIfInBounds i (.free freeHead)) i (xs ++ ys) (i :: free) := by
  have hi : i < n := h.lt_of_mem (by simp : (i, a) ∈ xs ++ (i, a) :: ys)
  have hnodup := h.nodup
  rw [List.map_append, List.map_cons, List.append_assoc, List.cons_append] at hnodup
  have hout := (List.nodup_cons.mp (List.nodup_middle.mp hnodup)).1
  rw [← List.append_assoc, ← List.map_append] at hout
  refine ⟨?_, ⟨rfl, freeHead, ?_, ?_⟩, ?_⟩
  · intro entry hentry
    have hne : i ≠ entry.1 := by
      rintro heq
      exact hout (List.mem_append_left _ (List.mem_map.mpr ⟨entry, hentry, heq.symm⟩))
    rw [Vector.getElem?_setIfInBounds, if_neg hne]
    refine h.value entry ?_
    simp only [List.mem_append, List.mem_cons] at hentry ⊢
    tauto
  · simp [hi]
  · refine h.freeSeg.of_agree fun j hj ↦ ?_
    have hne : i ≠ j := by
      rintro rfl
      exact hout (List.mem_append_right _ hj)
    rw [Vector.getElem?_setIfInBounds, if_neg hne]
  · refine List.Perm.trans ?_ h.partition
    rw [List.map_append, List.map_append, List.map_cons, List.append_assoc, List.append_assoc,
      List.cons_append]
    refine List.Perm.append_left _ ?_
    exact List.perm_middle

/-- The values met on a walk over the array, up to their order. -/
theorem values_perm (h : Rep slots freeHead live free) :
    (slots.toList.filterMap Cell.value?).Perm (live.map Prod.snd) := by
  refine cells_perm ?_ h.handles_nodup
  intro i a
  rw [← h.slot_eq_live]
  cases slots[i]? with
  | none => simp
  | some cell => cases cell <;> simp [Cell.value?]

end Rep

end DeterministicExchange.Slab
