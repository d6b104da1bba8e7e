import DeterministicExchange.Machine.Run

/-!
# Linked slots

A fixed array holds a doubly linked queue and the free list of its unused
slots. A slot handle stays valid while other slots change: appending takes the
first free slot, and unlinking returns a slot to the free list.

`Rep` relates the array to the queue it stores, a list of handles with their
values from head to tail, and to the list of free handles. Handles of both
lists partition the array.
-/

namespace DeterministicExchange.LinkedSlots

open Machine

variable {α : Type} {n : ℕ}

/-- The terminator of both chains. -/
def nil : ℕ := 2 ^ 64 - 1

structure Node (α : Type) where
  value : α
  prev : ℕ
  next : ℕ
  deriving DecidableEq, Repr

inductive Cell (α : Type) where
  | free (nextFree : ℕ)
  | live (node : Node α)
  deriving DecidableEq, Repr

structure Queue (α : Type) (n : ℕ) where
  slots : Vector (Cell α) n
  head : ℕ
  tail : ℕ
  freeHead : ℕ
  len : ℕ
  deriving DecidableEq

namespace Queue

def empty (α : Type) (n : ℕ) : Queue α n where
  slots := Vector.ofFn fun i ↦ .free (if i.val + 1 < n then i.val + 1 else nil)
  head := nil
  tail := nil
  freeHead := if n = 0 then nil else 0
  len := 0

/-- The node of a live handle. -/
def node? (queue : Queue α n) (i : ℕ) : Option (Node α) :=
  match queue.slots[i]? with
  | some (.live node) => some node
  | _ => none

/-- The value of a live handle. -/
def get? (queue : Queue α n) (i : ℕ) : Option α := (queue.node? i).map Node.value

/-- Overwrite a node in place. -/
def put (queue : Queue α n) (i : ℕ) (node : Node α) : Queue α n :=
  { queue with slots := queue.slots.setIfInBounds i (.live node) }

/-- Overwrite the value of a live handle; other handles are left alone. -/
def set (queue : Queue α n) (i : ℕ) (value : α) : Queue α n :=
  match queue.node? i with
  | some node => queue.put i { node with value := value }
  | none => queue

/-- Append a value. Nothing changes when the queue is full or its links are corrupt. -/
def pushTail (queue : Queue α n) (value : α) : Option (ℕ × Queue α n) :=
  if queue.freeHead = nil ∨ n ≤ queue.len then none
  else
    match queue.slots[queue.freeHead]? with
    | some (.free nextFree) =>
      let linked : Option (Queue α n) :=
        if queue.tail = nil then some queue
        else (queue.node? queue.tail).map fun tail ↦
          queue.put queue.tail { tail with next := queue.freeHead }
      linked.map fun linked ↦
        (queue.freeHead,
          { linked.put queue.freeHead { value := value, prev := queue.tail, next := nil } with
            freeHead := nextFree
            head := if queue.tail = nil then queue.freeHead else queue.head
            tail := queue.freeHead
            len := queue.len + 1 })
    | _ => none

/-- Set the successor of a live handle, or the head of the queue when there is none. -/
def relinkNext (queue : Queue α n) (i next : ℕ) : Queue α n :=
  if i = nil then { queue with head := next }
  else
    match queue.node? i with
    | some node => queue.put i { node with next := next }
    | none => queue

/-- Set the predecessor of a live handle, or the tail of the queue when there is none. -/
def relinkPrev (queue : Queue α n) (i prev : ℕ) : Queue α n :=
  if i = nil then { queue with tail := prev }
  else
    match queue.node? i with
    | some node => queue.put i { node with prev := prev }
    | none => queue

/-- Detach a live handle and return it to the free list. Stale handles change nothing. -/
def unlink (queue : Queue α n) (i : ℕ) : Run (Option (α × Queue α n)) :=
  match queue.node? i with
  | none => .ok none
  | some node =>
    if node.prev ≠ nil ∧ queue.node? node.prev = none then .ok none
    else if node.next ≠ nil ∧ queue.node? node.next = none then .ok none
    else do
      let linked := (queue.relinkNext node.prev node.next).relinkPrev node.next node.prev
      let len ← Run.sub linked.len 1
      return some (node.value,
        { linked with
          slots := linked.slots.setIfInBounds i (.free linked.freeHead)
          freeHead := i
          len := len })

/-- The values from a cursor to the end of the chain; a broken link ends the walk. -/
def walk (queue : Queue α n) : ℕ → ℕ → Run (List α)
  | 0, _ => .error .diverged
  | fuel + 1, cursor =>
    if cursor = nil then .ok []
    else
      match queue.node? cursor with
      | none => .ok []
      | some node => do
        let rest ← queue.walk fuel node.next
        return node.value :: rest

/-- Visit every live value from head to tail. A chain longer than the array is a cycle. -/
def values (queue : Queue α n) : Run (List α) := queue.walk (n + 1) queue.head

end Queue

/-! ## Representation -/

/-- A doubly linked segment from `cur` (preceded by `prev`) up to `stop`, ending at `last`. -/
def Seg (slots : Vector (Cell α) n) : ℕ → ℕ → List (ℕ × α) → ℕ → ℕ → Prop
  | prev, cur, [], stop, last => cur = stop ∧ last = prev
  | prev, cur, (i, a) :: rest, stop, last =>
    cur = i ∧ ∃ next, slots[i]? = some (.live ⟨a, prev, next⟩) ∧ Seg slots i next rest stop last

def FreeSeg (slots : Vector (Cell α) n) : ℕ → List ℕ → Prop
  | cur, [] => cur = nil
  | cur, i :: rest => cur = i ∧ ∃ next, slots[i]? = some (.free next) ∧ FreeSeg slots next rest

structure Rep (queue : Queue α n) (nodes : List (ℕ × α)) (free : List ℕ) : Prop where
  seg : Seg queue.slots nil queue.head nodes nil queue.tail
  freeSeg : FreeSeg queue.slots queue.freeHead free
  partition : (nodes.map Prod.fst ++ free).Perm (List.range n)
  len_eq : queue.len = nodes.length

section Segments

variable {slots : Vector (Cell α) n}

theorem Seg.append {prev cur stop last : ℕ} {xs ys : List (ℕ × α)} :
    Seg slots prev cur (xs ++ ys) stop last ↔
      ∃ mid midLast, Seg slots prev cur xs mid midLast ∧ Seg slots midLast mid ys stop last := by
  induction xs generalizing prev cur with
  | nil => simp [Seg]
  | cons x xs ih =>
    obtain ⟨i, a⟩ := x
    simp only [List.cons_append, Seg, ih]
    constructor
    · rintro ⟨rfl, next, hslot, mid, midLast, h1, h2⟩
      exact ⟨mid, midLast, ⟨rfl, next, hslot, h1⟩, h2⟩
    · rintro ⟨mid, midLast, ⟨rfl, next, hslot, h1⟩, h2⟩
      exact ⟨rfl, next, hslot, mid, midLast, h1, h2⟩

theorem Seg.of_agree {slots' : Vector (Cell α) n} {nodes : List (ℕ × α)} {prev cur stop last : ℕ}
    (h : Seg slots prev cur nodes stop last)
    (hsame : ∀ i ∈ nodes.map Prod.fst, slots'[i]? = slots[i]?) :
    Seg slots' prev cur nodes stop last := by
  induction nodes generalizing prev cur with
  | nil => exact h
  | cons x xs ih =>
    obtain ⟨i, a⟩ := x
    obtain ⟨rfl, next, hslot, hrest⟩ := h
    refine ⟨rfl, next, ?_, ih hrest fun j hj ↦ hsame j (by simp [hj])⟩
    rw [hsame cur (by simp), hslot]

theorem FreeSeg.of_agree {slots' : Vector (Cell α) n} {free : List ℕ} {cur : ℕ}
    (h : FreeSeg slots cur free) (hsame : ∀ i ∈ free, slots'[i]? = slots[i]?) :
    FreeSeg slots' cur free := by
  induction free generalizing cur with
  | nil => exact h
  | cons i rest ih =>
    obtain ⟨rfl, next, hslot, hrest⟩ := h
    refine ⟨rfl, next, ?_, ih hrest fun j hj ↦ hsame j (by simp [hj])⟩
    rw [hsame cur (by simp), hslot]

theorem Seg.slot_of_mem {nodes : List (ℕ × α)} {prev cur stop last i : ℕ} {a : α}
    (h : Seg slots prev cur nodes stop last) (hmem : (i, a) ∈ nodes) :
    ∃ p x, slots[i]? = some (.live ⟨a, p, x⟩) := by
  induction nodes generalizing prev cur with
  | nil => simp at hmem
  | cons y ys ih =>
    obtain ⟨j, b⟩ := y
    obtain ⟨rfl, next, hslot, hrest⟩ := h
    rcases List.mem_cons.mp hmem with heq | hmem
    · obtain ⟨rfl, rfl⟩ := Prod.mk.inj heq
      exact ⟨prev, next, hslot⟩
    · exact ih hrest hmem

theorem FreeSeg.slot_of_mem {free : List ℕ} {cur i : ℕ} (h : FreeSeg slots cur free)
    (hmem : i ∈ free) : ∃ next, slots[i]? = some (.free next) := by
  induction free generalizing cur with
  | nil => simp at hmem
  | cons j rest ih =>
    obtain ⟨rfl, next, hslot, hrest⟩ := h
    rcases List.mem_cons.mp hmem with rfl | hmem
    · exact ⟨next, hslot⟩
    · exact ih hrest hmem

/-- The last handle of a nonempty segment is a live slot that points at `stop`. -/
theorem Seg.last_slot {nodes : List (ℕ × α)} {prev cur stop last : ℕ}
    (h : Seg slots prev cur nodes stop last) (hne : nodes ≠ []) :
    ∃ init a p, nodes = init ++ [(last, a)] ∧ slots[last]? = some (.live ⟨a, p, stop⟩) := by
  induction nodes generalizing prev cur with
  | nil => exact absurd rfl hne
  | cons y ys ih =>
    obtain ⟨j, b⟩ := y
    obtain ⟨rfl, next, hslot, hrest⟩ := h
    cases ys with
    | nil =>
      obtain ⟨rfl, rfl⟩ := hrest
      exact ⟨[], b, prev, rfl, hslot⟩
    | cons z zs =>
      obtain ⟨init, a, p, hinit, hlast⟩ := ih hrest (by simp)
      exact ⟨(cur, b) :: init, a, p, by rw [hinit]; rfl, hlast⟩

/-- Redirect the end of a segment by rewriting its last node. -/
theorem Seg.relink_last {slots' : Vector (Cell α) n} {init : List (ℕ × α)} {a : α}
    {prev cur stop stop' last p : ℕ} (h : Seg slots prev cur (init ++ [(last, a)]) stop last)
    (hlast : slots[last]? = some (.live ⟨a, p, stop⟩))
    (hlast' : slots'[last]? = some (.live ⟨a, p, stop'⟩))
    (hsame : ∀ i ∈ init.map Prod.fst, slots'[i]? = slots[i]?) :
    Seg slots' prev cur (init ++ [(last, a)]) stop' last := by
  rw [Seg.append] at h ⊢
  obtain ⟨mid, midLast, hinit, rfl, next, hslot, rfl, -⟩ := h
  refine ⟨mid, midLast, hinit.of_agree hsame, rfl, stop', ?_, rfl, rfl⟩
  rw [hlast] at hslot
  obtain ⟨rfl, -⟩ : p = midLast ∧ True := by simpa using hslot
  exact hlast'

/-- Change the predecessor of a segment by rewriting its first node. -/
theorem Seg.relink_first {slots' : Vector (Cell α) n} {rest : List (ℕ × α)} {a : α}
    {prev prev' i next stop last : ℕ} (h : Seg slots prev i ((i, a) :: rest) stop last)
    (hslot : slots[i]? = some (.live ⟨a, prev, next⟩))
    (hslot' : slots'[i]? = some (.live ⟨a, prev', next⟩))
    (hsame : ∀ j ∈ rest.map Prod.fst, slots'[j]? = slots[j]?) :
    Seg slots' prev' i ((i, a) :: rest) stop last := by
  obtain ⟨-, next', hslot'', hrest⟩ := h
  rw [hslot] at hslot''
  obtain rfl : next = next' := by simpa using hslot''
  exact ⟨rfl, next, hslot', hrest.of_agree hsame⟩

end Segments

theorem node?_eq_some {queue : Queue α n} {i : ℕ} {node : Node α} :
    queue.node? i = some node ↔ queue.slots[i]? = some (.live node) := by
  unfold Queue.node?
  split <;> simp_all

theorem getElem?_set {β : Type} (slots : Vector β n) {i : ℕ} (j : ℕ) (b : β) (hi : i < n) :
    (slots.setIfInBounds i b)[j]? = if j = i then some b else slots[j]? := by
  rw [Vector.getElem?_setIfInBounds]
  by_cases h : i = j
  · subst h
    simp [hi]
  · simp [h, Ne.symm h]

namespace Rep

variable {queue : Queue α n} {nodes : List (ℕ × α)} {free : List ℕ}

theorem nodup (h : Rep queue nodes free) : (nodes.map Prod.fst ++ free).Nodup :=
  h.partition.nodup_iff.mpr List.nodup_range

theorem lt_of_mem (h : Rep queue nodes free) {i : ℕ} (hi : i ∈ nodes.map Prod.fst ++ free) :
    i < n := List.mem_range.mp (h.partition.mem_iff.mp hi)

theorem mem_of_lt (h : Rep queue nodes free) {i : ℕ} (hi : i < n) :
    i ∈ nodes.map Prod.fst ++ free := h.partition.mem_iff.mpr (List.mem_range.mpr hi)

theorem length_add (h : Rep queue nodes free) : nodes.length + free.length = n := by
  simpa using h.partition.length_eq

theorem get?_of_mem (h : Rep queue nodes free) {i : ℕ} {a : α} (hmem : (i, a) ∈ nodes) :
    queue.get? i = some a := by
  obtain ⟨p, x, hslot⟩ := h.seg.slot_of_mem hmem
  simp [Queue.get?, node?_eq_some.mpr hslot]

theorem mem_of_node? (h : Rep queue nodes free) {i : ℕ} {node : Node α}
    (hnode : queue.node? i = some node) : (i, node.value) ∈ nodes := by
  rw [node?_eq_some] at hnode
  have hi : i < n := by
    by_contra hge
    rw [Vector.getElem?_eq_none (by omega)] at hnode
    simp at hnode
  rcases List.mem_append.mp (h.mem_of_lt hi) with hmem | hmem
  · obtain ⟨⟨j, a⟩, hja, rfl⟩ := List.mem_map.mp hmem
    obtain ⟨p, x, hslot⟩ := h.seg.slot_of_mem hja
    rw [hslot] at hnode
    obtain rfl : (⟨a, p, x⟩ : Node α) = node := by simpa using hnode
    exact hja
  · obtain ⟨next, hslot⟩ := h.freeSeg.slot_of_mem hmem
    rw [hslot] at hnode
    simp at hnode

theorem get?_eq_some (h : Rep queue nodes free) {i : ℕ} {a : α} :
    queue.get? i = some a ↔ (i, a) ∈ nodes := by
  constructor
  · intro hget
    obtain ⟨node, hnode, rfl⟩ := Option.map_eq_some_iff.mp hget
    exact h.mem_of_node? hnode
  · exact h.get?_of_mem

theorem empty : Rep (Queue.empty α n) [] (List.range n) where
  seg := ⟨rfl, rfl⟩
  freeSeg := by
    have hchain (m k : ℕ) (hk : m + k = n) : FreeSeg (Queue.empty α n).slots
        (if k = 0 then nil else m) (List.range' m k) := by
      induction k generalizing m with
      | zero => exact if_pos rfl
      | succ k ih =>
        refine ⟨rfl, if m + 1 < n then m + 1 else nil, ?_, ?_⟩
        · have hm : m < n := by omega
          simp [Queue.empty, hm]
        · convert ih (m + 1) (by omega) using 1
          split <;> split <;> omega
    rw [List.range_eq_range']
    exact hchain 0 n (by omega)
  partition := by simp
  len_eq := rfl

/-- An append takes the first free handle. -/
theorem pushTail (hn : n ≤ nil) {i : ℕ} (h : Rep queue nodes (i :: free)) (value : α) :
    ∃ queue', queue.pushTail value = some (i, queue') ∧
      Rep queue' (nodes ++ [(i, value)]) free := by
  obtain ⟨hhead, nextFree, hslot, hfree⟩ := h.freeSeg
  have hlen := h.length_add
  have hi : i < n := h.lt_of_mem (by simp)
  have hnil : i ≠ nil := by omega
  have hnodup := h.nodup
  have hif : i ∉ free := by
    intro hmem
    have := (List.nodup_append.mp hnodup).2.1
    simp [hmem] at this
  have hin : i ∉ nodes.map Prod.fst := by
    intro hmem
    exact (List.nodup_append.mp hnodup).2.2 i hmem i (by simp) rfl
  simp only [List.length_cons] at hlen
  have hlenEq := h.len_eq
  have hroom : ¬ (queue.freeHead = nil ∨ n ≤ queue.len) := by
    rw [hhead]
    omega
  have hpart : ((nodes ++ [(i, value)]).map Prod.fst ++ free).Perm (List.range n) := by
    refine List.Perm.trans ?_ h.partition
    simp [List.map_append]
  unfold Queue.pushTail
  rw [if_neg hroom, hhead, hslot]
  by_cases hempty : nodes = []
  · subst hempty
    obtain ⟨hcur, hlast⟩ := h.seg
    refine ⟨_, by simp only [hlast, if_true, Option.map_some]; rfl, ?_⟩
    refine ⟨?_, ?_, hpart, by simp [hlenEq]⟩
    · refine ⟨rfl, nil, ?_, rfl, rfl⟩
      simp [Queue.put, getElem?_set _ _ _ hi]
    · refine hfree.of_agree fun j hj ↦ ?_
      have : j ≠ i := by rintro rfl; exact hif hj
      simp [Queue.put, getElem?_set _ _ _ hi, this]
  · obtain ⟨init, a, p, hinit, hlast⟩ := h.seg.last_slot hempty
    have hmem : queue.tail ∈ nodes.map Prod.fst := by simp [hinit]
    have htail : queue.tail < n := h.lt_of_mem (List.mem_append_left _ hmem)
    have htnil : queue.tail ≠ nil := by omega
    have hti : queue.tail ≠ i := by rintro heq; exact hin (heq ▸ hmem)
    have hnode := node?_eq_some.mpr hlast
    refine ⟨_, by simp only [htnil, if_false, hnode, Option.map_some]; rfl, ?_⟩
    refine ⟨?_, ?_, hpart, by simp [hlenEq]⟩
    · rw [Seg.append]
      refine ⟨i, queue.tail, ?_, rfl, nil, ?_, rfl, rfl⟩
      · have hseg := h.seg
        simp only [Queue.put]
        rw [hinit] at hseg ⊢
        refine hseg.relink_last hlast ?_ ?_
        · rw [getElem?_set _ _ _ hi, if_neg hti, getElem?_set _ _ _ htail, if_pos rfl]
        · intro j hj
          have hjn : j ∈ nodes.map Prod.fst := by
            rw [hinit, List.map_append]
            exact List.mem_append_left _ hj
          have hji : j ≠ i := by rintro rfl; exact hin hjn
          have hjt : j ≠ queue.tail := by
            rintro rfl
            have := (List.nodup_append.mp hnodup).1
            rw [hinit, List.map_append, List.nodup_append] at this
            exact this.2.2 _ hj _ (by simp) rfl
          rw [getElem?_set _ _ _ hi, if_neg hji, getElem?_set _ _ _ htail, if_neg hjt]
      · simp [Queue.put, getElem?_set _ _ _ hi]
    · refine hfree.of_agree fun j hj ↦ ?_
      have hji : j ≠ i := by rintro rfl; exact hif hj
      have hjt : j ≠ queue.tail := by
        rintro rfl
        exact (List.nodup_append.mp hnodup).2.2 _ hmem _ (by simp [hj]) rfl
      simp [Queue.put, getElem?_set _ _ _ hi, getElem?_set _ _ _ htail, hji, hjt]

/-- Overwriting the value of a live handle. -/
theorem set {i : ℕ} {a b : α} {xs ys : List (ℕ × α)} (h : Rep queue (xs ++ (i, a) :: ys) free) :
    Rep (queue.set i b) (xs ++ (i, b) :: ys) free := by
  have hnodup := h.nodup
  have hi : i < n := h.lt_of_mem (by simp)
  have hseg := h.seg
  rw [Seg.append] at hseg
  obtain ⟨mid, midLast, hxs, rfl, next, hslot, hys⟩ := hseg
  have hset : queue.set mid b = queue.put mid ⟨b, midLast, next⟩ := by
    unfold Queue.set
    rw [node?_eq_some.mpr hslot]
  have hother (j : ℕ) (hj : j ≠ mid) : (queue.set mid b).slots[j]? = queue.slots[j]? := by
    rw [hset]
    simp [Queue.put, getElem?_set _ _ _ hi, hj]
  rw [List.map_append, List.map_cons, List.append_assoc, List.cons_append] at hnodup
  have hmid := List.nodup_append.mp hnodup
  have hxsne : ∀ j ∈ xs.map Prod.fst, j ≠ mid := fun j hj ↦ hmid.2.2 j hj mid (by simp)
  have hrest := (List.nodup_cons.mp hmid.2.1).1
  refine ⟨?_, ?_, by simpa using h.partition, ?_⟩
  · rw [Seg.append]
    refine ⟨mid, midLast, ?_, rfl, next, ?_, ?_⟩
    · have hhead : (queue.set mid b).head = queue.head := by rw [hset]; rfl
      rw [hhead]
      exact hxs.of_agree fun j hj ↦ hother j (hxsne j hj)
    · rw [hset]
      simp [Queue.put, getElem?_set _ _ _ hi]
    · have htail : (queue.set mid b).tail = queue.tail := by rw [hset]; rfl
      rw [htail]
      exact hys.of_agree fun j hj ↦ hother j fun heq ↦ hrest (by
        rw [← heq]
        exact List.mem_append_left _ hj)
  · have hfree : (queue.set mid b).freeHead = queue.freeHead := by rw [hset]; rfl
    rw [hfree]
    exact h.freeSeg.of_agree fun j hj ↦ hother j fun heq ↦ hrest (by
      rw [← heq]
      exact List.mem_append_right _ hj)
  · have hlen : (queue.set mid b).len = queue.len := by rw [hset]; rfl
    rw [hlen, h.len_eq]
    simp

/-- Redirecting the end of the part before a handle. -/
theorem relinkNext_left (hn : n ≤ nil) (stop' : ℕ) {xs : List (ℕ × α)} {stop last : ℕ}
    (hseg : Seg queue.slots nil queue.head xs stop last)
    (hlt : ∀ j ∈ xs.map Prod.fst, j < n) (hnodup : (xs.map Prod.fst).Nodup) :
    Seg (queue.relinkNext last stop').slots nil (queue.relinkNext last stop').head xs stop' last ∧
      ∀ j, j ∉ xs.map Prod.fst → (queue.relinkNext last stop').slots[j]? = queue.slots[j]? := by
  by_cases hxs : xs = []
  · subst hxs
    obtain ⟨-, rfl⟩ := hseg
    simp [Queue.relinkNext, Seg]
  · obtain ⟨init, a, p, hinit, hlast⟩ := hseg.last_slot hxs
    have hmem : last ∈ xs.map Prod.fst := by simp [hinit]
    have hll := hlt last hmem
    have hrelink : queue.relinkNext last stop' = queue.put last ⟨a, p, stop'⟩ := by
      unfold Queue.relinkNext
      rw [if_neg (by omega), node?_eq_some.mpr hlast]
    rw [hrelink]
    constructor
    · rw [hinit] at hseg hnodup ⊢
      refine hseg.relink_last hlast ?_ ?_
      · simp [Queue.put, getElem?_set _ _ _ hll]
      · intro j hj
        rw [List.map_append, List.nodup_append] at hnodup
        have : j ≠ last := fun heq ↦ hnodup.2.2 j hj last (by simp) heq
        simp [Queue.put, getElem?_set _ _ _ hll, this]
    · intro j hj
      have : j ≠ last := by rintro rfl; exact hj hmem
      simp [Queue.put, getElem?_set _ _ _ hll, this]

/-- Changing the predecessor of the part after a handle. -/
theorem relinkPrev_right (hn : n ≤ nil) (prev' : ℕ) {ys : List (ℕ × α)} {prev cur : ℕ}
    (hseg : Seg queue.slots prev cur ys nil queue.tail)
    (hlt : ∀ j ∈ ys.map Prod.fst, j < n) (hnodup : (ys.map Prod.fst).Nodup) :
    Seg (queue.relinkPrev cur prev').slots prev' cur ys nil (queue.relinkPrev cur prev').tail ∧
      ∀ j, j ∉ ys.map Prod.fst → (queue.relinkPrev cur prev').slots[j]? = queue.slots[j]? := by
  cases ys with
  | nil =>
    obtain ⟨rfl, -⟩ := hseg
    simp [Queue.relinkPrev, Seg]
  | cons y ys =>
    obtain ⟨i, a⟩ := y
    have hseg' := hseg
    obtain ⟨rfl, next, hslot, hrest⟩ := hseg
    have hi := hlt cur (by simp)
    have hrelink : queue.relinkPrev cur prev' = queue.put cur ⟨a, prev', next⟩ := by
      unfold Queue.relinkPrev
      rw [if_neg (by omega), node?_eq_some.mpr hslot]
    rw [hrelink]
    constructor
    · refine hseg'.relink_first hslot ?_ ?_
      · simp [Queue.put, getElem?_set _ _ _ hi]
      · intro j hj
        have hne : j ≠ cur := by
          rintro rfl
          exact (List.nodup_cons.mp hnodup).1 hj
        simp [Queue.put, getElem?_set _ _ _ hi, hne]
    · intro j hj
      have : j ≠ cur := by rintro rfl; exact hj (by simp)
      simp [Queue.put, getElem?_set _ _ _ hi, this]

@[simp] theorem relinkNext_tail (i next : ℕ) : (queue.relinkNext i next).tail = queue.tail := by
  unfold Queue.relinkNext
  split
  · rfl
  · split <;> rfl

@[simp] theorem relinkNext_freeHead (i next : ℕ) :
    (queue.relinkNext i next).freeHead = queue.freeHead := by
  unfold Queue.relinkNext
  split
  · rfl
  · split <;> rfl

@[simp] theorem relinkNext_len (i next : ℕ) : (queue.relinkNext i next).len = queue.len := by
  unfold Queue.relinkNext
  split
  · rfl
  · split <;> rfl

@[simp] theorem relinkPrev_head (i prev : ℕ) : (queue.relinkPrev i prev).head = queue.head := by
  unfold Queue.relinkPrev
  split
  · rfl
  · split <;> rfl

@[simp] theorem relinkPrev_freeHead (i prev : ℕ) :
    (queue.relinkPrev i prev).freeHead = queue.freeHead := by
  unfold Queue.relinkPrev
  split
  · rfl
  · split <;> rfl

@[simp] theorem relinkPrev_len (i prev : ℕ) : (queue.relinkPrev i prev).len = queue.len := by
  unfold Queue.relinkPrev
  split
  · rfl
  · split <;> rfl

/-- The neighbours of a live handle are live or absent. -/
theorem neighbours {i : ℕ} {a : α} {xs ys : List (ℕ × α)}
    (h : Rep queue (xs ++ (i, a) :: ys) free) {node : Node α} (hnode : queue.node? i = some node) :
    (node.prev = nil ∨ queue.node? node.prev ≠ none) ∧
      (node.next = nil ∨ queue.node? node.next ≠ none) := by
  have hseg := h.seg
  rw [Seg.append] at hseg
  obtain ⟨mid, midLast, hxs, rfl, next, hslot, hys⟩ := hseg
  rw [node?_eq_some, hslot] at hnode
  obtain rfl : (⟨a, midLast, next⟩ : Node α) = node := by simpa using hnode
  constructor
  · by_cases hempty : xs = []
    · subst hempty
      exact .inl hxs.2
    · obtain ⟨init, b, p, -, hlast⟩ := hxs.last_slot hempty
      exact .inr (by simp [node?_eq_some.mpr hlast])
  · cases ys with
    | nil => exact .inl hys.1
    | cons y ys =>
      obtain ⟨j, b⟩ := y
      obtain ⟨rfl, x, hslot', -⟩ := hys
      exact .inr (by simp [node?_eq_some.mpr hslot'])

/-- Unlinking a live handle keeps the order of all others. -/
theorem unlink (hn : n ≤ nil) {i : ℕ} {a : α} {xs ys : List (ℕ × α)}
    (h : Rep queue (xs ++ (i, a) :: ys) free) :
    ∃ queue', queue.unlink i = .ok (some (a, queue')) ∧ Rep queue' (xs ++ ys) (i :: free) := by
  have hi : i < n := h.lt_of_mem (by simp)
  have hlt (j : ℕ) (hj : j ∈ xs.map Prod.fst ∨ j ∈ ys.map Prod.fst) : j < n := by
    refine h.lt_of_mem ?_
    simp only [List.map_append, List.map_cons, List.mem_append, List.mem_cons]
    tauto
  have hnodup := h.nodup
  rw [List.map_append, List.map_cons, List.append_assoc, List.cons_append] at hnodup
  obtain ⟨hnxs, htail, hdisj⟩ := List.nodup_append.mp hnodup
  obtain ⟨hirest, hrest⟩ := List.nodup_cons.mp htail
  obtain ⟨hnys, -, hdisj'⟩ := List.nodup_append.mp hrest
  have hixs : i ∉ xs.map Prod.fst := fun hj ↦ hdisj i hj i (by simp) rfl
  have hxys (j : ℕ) (hx : j ∈ xs.map Prod.fst) : j ∉ ys.map Prod.fst :=
    fun hy ↦ hdisj j hx j (by simp only [List.mem_cons, List.mem_append]; tauto) rfl
  obtain ⟨mid, midLast, hxs, hmid, next, hslot, hys⟩ := Seg.append.mp h.seg
  subst hmid
  have hnode : queue.node? mid = some ⟨a, midLast, next⟩ := node?_eq_some.mpr hslot
  obtain ⟨hprev, hnext⟩ := h.neighbours hnode
  obtain ⟨hleft, hleftOther⟩ := relinkNext_left hn next hxs
    (fun j hj ↦ hlt j (.inl hj)) hnxs
  have hys' : Seg (queue.relinkNext midLast next).slots mid next ys nil
      (queue.relinkNext midLast next).tail := by
    rw [relinkNext_tail]
    exact hys.of_agree fun j hj ↦ hleftOther j fun hx ↦ hxys j hx hj
  obtain ⟨hright, hrightOther⟩ := relinkPrev_right hn midLast hys'
    (fun j hj ↦ hlt j (.inr hj)) hnys
  have hfreed (linked : Queue α n) (j : ℕ) (hj : j ≠ mid) :
      (linked.slots.setIfInBounds mid (.free linked.freeHead))[j]? = linked.slots[j]? := by
    simp [getElem?_set _ _ _ hi, hj]
  have hlen : 1 ≤ queue.len := by
    rw [h.len_eq]
    simp only [List.length_append, List.length_cons]
    omega
  refine ⟨{ (queue.relinkNext midLast next).relinkPrev next midLast with
      slots := ((queue.relinkNext midLast next).relinkPrev next midLast).slots.setIfInBounds mid
        (.free ((queue.relinkNext midLast next).relinkPrev next midLast).freeHead)
      freeHead := mid
      len := queue.len - 1 }, ?_, ?_⟩
  · unfold Queue.unlink
    rw [hnode]
    simp only
    rw [if_neg (by tauto), if_neg (by tauto)]
    simp only [relinkPrev_len, relinkNext_len, Run.sub_of_le hlen, Run.ok_bind]
    rfl
  · refine ⟨?_, ?_, ?_, ?_⟩
    · rw [Seg.append]
      refine ⟨next, midLast, ?_, ?_⟩
      · simp only [relinkPrev_head]
        refine hleft.of_agree fun j hj ↦ ?_
        rw [hfreed _ j (by rintro rfl; exact hixs hj), hrightOther j (hxys j hj)]
      · refine hright.of_agree fun j hj ↦ ?_
        refine hfreed _ j ?_
        rintro rfl
        exact hirest (List.mem_append_left _ hj)
    · refine ⟨rfl, queue.freeHead, by simp [getElem?_set _ _ _ hi], ?_⟩
      refine h.freeSeg.of_agree fun j hj ↦ ?_
      have hjx : j ∉ xs.map Prod.fst := fun hx ↦
        hdisj j hx j (by simp only [List.mem_cons, List.mem_append]; tauto) rfl
      have hjy : j ∉ ys.map Prod.fst := fun hy ↦ hdisj' j hy j hj rfl
      rw [hfreed _ j (by rintro rfl; exact hirest (List.mem_append_right _ hj)),
        hrightOther j hjy, hleftOther j hjx]
    · refine List.Perm.trans ?_ h.partition
      simp only [List.map_append, List.map_cons, List.append_assoc, List.cons_append]
      refine List.Perm.append_left _ ?_
      exact List.perm_middle
    · simp only
      rw [h.len_eq]
      simp

theorem walk_seg (hn : n ≤ nil) {suffix : List (ℕ × α)} {prev cur last : ℕ} (fuel : ℕ)
    (hseg : Seg queue.slots prev cur suffix nil last) (hlt : ∀ j ∈ suffix.map Prod.fst, j < n)
    (hfuel : suffix.length < fuel) : queue.walk fuel cur = .ok (suffix.map Prod.snd) := by
  induction suffix generalizing prev cur fuel with
  | nil =>
    obtain ⟨rfl, -⟩ := hseg
    cases fuel with
    | zero => omega
    | succ fuel => simp [Queue.walk]
  | cons y ys ih =>
    obtain ⟨j, b⟩ := y
    obtain ⟨rfl, next, hslot, hrest⟩ := hseg
    have hcur := hlt cur (by simp)
    cases fuel with
    | zero => omega
    | succ fuel =>
      rw [Queue.walk, if_neg (by omega), node?_eq_some.mpr hslot]
      simp only
      rw [ih fuel hrest (fun k hk ↦ hlt k (by simp [hk])) (by simpa using hfuel)]
      rfl

/-- The walk from the head visits the queue in order. -/
theorem values (hn : n ≤ nil) (h : Rep queue nodes free) :
    queue.values = .ok (nodes.map Prod.snd) := by
  have := h.length_add
  exact walk_seg hn (n + 1) h.seg (fun j hj ↦ h.lt_of_mem (List.mem_append_left _ hj)) (by omega)

/-- The head of the queue. -/
theorem head_cons {i : ℕ} {a : α} (h : Rep queue ((i, a) :: nodes) free) :
    queue.head = i ∧ queue.get? i = some a := by
  exact ⟨h.seg.1, h.get?_of_mem (by simp)⟩

end Rep

end DeterministicExchange.LinkedSlots
