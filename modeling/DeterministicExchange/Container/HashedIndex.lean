import DeterministicExchange.Container.Moves
import DeterministicExchange.Machine.Run

/-!
# Hashed indexes

An index keeps encoded values in a probe table, under keys that any hash may place. A client
records what each call answers: the value and the position of every key it inserted, and the new
position of every key that a deletion reports as moved. `Reached` collects the tables and the
records of all histories of calls that leave at least half of the positions vacant. In each of
them the index holds exactly the records, and every call does what the records say.
-/

namespace DeterministicExchange.HashedIndex

open Machine ProbeTable

variable {K V S : Type} {cap : ℕ}

/-- How an index places its keys, and how it stores its values. -/
structure Layout (K V : Type) (cap : ℕ) where
  start : K → ℕ
  encode : V → Option ℕ
  decode : ℕ → Option V
  start_lt : 0 < cap → ∀ key, start key < cap
  decode_encode : ∀ value encoded, encode value = some encoded → decode encoded = some value

inductive Refusal where
  | full
  | duplicate
  deriving DecidableEq, Repr

/-- The value and the position that a client knows of a key. -/
abbrev Records (K V : Type) := K → Option (V × U32)

/-! ## Operations -/

/-- One back-shift move, reported with its decoded value. -/
def reportMove (layout : Layout K V cap) (update : K → V → U32 → S → Bool × S) (key : K)
    (encoded hole : ℕ) (state : S) : Run (Option S) :=
  match layout.decode encoded with
  | none => .ok none
  | some value => do
    let position ← Run.expect "occupied slots fit u32" (Unsigned.ofNat? 32 hole)
    let (updated, state) := update key value position state
    Run.debugAssert updated
    return some state

section Operations

variable [DecidableEq K] (layout : Layout K V cap) (slots : Slots K ℕ cap)

def findSlot (key : K) : Option ℕ :=
  if cap = 0 then none
  else
    match probe slots key (layout.start key) with
    | .found i => some i
    | _ => none

def lookup (key : K) : Option V := do
  let i ← findSlot layout slots key
  let entry ← slot slots i
  layout.decode entry.2

def insert (key : K) (value : V) : Except Refusal (U32 × Slots K ℕ cap) :=
  if cap = 0 then .error .full
  else
    match layout.encode value with
    | none => .error .full
    | some encoded =>
      match probe slots key (layout.start key) with
      | .vacant i =>
        match Unsigned.ofNat? 32 i with
        | none => .error .full
        | some position => .ok (position, store slots i (some (key, encoded)))
      | .found _ => .error .duplicate
      | .full => .error .full

/-- Removes `key` at `position`; a stale position changes nothing. -/
def removeAt (position : U32) (key : K) (update : K → V → U32 → S → Bool × S) (state : S) :
    Run (Option V × Slots K ℕ cap × S) :=
  if cap ≤ position.val then .ok (none, slots, state)
  else
    match slot slots position.val with
    | none => .ok (none, slots, state)
    | some (indexed, encoded) =>
      match layout.decode encoded with
      | none => .ok (none, slots, state)
      | some value =>
        if indexed ≠ key then .ok (none, slots, state)
        else do
          let (closed, slots, state) ← ProbeTable.removeAt .diverged layout.start
            (reportMove layout update) slots position.val state
          return (if closed then some value else none, slots, state)

end Operations

/-! ## Contents -/

/-- The table holds exactly the records, each key at its recorded position. -/
structure Indexed (layout : Layout K V cap) (slots : Slots K ℕ cap) (records : Records K V) : Prop where
  probed : Probed layout.start slots
  stored : ∀ key value position, records key = some (value, position) →
    ∃ encoded, layout.encode value = some encoded ∧ slot slots position.val = some (key, encoded)
  recorded : ∀ i key encoded, slot slots i = some (key, encoded) →
    ∃ value position, records key = some (value, position) ∧ position.val = i

/-- Some position is vacant. -/
def Vacant (slots : Slots K ℕ cap) : Prop := ∃ e, e < cap ∧ slot slots e = none

def occupied (slots : Slots K ℕ cap) : ℕ := slots.toList.countP Option.isSome

theorem occupied_empty : occupied (ProbeTable.empty K ℕ cap) = 0 := by
  unfold occupied ProbeTable.empty
  rw [Vector.toList_replicate, List.countP_replicate]
  rfl

theorem vacant_of_half {slots : Slots K ℕ cap} (hpos : 0 < cap) (hhalf : 2 * occupied slots ≤ cap) :
    Vacant slots := by
  by_contra hfull
  have hall : ∀ entry ∈ slots.toList, Option.isSome entry = true := by
    intro entry hentry
    obtain ⟨i, hi, rfl⟩ := List.getElem_of_mem hentry
    rw [Vector.length_toList] at hi
    by_contra hnone
    refine hfull ⟨i, hi, ?_⟩
    unfold slot
    rw [Vector.getElem?_eq_getElem hi]
    simpa using hnone
  have hcount : occupied slots = cap := by
    unfold occupied
    rw [List.countP_eq_length.mpr hall, Vector.length_toList]
  omega

namespace Indexed

variable {layout : Layout K V cap} {slots : Slots K ℕ cap} {records : Records K V} {key : K} {value : V}
  {position : U32}

theorem new (layout : Layout K V cap) : Indexed layout (ProbeTable.empty K ℕ cap) fun _ ↦ none where
  probed := Probed.empty _
  stored := by simp
  recorded := by simp

/-- A stored entry is the record of its key. -/
theorem decoded (h : Indexed layout slots records) {i encoded : ℕ}
    (hslot : slot slots i = some (key, encoded)) :
    ∃ value position, records key = some (value, position) ∧ position.val = i ∧
      layout.encode value = some encoded ∧ layout.decode encoded = some value := by
  obtain ⟨value, position, hrecord, rfl⟩ := h.recorded i key encoded hslot
  obtain ⟨encoded', hencode, hslot'⟩ := h.stored key value position hrecord
  obtain rfl : encoded = encoded' := congrArg Prod.snd (Option.some.inj (hslot.symm.trans hslot'))
  exact ⟨value, position, hrecord, rfl, hencode, layout.decode_encode value encoded hencode⟩

theorem absent (h : Indexed layout slots records) (hrecord : records key = none) (i encoded : ℕ) :
    slot slots i ≠ some (key, encoded) := by
  intro hslot
  obtain ⟨value, position, hrecord', _⟩ := h.recorded i key encoded hslot
  rw [hrecord] at hrecord'
  cases hrecord'

variable [DecidableEq K]

/-- A recorded key is found at its position. -/
theorem probe_stored (hcap : cap ≤ 2 ^ 32) (h : Indexed layout slots records)
    (hrecord : records key = some (value, position)) :
    0 < cap ∧ probe slots key (layout.start key) = .found position.val := by
  obtain ⟨encoded, _, hslot⟩ := h.stored key value position hrecord
  have hpos : 0 < cap := (Nat.zero_le _).trans_lt (lt_of_slot hslot)
  exact ⟨hpos, probe_of_slot (addressable hcap) (layout.start_lt hpos) h.probed hslot⟩

theorem probe_absent (hpos : 0 < cap) (hcap : cap ≤ 2 ^ 32) (h : Indexed layout slots records)
    (hvacant : Vacant slots) (hrecord : records key = none) :
    ∃ i, probe slots key (layout.start key) = .vacant i ∧ i < cap ∧ slot slots i = none ∧
      ∀ j, j < cap → distance cap (layout.start key) j < distance cap (layout.start key) i →
        slot slots j ≠ none :=
  probe_of_absent (addressable hcap) (layout.start_lt hpos) (h.absent hrecord) hvacant

theorem findSlot_eq (hpos : 0 < cap) (hcap : cap ≤ 2 ^ 32) (h : Indexed layout slots records)
    (hvacant : Vacant slots) (key : K) :
    findSlot layout slots key = (records key).map fun record ↦ record.2.val := by
  unfold findSlot
  rw [if_neg hpos.ne']
  cases hrecord : records key with
  | none =>
    obtain ⟨i, hprobe, _⟩ := h.probe_absent hpos hcap hvacant hrecord
    rw [hprobe]
    rfl
  | some record =>
    rw [(h.probe_stored hcap hrecord).2]
    rfl

theorem lookup_eq (hpos : 0 < cap) (hcap : cap ≤ 2 ^ 32) (h : Indexed layout slots records)
    (hvacant : Vacant slots) (key : K) : lookup layout slots key = (records key).map Prod.fst := by
  unfold lookup
  rw [h.findSlot_eq hpos hcap hvacant]
  cases hrecord : records key with
  | none => rfl
  | some record =>
    obtain ⟨encoded, hencode, hslot⟩ := h.stored key record.1 record.2 hrecord
    show ((slot slots record.2.val).bind fun entry ↦ layout.decode entry.2) = some record.1
    rw [hslot]
    exact layout.decode_encode _ _ hencode

/-! ## Insertion -/

theorem insert_unstorable (hencode : layout.encode value = none) (slots : Slots K ℕ cap) (key : K) :
    HashedIndex.insert layout slots key value = .error .full := by
  unfold HashedIndex.insert
  rw [hencode]
  split <;> rfl

theorem insert_present (hcap : cap ≤ 2 ^ 32) (h : Indexed layout slots records)
    (hrecord : (records key).isSome) (hencode : (layout.encode value).isSome) :
    HashedIndex.insert layout slots key value = .error .duplicate := by
  obtain ⟨record, hrecord⟩ := Option.isSome_iff_exists.mp hrecord
  obtain ⟨encoded, hencode⟩ := Option.isSome_iff_exists.mp hencode
  obtain ⟨hpos, hprobe⟩ := h.probe_stored hcap hrecord
  unfold HashedIndex.insert
  rw [if_neg hpos.ne', hencode, hprobe]

/-- An absent key is stored, and recorded at the position that the insertion answers. -/
theorem insert_absent (hpos : 0 < cap) (hcap : cap ≤ 2 ^ 32) (h : Indexed layout slots records)
    (hvacant : Vacant slots) (hrecord : records key = none) (hencode : (layout.encode value).isSome) :
    ∃ position slots', HashedIndex.insert layout slots key value = .ok (position, slots') ∧
      Indexed layout slots' (Function.update records key (some (value, position))) := by
  obtain ⟨encoded, hencode⟩ := Option.isSome_iff_exists.mp hencode
  obtain ⟨i, hprobe, hi, hnone, hpath⟩ := h.probe_absent hpos hcap hvacant hrecord
  have hi32 : i < 2 ^ 32 := hi.trans_le hcap
  refine ⟨⟨i, hi32⟩, store slots i (some (key, encoded)), ?_,
    ⟨h.probed.store hi (h.absent hrecord) hpath, ?_, ?_⟩⟩
  · unfold HashedIndex.insert
    rw [if_neg hpos.ne', hencode, hprobe]
    simp only [Unsigned.ofNat?_of_lt hi32]
  · intro key' value' position' hrecord'
    rw [slot_store _ _ _ hi]
    by_cases hkey : key' = key
    · subst hkey
      rw [Function.update_self] at hrecord'
      obtain ⟨rfl, rfl⟩ := Prod.mk.inj (Option.some.inj hrecord')
      exact ⟨encoded, hencode, if_pos rfl⟩
    · rw [Function.update_of_ne hkey] at hrecord'
      obtain ⟨encoded', hencode', hslot'⟩ := h.stored key' value' position' hrecord'
      refine ⟨encoded', hencode', ?_⟩
      rw [if_neg, hslot']
      intro heq
      rw [heq, hnone] at hslot'
      cases hslot'
  · intro j key' encoded' hslot'
    rw [slot_store _ _ _ hi] at hslot'
    split at hslot'
    · next heq =>
      obtain ⟨rfl, rfl⟩ := Prod.mk.inj (Option.some.inj hslot')
      exact ⟨value, ⟨i, hi32⟩, Function.update_self .., heq.symm⟩
    · obtain ⟨value', position', hrecord', hposition⟩ := h.recorded j key' encoded' hslot'
      have hkey : key' ≠ key := by
        rintro rfl
        rw [hrecord] at hrecord'
        cases hrecord'
      exact ⟨value', position', by rw [Function.update_of_ne hkey, hrecord'], hposition⟩

end Indexed

/-! ## Reports of moves -/

/-- One call of the update closure. -/
def report (update : K → V → U32 → S → Bool × S) (state : S) (move : K × V × U32) : Run S := do
  let (updated, state) := update move.1 move.2.1 move.2.2 state
  Run.debugAssert updated
  return state

/-- The closure of a client: it checks the value that it recorded, and records the new position. -/
def track [DecidableEq K] [DecidableEq V] (key : K) (value : V) (position : U32)
    (records : Records K V) : Bool × Records K V :=
  (decide ((records key).map Prod.fst = some value), Function.update records key (some (value, position)))

def applyMoves [DecidableEq K] (records : Records K V) (moves : List (K × V × U32)) : Records K V :=
  moves.foldl (fun records move ↦ Function.update records move.1 (some move.2)) records

section Moves

variable [DecidableEq K] {records : Records K V} {moves : List (K × V × U32)} {key : K}

theorem applyMoves_of_not_mem (h : key ∉ moves.map Prod.fst) :
    applyMoves records moves key = records key := by
  induction moves generalizing records with
  | nil => rfl
  | cons move moves ih =>
    rw [List.map_cons, List.mem_cons, not_or] at h
    calc applyMoves records (move :: moves) key
        = Function.update records move.1 (some move.2) key := ih h.2
      _ = records key := Function.update_of_ne h.1 ..

theorem applyMoves_of_mem (hnodup : (moves.map Prod.fst).Nodup) {move : K × V × U32}
    (h : move ∈ moves) : applyMoves records moves move.1 = some move.2 := by
  induction moves generalizing records with
  | nil => cases h
  | cons first moves ih =>
    rw [List.map_cons, List.nodup_cons] at hnodup
    rcases List.mem_cons.mp h with rfl | h
    · calc applyMoves records (move :: moves) move.1
          = Function.update records move.1 (some move.2) move.1 := applyMoves_of_not_mem hnodup.1
        _ = some move.2 := Function.update_self ..
    · exact ih hnodup.2 h

/-- A client that recorded the values that are reported follows the moves. -/
theorem foldlM_track [DecidableEq V]
    (h : ∀ move ∈ moves, (records move.1).map Prod.fst = some move.2.1) :
    moves.foldlM (report track) records = .ok (applyMoves records moves) := by
  induction moves generalizing records with
  | nil => rfl
  | cons move moves ih =>
    have hhead : report track records move = .ok (Function.update records move.1 (some move.2)) := by
      unfold report track
      simp only [h move List.mem_cons_self, decide_true, Run.debugAssert_true, Run.ok_bind]
      rfl
    rw [List.foldlM_cons, hhead]
    refine ih fun later hlater ↦ ?_
    by_cases hkey : later.1 = move.1
    · have hvalue := h later (List.mem_cons_of_mem _ hlater)
      rw [hkey, h move List.mem_cons_self] at hvalue
      rw [hkey, Function.update_self, Option.map_some, hvalue]
    · rw [Function.update_of_ne hkey]
      exact h later (List.mem_cons_of_mem _ hlater)

end Moves

/-- What removing `key` does to the records: the key is forgotten, the others keep their values,
and exactly those at a new position are reported, once, with their value and that position. -/
structure Deletion (records records' : Records K V) (key : K) (moves : List (K × V × U32)) : Prop where
  once : (moves.map Prod.fst).Nodup
  removed : records' key = none
  kept : ∀ other, other ≠ key → (records' other).map Prod.fst = (records other).map Prod.fst
  moved : ∀ other value position, (other, value, position) ∈ moves ↔
    other ≠ key ∧ records' other = some (value, position) ∧ records other ≠ some (value, position)

/-! ## Removal -/

/-- A move of the table, and what the client hears of it. -/
structure Reported (layout : Layout K V cap) (records : Records K V) (move : K × ℕ × ℕ)
    (report : K × V × U32) : Prop where
  key_eq : report.1 = move.1
  position_eq : report.2.2.val = move.2.2
  encoded : layout.encode report.2.1 = some move.2.1
  record : ∃ former, records move.1 = some (report.2.1, former) ∧ former ≠ report.2.2

section Removal

variable {layout : Layout K V cap} {slots slots' : Slots K ℕ cap} {records : Records K V} {key : K}
  {value : V} {position : U32} {moves : List (K × ℕ × ℕ)} {reported : K × ℕ × ℕ → K × V × U32}

theorem reportMove_eq {move : K × ℕ × ℕ} {reported : K × V × U32} (h : Reported layout records move reported)
    (update : K → V → U32 → S → Bool × S) (state : S) :
    reportMove layout update move.1 move.2.1 move.2.2 state = (report update state reported).map some := by
  have hposition : Unsigned.ofNat? 32 move.2.2 = some reported.2.2 :=
    Unsigned.ofNat?_eq_some.mpr h.position_eq.symm
  unfold reportMove report
  rw [layout.decode_encode _ _ h.encoded]
  simp only [hposition, Run.expect_some, Run.ok_bind, h.key_eq]
  cases (update move.1 reported.2.1 reported.2.2 state).1 <;> rfl

/-- Every entry that moves is a record, at another position. -/
theorem Indexed.exists_reported {hole candidate e : ℕ} (hcap : cap ≤ 2 ^ 32)
    (h : Indexed layout slots records)
    (hclosed : Closed slots slots' hole moves) (hahead : Ahead slots hole candidate e moves)
    {move : K × ℕ × ℕ} (hmove : move ∈ moves) : ∃ reported, Reported layout records move reported := by
  obtain ⟨i, _, hmoved, hslot, _⟩ := hahead move hmove
  obtain ⟨value, former, hrecord, hformer, hencode, _⟩ := h.decoded hslot
  have hlt : move.2.2 < 2 ^ 32 := (lt_of_slot (hclosed.moved move hmove)).trans_le hcap
  refine ⟨(move.1, value, ⟨move.2.2, hlt⟩), rfl, rfl, hencode, former, hrecord, ?_⟩
  rintro rfl
  exact hmoved hformer.symm

theorem map_reported (h : ∀ move ∈ moves, Reported layout records move (reported move)) :
    (moves.map reported).map Prod.fst = moves.map Prod.fst := by
  rw [List.map_map]
  exact List.map_congr_left fun move hmove ↦ (h move hmove).key_eq

theorem Indexed.ne_of_slot (h : Indexed layout slots records)
    (hrecord : records key = some (value, position)) {i encoded : ℕ} {other : K} (hi : i ≠ position.val)
    (hslot : slot slots i = some (other, encoded)) : other ≠ key := by
  rintro rfl
  obtain ⟨removed, _, hremoved⟩ := h.stored other value position hrecord
  exact hi (h.probed.unique i position.val other encoded removed hslot hremoved)

variable [DecidableEq K]

theorem applyMoves_reported (hreported : ∀ move ∈ moves, Reported layout records move (reported move))
    (honce : (moves.map Prod.fst).Nodup) {move : K × ℕ × ℕ} (hmove : move ∈ moves) :
    applyMoves records (moves.map reported) move.1 = some (reported move).2 := by
  rw [← (hreported move hmove).key_eq]
  rw [← map_reported hreported] at honce
  exact applyMoves_of_mem honce (List.mem_map_of_mem hmove)

theorem applyMoves_unreported (hreported : ∀ move ∈ moves, Reported layout records move (reported move))
    {other : K} (hnot : other ∉ moves.map Prod.fst) :
    applyMoves records (moves.map reported) other = records other := by
  rw [← map_reported hreported] at hnot
  exact applyMoves_of_not_mem hnot

/-- After the deletion the table holds the records that the reported moves leave. -/
theorem Indexed.close {candidate e : ℕ} (h : Indexed layout slots records)
    (hrecord : records key = some (value, position)) (hprobed : Probed layout.start slots')
    (hclosed : Closed slots slots' position.val moves)
    (hahead : Ahead slots position.val candidate e moves)
    (hreported : ∀ move ∈ moves, Reported layout records move (reported move)) :
    Indexed layout slots' (Function.update (applyMoves records (moves.map reported)) key none) where
  probed := hprobed
  stored := by
    intro other value' position' hrecord'
    have hne : other ≠ key := by
      rintro rfl
      rw [Function.update_self] at hrecord'
      cases hrecord'
    rw [Function.update_of_ne hne] at hrecord'
    by_cases hmem : other ∈ moves.map Prod.fst
    · obtain ⟨move, hmove, rfl⟩ := List.mem_map.mp hmem
      rw [applyMoves_reported hreported hclosed.once hmove, Option.some.injEq] at hrecord'
      have h' := hreported move hmove
      have hslot := hclosed.moved move hmove
      rw [← h'.position_eq, hrecord'] at hslot
      exact ⟨move.2.1, by rw [← h'.encoded, hrecord'], hslot⟩
    · rw [applyMoves_unreported hreported hmem] at hrecord'
      obtain ⟨encoded, hencode, hslot⟩ := h.stored other value' position' hrecord'
      refine ⟨encoded, hencode, hclosed.kept _ _ _ ?_ hslot hmem⟩
      intro heq
      obtain ⟨removed, _, hremoved⟩ := h.stored key value position hrecord
      rw [heq, hremoved] at hslot
      exact hne (congrArg Prod.fst (Option.some.inj hslot)).symm
  recorded := by
    intro i other encoded hslot
    by_cases hmem : other ∈ moves.map Prod.fst
    · obtain ⟨move, hmove, rfl⟩ := List.mem_map.mp hmem
      have hi := hprobed.unique _ _ _ _ _ (hclosed.moved move hmove) hslot
      obtain ⟨j, hj, _, hsource, _⟩ := hahead move hmove
      refine ⟨(reported move).2.1, (reported move).2.2, ?_, (hreported move hmove).position_eq.trans hi⟩
      rw [Function.update_of_ne (h.ne_of_slot hrecord hj hsource),
        applyMoves_reported hreported hclosed.once hmove]
    · obtain ⟨j, hj, hsource⟩ := hclosed.origin i other encoded hslot
      have hi := hprobed.unique _ _ _ _ _ (hclosed.kept j other encoded hj hsource hmem) hslot
      obtain ⟨value', position', hrecord', hposition⟩ := h.recorded j other encoded hsource
      refine ⟨value', position', ?_, hposition.trans hi⟩
      rw [Function.update_of_ne (h.ne_of_slot hrecord hj hsource), applyMoves_unreported hreported hmem,
        hrecord']

/-- The reported moves are those of the other keys that are found elsewhere. -/
theorem Indexed.deletion {candidate e : ℕ} (h : Indexed layout slots records)
    (hrecord : records key = some (value, position))
    (hclosed : Closed slots slots' position.val moves)
    (hahead : Ahead slots position.val candidate e moves)
    (hreported : ∀ move ∈ moves, Reported layout records move (reported move)) :
    Deletion records (Function.update (applyMoves records (moves.map reported)) key none) key
      (moves.map reported) where
  once := by
    rw [map_reported hreported]
    exact hclosed.once
  removed := Function.update_self ..
  kept := by
    intro other hne
    rw [Function.update_of_ne hne]
    by_cases hmem : other ∈ moves.map Prod.fst
    · obtain ⟨move, hmove, rfl⟩ := List.mem_map.mp hmem
      obtain ⟨former, hformer, _⟩ := (hreported move hmove).record
      rw [applyMoves_reported hreported hclosed.once hmove, hformer]
      rfl
    · rw [applyMoves_unreported hreported hmem]
  moved := by
    intro other value' position'
    constructor
    · intro hmem
      obtain ⟨move, hmove, heq⟩ := List.mem_map.mp hmem
      have h' := hreported move hmove
      have happlied := applyMoves_reported hreported hclosed.once hmove
      obtain ⟨i, hi, _, hsource, _⟩ := hahead move hmove
      have hne := h.ne_of_slot hrecord hi hsource
      obtain ⟨former, hformer, hdiffers⟩ := h'.record
      rw [← h'.key_eq, heq] at hne happlied hformer
      refine ⟨hne, by rw [Function.update_of_ne hne, happlied], ?_⟩
      rw [hformer]
      intro hsame
      exact hdiffers (by rw [heq]; exact congrArg Prod.snd (Option.some.inj hsame))
    · rintro ⟨hne, hrecord', hdiffers⟩
      rw [Function.update_of_ne hne] at hrecord'
      by_cases hmem : other ∈ moves.map Prod.fst
      · obtain ⟨move, hmove, rfl⟩ := List.mem_map.mp hmem
        rw [applyMoves_reported hreported hclosed.once hmove, Option.some.injEq] at hrecord'
        rw [← hrecord', ← (hreported move hmove).key_eq]
        exact List.mem_map_of_mem hmove
      · rw [applyMoves_unreported hreported hmem] at hrecord'
        exact absurd hrecord' hdiffers

/-- Removing a key at its position: the closure hears of every move, and the key is forgotten. -/
theorem Indexed.removeAt (hcap : cap ≤ 2 ^ 32) (h : Indexed layout slots records)
    (hvacant : Vacant slots) (hrecord : records key = some (value, position)) :
    ∃ (slots' : Slots K ℕ cap) (moves : List (K × V × U32)),
      (∀ (S : Type) (update : K → V → U32 → S → Bool × S) (state : S),
        HashedIndex.removeAt layout slots position key update state =
          (moves.foldlM (report update) state).map fun state' ↦ (some value, slots', state')) ∧
      Deletion records (Function.update (applyMoves records moves) key none) key moves ∧
      Indexed layout slots' (Function.update (applyMoves records moves) key none) ∧ Vacant slots' := by
  obtain ⟨encoded, hencode, hslot⟩ := h.stored key value position hrecord
  have hposition := lt_of_slot hslot
  have hpos : 0 < cap := (Nat.zero_le _).trans_lt hposition
  obtain ⟨e, he, hnone⟩ := hvacant
  have hne : e ≠ position.val := by
    rintro rfl
    rw [hslot] at hnone
    cases hnone
  have hshift := h.probed.shifting (addressable hcap) hposition (by omega) (by rw [hslot]; simp)
  obtain ⟨slots', moves, hprobed, hclosed, hahead, hreports⟩ :=
    closeHole_moves (addressable hcap) (layout.start_lt hpos) Fault.diverged cap slots position.val
      (ProbeTable.position cap position.val 1) hshift he hne hnone (distance_lt hshift.candidate_lt he)
  have : Nonempty (K × V × U32) := ⟨(key, value, position)⟩
  choose! reported hreported using fun move (hmove : move ∈ moves) ↦
    h.exists_reported hcap hclosed hahead hmove
  refine ⟨slots', moves.map reported, ?_, h.deletion hrecord hclosed hahead hreported,
    h.close hrecord hprobed hclosed hahead hreported, hclosed.vacant⟩
  intro S update state
  have hwalk := hreports (reportMove layout update) (moves.map reported) (report update)
    (List.forall₂_map_right_iff.mpr (List.forall₂_same.mpr fun move hmove state ↦
      reportMove_eq (hreported move hmove) update state)) state
  unfold HashedIndex.removeAt ProbeTable.removeAt
  rw [if_neg (Nat.not_le.mpr hposition), hslot]
  simp only [layout.decode_encode _ _ hencode, ne_eq, not_true_eq_false, if_false, hwalk]
  cases (moves.map reported).foldlM (report update) state <;> rfl

/-- The client that tracks the positions follows the deletion. -/
theorem Deletion.tracked [DecidableEq V] {records' : Records K V} {moves : List (K × V × U32)}
    (h : Deletion records records' key moves) :
    moves.foldlM (report track) records = .ok (applyMoves records moves) := by
  refine foldlM_track fun move hmove ↦ ?_
  obtain ⟨hne, hrecord, _⟩ := (h.moved move.1 move.2.1 move.2.2).mp hmove
  rw [← h.kept move.1 hne, hrecord]
  rfl

/-- A handle that is not the current position of the key changes nothing. -/
theorem Indexed.removeAt_stale (h : Indexed layout slots records)
    (hstale : (records key).map Prod.snd ≠ some position) (update : K → V → U32 → S → Bool × S)
    (state : S) : HashedIndex.removeAt layout slots position key update state = .ok (none, slots, state) := by
  unfold HashedIndex.removeAt
  split
  · rfl
  · cases hslot : slot slots position.val with
    | none => rfl
    | some entry =>
      obtain ⟨indexed, encoded⟩ := entry
      obtain ⟨value, former, hrecord, hformer, _, hdecode⟩ := h.decoded hslot
      have hne : indexed ≠ key := by
        rintro rfl
        rw [hrecord, Option.map_some, Fin.ext hformer] at hstale
        exact hstale rfl
      simp only [hdecode, ne_eq, hne, not_false_eq_true, if_true]

end Removal

/-! ## Histories -/

inductive Call (K V : Type) where
  | insert (key : K) (value : V)
  | removeAt (position : U32) (key : K)

section Histories

variable [DecidableEq K] [DecidableEq V] (layout : Layout K V cap)

/-- A call of a client that keeps every answer in its records. -/
def step (slots : Slots K ℕ cap) (records : Records K V) : Call K V → Run (Slots K ℕ cap × Records K V)
  | .insert key value =>
    match insert layout slots key value with
    | .error _ => .ok (slots, records)
    | .ok (position, slots) => .ok (slots, Function.update records key (some (value, position)))
  | .removeAt position key => do
    let (removed, slots, records) ← removeAt layout slots position key track records
    return (slots, if removed.isSome then Function.update records key none else records)

/-- The tables and the records of the histories that keep at most half of the positions occupied. -/
inductive Reached : Slots K ℕ cap → Records K V → Prop
  | new : Reached (ProbeTable.empty K ℕ cap) fun _ ↦ none
  | step {slots slots' : Slots K ℕ cap} {records records' : Records K V} (call : Call K V) :
    Reached slots records → step layout slots records call = .ok (slots', records') →
    2 * occupied slots' ≤ cap → Reached slots' records'

/-- The index behaves as the map of the records, and keeps the positions in them exact. -/
structure Correct (slots : Slots K ℕ cap) (records : Records K V) : Prop where
  findSlot_eq : ∀ key, findSlot layout slots key = (records key).map fun record ↦ record.2.val
  lookup_eq : ∀ key, lookup layout slots key = (records key).map Prod.fst
  insert_absent : ∀ key value, records key = none → (layout.encode value).isSome →
    ∃ position slots', insert layout slots key value = .ok (position, slots') ∧
      Indexed layout slots' (Function.update records key (some (value, position)))
  insert_present : ∀ key value, (records key).isSome → (layout.encode value).isSome →
    insert layout slots key value = .error .duplicate
  insert_unstorable : ∀ key value, layout.encode value = none →
    insert layout slots key value = .error .full
  remove_current : ∀ key value position, records key = some (value, position) →
    ∃ slots' records' moves,
      (∀ (S : Type) (update : K → V → U32 → S → Bool × S) (state : S),
        removeAt layout slots position key update state =
          (moves.foldlM (report update) state).map fun state' ↦ (some value, slots', state')) ∧
      Deletion records records' key moves ∧ Indexed layout slots' records' ∧
      step layout slots records (.removeAt position key) = .ok (slots', records')
  remove_stale : ∀ key position, (records key).map Prod.snd ≠ some position →
    ∀ (S : Type) (update : K → V → U32 → S → Bool × S) (state : S),
      removeAt layout slots position key update state = .ok (none, slots, state)
  returns : ∀ call, ∃ slots' records', step layout slots records call = .ok (slots', records') ∧
    Indexed layout slots' records'

variable {layout} {slots slots' : Slots K ℕ cap} {records : Records K V} {key : K} {value : V}
  {position : U32} {moves : List (K × V × U32)}

theorem step_removeAt
    (hremove : removeAt layout slots position key track records =
      (moves.foldlM (report track) records).map fun records' ↦ (some value, slots', records'))
    (htracked : moves.foldlM (report track) records = .ok (applyMoves records moves)) :
    step layout slots records (.removeAt position key) =
      .ok (slots', Function.update (applyMoves records moves) key none) := by
  rw [step, hremove, htracked]
  rfl

theorem step_removeAt_stale (hremove : removeAt layout slots position key track records =
    .ok (none, slots, records)) :
    step layout slots records (.removeAt position key) = .ok (slots, records) := by
  rw [step, hremove]
  rfl

theorem step_insert_refused {refusal : Refusal} (hinsert : insert layout slots key value = .error refusal) :
    step layout slots records (.insert key value) = .ok (slots, records) := by
  rw [step, hinsert]

/-- Every call of the client returns, and the records follow the table. -/
theorem Indexed.step_ok (hpos : 0 < cap) (hcap : cap ≤ 2 ^ 32) (h : Indexed layout slots records)
    (hvacant : Vacant slots) (call : Call K V) :
    ∃ slots' records', step layout slots records call = .ok (slots', records') ∧
      Indexed layout slots' records' := by
  cases call with
  | insert key value =>
    cases hencode : layout.encode value with
    | none => exact ⟨slots, records, step_insert_refused (insert_unstorable hencode slots key), h⟩
    | some encoded =>
      have hstorable : (layout.encode value).isSome := by rw [hencode]; rfl
      cases hrecord : records key with
      | some record =>
        have hpresent : (records key).isSome := by rw [hrecord]; rfl
        exact ⟨slots, records, step_insert_refused (h.insert_present hcap hpresent hstorable), h⟩
      | none =>
        obtain ⟨position, slots', hinsert, hindexed⟩ := h.insert_absent hpos hcap hvacant hrecord hstorable
        refine ⟨slots', _, ?_, hindexed⟩
        rw [step, hinsert]
  | removeAt position key =>
    by_cases hcurrent : (records key).map Prod.snd = some position
    · obtain ⟨⟨value, _⟩, hrecord, rfl⟩ := Option.map_eq_some_iff.mp hcurrent
      obtain ⟨slots', moves, hremove, hdeletion, hindexed, _⟩ := h.removeAt hcap hvacant hrecord
      exact ⟨slots', _, step_removeAt (hremove _ track records) hdeletion.tracked, hindexed⟩
    · exact ⟨slots, records, step_removeAt_stale (h.removeAt_stale hcurrent track records), h⟩

theorem Indexed.correct (hpos : 0 < cap) (hcap : cap ≤ 2 ^ 32) (h : Indexed layout slots records)
    (hvacant : Vacant slots) : Correct layout slots records where
  findSlot_eq := h.findSlot_eq hpos hcap hvacant
  lookup_eq := h.lookup_eq hpos hcap hvacant
  insert_absent _ _ := h.insert_absent hpos hcap hvacant
  insert_present _ _ := h.insert_present hcap
  insert_unstorable key _ hencode := insert_unstorable hencode slots key
  remove_current := by
    intro key value position hrecord
    obtain ⟨slots', moves, hremove, hdeletion, hindexed, _⟩ := h.removeAt hcap hvacant hrecord
    exact ⟨slots', _, moves, hremove, hdeletion, hindexed,
      step_removeAt (hremove _ track records) hdeletion.tracked⟩
  remove_stale _ _ hstale _ := h.removeAt_stale hstale
  returns := h.step_ok hpos hcap hvacant

/-- In every history the table holds exactly what the client recorded. -/
theorem Reached.indexed (hpos : 0 < cap) (hcap : cap ≤ 2 ^ 32) (h : Reached layout slots records) :
    Indexed layout slots records ∧ 2 * occupied slots ≤ cap := by
  induction h with
  | new => exact ⟨.new layout, by rw [occupied_empty]; exact Nat.zero_le _⟩
  | step call _ hstep hhalf ih =>
    obtain ⟨hindexed, hbefore⟩ := ih
    obtain ⟨_, _, hok, hindexed'⟩ := hindexed.step_ok hpos hcap (vacant_of_half hpos hbefore) call
    rw [hstep] at hok
    cases hok
    exact ⟨hindexed', hhalf⟩

theorem Reached.correct (hpos : 0 < cap) (hcap : cap ≤ 2 ^ 32) (h : Reached layout slots records) :
    Correct layout slots records := by
  obtain ⟨hindexed, hhalf⟩ := h.indexed hpos hcap
  exact hindexed.correct hpos hcap (vacant_of_half hpos hhalf)

end Histories

end DeterministicExchange.HashedIndex
