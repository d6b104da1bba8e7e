import DeterministicExchange.Container.BinarySearch
import DeterministicExchange.Container.KeyOrder
import DeterministicExchange.Types

/-!
# Route table

The table of `hft-router`: one instrument for each shard. Routes are kept in
instrument order, with the positions of the shards beside them; instruments
without gaps are found by offset, others by binary search.
-/

namespace DeterministicExchange.Router

open Machine

abbrev ShardId := U16

structure InstrumentRoute where
  instrumentId : InstrumentId
  shardId : ShardId
  deriving DecidableEq, Repr

inductive RouteTableError where
  | noShards
  | tooManyShards
  | invalidShardId (shard : ShardId)
  | duplicateShardId (shard : ShardId)
  | duplicateInstrument (instrument : InstrumentId)
  deriving DecidableEq, Repr

structure RouteTable (SHARDS : ℕ) where
  byInstrument : Vector InstrumentRoute SHARDS
  byShard : Vector U16 SHARDS
  dense : Bool
  deriving DecidableEq, Repr

namespace RouteTable

variable {SHARDS : ℕ}

/-- Every shard is in range and named once. -/
def checkShards : List InstrumentRoute → Vector Bool SHARDS → Run (Except RouteTableError Unit)
  | [], _ => .ok (.ok ())
  | route :: routes, seen =>
    if SHARDS ≤ route.shardId.val then .ok (.error (.invalidShardId route.shardId))
    else do
      if ← Run.read seen route.shardId.val then return .error (.duplicateShardId route.shardId)
      else checkShards routes (← Run.write seen route.shardId.val true)

def sortRoutes (routes : Vector InstrumentRoute SHARDS) : Vector InstrumentRoute SHARDS :=
  ⟨(routes.toList.insertionSort fun a b ↦ a.instrumentId ≤ b.instrumentId).toArray, by simp⟩

/-- No two neighbours trade the same instrument. -/
def checkInstruments : List InstrumentRoute → Except RouteTableError Unit
  | first :: second :: routes =>
    if first.instrumentId = second.instrumentId then .error (.duplicateInstrument first.instrumentId)
    else checkInstruments (second :: routes)
  | _ => .ok ()

/-- Notes the position of every route under its shard. -/
def placeShards : List InstrumentRoute → ℕ → Vector U16 SHARDS →
    Run (Except RouteTableError (Vector U16 SHARDS))
  | [], _, byShard => .ok (.ok byShard)
  | route :: routes, index, byShard =>
    match Unsigned.ofNat? 16 index with
    | none => .ok (.error .tooManyShards)
    | some position => do
      placeShards routes (index + 1) (← Run.write byShard route.shardId.val position)

def tryNew (routes : Vector InstrumentRoute SHARDS) : Run (Except RouteTableError (RouteTable SHARDS)) :=
  if SHARDS = 0 then .ok (.error .noShards)
  else if (Unsigned.maxValue 16).val + 1 < SHARDS then .ok (.error .tooManyShards)
  else do
    match ← checkShards routes.toList (Vector.replicate SHARDS false) with
    | .error error => return .error error
    | .ok () =>
      let routes := sortRoutes routes
      match checkInstruments routes.toList with
      | .error error => return .error error
      | .ok () =>
        match ← placeShards routes.toList 0 (Vector.replicate SHARDS 0) with
        | .error error => return .error error
        | .ok byShard =>
          let last ← Run.read routes (SHARDS - 1)
          let first ← Run.read routes 0
          let span ← Run.subWord last.instrumentId first.instrumentId
          match Unsigned.ofNat? 32 (SHARDS - 1) with
          | none => return .error .tooManyShards
          | some steps => return .ok ⟨routes, byShard, span = steps⟩

def shardFor (table : RouteTable SHARDS) (instrument : InstrumentId) : Run (Option ShardId) :=
  if table.dense then do
    let first ← Run.read table.byInstrument 0
    match Unsigned.checkedSub instrument first.instrumentId with
    | none => return none
    | some offset => return (table.byInstrument[offset.val]?).map InstrumentRoute.shardId
  else
    match BinarySearch.find (table.byInstrument.toList.map InstrumentRoute.instrumentId) instrument with
    | none => .ok none
    | some index => do return some (← Run.read table.byInstrument index).shardId

def instrumentFor (table : RouteTable SHARDS) (shard : ShardId) : Option InstrumentId :=
  match table.byShard[shard.val]? with
  | none => none
  | some index => (table.byInstrument[index.val]?).map InstrumentRoute.instrumentId

/-! ## What the constructor checks -/

/-- The shards are those below `SHARDS`, once each, and no instrument is routed twice. -/
structure Routable (routes : Vector InstrumentRoute SHARDS) : Prop where
  positive : 0 < SHARDS
  bounded : SHARDS ≤ 2 ^ 16
  inRange : ∀ route ∈ routes.toList, route.shardId.val < SHARDS
  shards : (routes.toList.map InstrumentRoute.shardId).Nodup
  instruments : (routes.toList.map InstrumentRoute.instrumentId).Nodup

/-- A table of the given routes, whose lookups are each other's inverse. -/
structure Sound (table : RouteTable SHARDS) (routes : Vector InstrumentRoute SHARDS) : Prop where
  positive : 0 < SHARDS
  perm : table.byInstrument.toList.Perm routes.toList
  ascending : table.byInstrument.toList.Pairwise fun a b ↦ a.instrumentId < b.instrumentId
  shards : (table.byInstrument.toList.map fun route ↦ route.shardId.val).Perm (List.range SHARDS)
  positions : ∀ (i : ℕ) (route : InstrumentRoute), table.byInstrument[i]? = some route →
    ∃ position : U16, table.byShard[route.shardId.val]? = some position ∧ position.val = i
  dense : table.dense = true → ∀ first, table.byInstrument[0]? = some first →
    ∀ (i : ℕ) (route : InstrumentRoute), table.byInstrument[i]? = some route →
      route.instrumentId.val = first.instrumentId.val + i

theorem checkShards_spec (routes : List InstrumentRoute) (seen : Vector Bool SHARDS) :
    ∃ outcome, checkShards routes seen = .ok outcome ∧
      (outcome = .ok () ↔
        (∀ route ∈ routes, route.shardId.val < SHARDS ∧ seen[route.shardId.val]? = some false) ∧
          (routes.map InstrumentRoute.shardId).Nodup) := by
  induction routes generalizing seen with
  | nil => exact ⟨.ok (), rfl, by simp⟩
  | cons route routes ih =>
    unfold checkShards
    by_cases hrange : SHARDS ≤ route.shardId.val
    · rw [if_pos hrange]
      refine ⟨_, rfl, by simp, ?_⟩
      rintro ⟨hroutes, _⟩
      exact absurd (hroutes route List.mem_cons_self).1 (not_lt.mpr hrange)
    · rw [if_neg hrange]
      have hlt : route.shardId.val < SHARDS := not_le.mp hrange
      cases hseen : seen[route.shardId.val] with
      | true =>
        have hread : Run.read seen route.shardId.val = .ok true :=
          Run.read_eq_ok.mpr (by rw [Vector.getElem?_eq_getElem hlt, hseen])
        simp only [hread, Run.ok_bind, if_true]
        refine ⟨_, rfl, by simp, ?_⟩
        rintro ⟨hroutes, _⟩
        have hfalse := (hroutes route List.mem_cons_self).2
        rw [Vector.getElem?_eq_getElem hlt, hseen] at hfalse
        exact absurd hfalse (by simp)
      | false =>
        have hread : Run.read seen route.shardId.val = .ok false :=
          Run.read_eq_ok.mpr (by rw [Vector.getElem?_eq_getElem hlt, hseen])
        simp only [hread, Run.ok_bind, Bool.false_eq_true, if_false, Run.write_of_lt seen true hlt]
        obtain ⟨outcome, hrun, hiff⟩ := ih (seen.setIfInBounds route.shardId.val true)
        refine ⟨outcome, hrun, hiff.trans ?_⟩
        have hother (other : InstrumentRoute) (hmem : other ∈ routes) :
            (other.shardId.val < SHARDS ∧
              (seen.setIfInBounds route.shardId.val true)[other.shardId.val]? = some false) ↔
            (other.shardId.val < SHARDS ∧ seen[other.shardId.val]? = some false) ∧
              other.shardId ≠ route.shardId := by
          rw [Vector.getElem?_setIfInBounds]
          by_cases heq : route.shardId.val = other.shardId.val
          · have hsame : other.shardId = route.shardId := Fin.ext heq.symm
            simp [hsame]
          · have hne : other.shardId ≠ route.shardId := fun h ↦ heq (congrArg Fin.val h).symm
            simp [heq, hne]
        rw [List.map_cons, List.nodup_cons, List.forall_mem_cons]
        constructor
        · rintro ⟨hroutes, hnodup⟩
          refine ⟨⟨⟨hlt, ?_⟩, fun other hmem ↦ ((hother other hmem).mp (hroutes other hmem)).1⟩, ?_, hnodup⟩
          · rw [Vector.getElem?_eq_getElem hlt, hseen]
          · intro hmem
            obtain ⟨other, hmem, heq⟩ := List.mem_map.mp hmem
            exact ((hother other hmem).mp (hroutes other hmem)).2 heq
        · rintro ⟨⟨_, hroutes⟩, hfresh, hnodup⟩
          refine ⟨fun other hmem ↦ (hother other hmem).mpr ⟨hroutes other hmem, fun heq ↦ ?_⟩, hnodup⟩
          exact hfresh (List.mem_map.mpr ⟨other, hmem, heq⟩)

theorem checkInstruments_cases (routes : List InstrumentRoute) :
    (checkInstruments routes = .ok () ∧
        routes.IsChain fun a b ↦ a.instrumentId ≠ b.instrumentId) ∨
      (∃ error, checkInstruments routes = .error error) ∧
        ¬ routes.IsChain fun a b ↦ a.instrumentId ≠ b.instrumentId := by
  induction routes with
  | nil => exact .inl ⟨rfl, .nil⟩
  | cons first routes ih =>
    cases routes with
    | nil => exact .inl ⟨rfl, .singleton _⟩
    | cons second routes =>
      rw [checkInstruments, List.isChain_cons_cons]
      by_cases heq : first.instrumentId = second.instrumentId
      · rw [if_pos heq]
        exact .inr ⟨⟨_, rfl⟩, fun h ↦ h.1 heq⟩
      · rw [if_neg heq]
        rcases ih with ⟨hrun, hchain⟩ | ⟨herror, hchain⟩
        · exact .inl ⟨hrun, heq, hchain⟩
        · exact .inr ⟨herror, fun h ↦ hchain h.2⟩

/-- Routes of distinct shards in range are all placed; other positions stay as they are. -/
theorem placeShards_of_nodup {routes : List InstrumentRoute} {index : ℕ} (byShard : Vector U16 SHARDS)
    (hrange : ∀ route ∈ routes, route.shardId.val < SHARDS)
    (hnodup : (routes.map InstrumentRoute.shardId).Nodup) (hindex : index + routes.length ≤ 2 ^ 16) :
    ∃ placed, placeShards routes index byShard = .ok (.ok placed) ∧
      (∀ i route, routes[i]? = some route →
        ∃ position, placed[route.shardId.val]? = some position ∧ position.val = index + i) ∧
      ∀ shard : ShardId, shard ∉ routes.map InstrumentRoute.shardId → placed[shard.val]? =
        byShard[shard.val]? := by
  induction routes generalizing index byShard with
  | nil => exact ⟨byShard, rfl, by simp, fun _ _ ↦ rfl⟩
  | cons route routes ih =>
    rw [List.length_cons] at hindex
    rw [List.map_cons, List.nodup_cons] at hnodup
    have hlt : route.shardId.val < SHARDS := hrange route List.mem_cons_self
    have hposition : index < 2 ^ 16 := by omega
    obtain ⟨placed, hrun, hplaced, hkept⟩ :=
      ih (byShard.setIfInBounds route.shardId.val ⟨index, hposition⟩)
        (fun other hmem ↦ hrange other (List.mem_cons_of_mem _ hmem)) hnodup.2
        (Nat.succ_add_eq_add_succ index _ ▸ hindex)
    refine ⟨placed, ?_, ?_, ?_⟩
    · rw [placeShards, Unsigned.ofNat?_of_lt hposition]
      simp only [Run.write_of_lt byShard ⟨index, hposition⟩ hlt, Run.ok_bind]
      exact hrun
    · intro i other hother
      cases i with
      | zero =>
        obtain rfl : route = other := by simpa using hother
        refine ⟨⟨index, hposition⟩, ?_, rfl⟩
        rw [hkept route.shardId hnodup.1, Vector.getElem?_setIfInBounds, if_pos rfl, if_pos hlt]
      | succ i =>
        rw [List.getElem?_cons_succ] at hother
        obtain ⟨position, hget, hval⟩ := hplaced i other hother
        exact ⟨position, hget, by omega⟩
    · intro shard hshard
      rw [List.map_cons, List.mem_cons, not_or] at hshard
      rw [hkept shard hshard.2, Vector.getElem?_setIfInBounds]
      exact if_neg fun heq ↦ hshard.1 (Fin.ext heq.symm)

/-- In strictly ascending instruments, instruments are at least as far apart as their positions. -/
theorem le_of_ascending {routes : List InstrumentRoute}
    (h : routes.Pairwise fun a b ↦ a.instrumentId < b.instrumentId) {i j : ℕ} (hij : i ≤ j)
    {a b : InstrumentRoute} (ha : routes[i]? = some a) (hb : routes[j]? = some b) :
    a.instrumentId.val + (j - i) ≤ b.instrumentId.val := by
  induction j, hij using Nat.le_induction generalizing b with
  | base =>
    obtain rfl : a = b := Option.some.inj (ha.symm.trans hb)
    simp
  | succ j hij ih =>
    obtain ⟨hlt, hb⟩ := List.getElem?_eq_some_iff.mp hb
    have hprevious := ih (List.getElem?_eq_getElem (Nat.lt_of_succ_lt hlt))
    have hstep : routes[j].instrumentId < routes[j + 1].instrumentId :=
      List.pairwise_iff_getElem.mp h j (j + 1) (Nat.lt_of_succ_lt hlt) hlt (Nat.lt_succ_self j)
    rw [hb] at hstep
    have hstep' : routes[j].instrumentId.val < b.instrumentId.val := hstep
    omega

theorem toList_sortRoutes (routes : Vector InstrumentRoute SHARDS) :
    (sortRoutes routes).toList =
      routes.toList.insertionSort fun a b ↦ a.instrumentId ≤ b.instrumentId := by
  simp [sortRoutes]

theorem sortRoutes_perm (routes : Vector InstrumentRoute SHARDS) :
    (sortRoutes routes).toList.Perm routes.toList := by
  rw [toList_sortRoutes]
  exact List.perm_insertionSort _ _

/-- Sorted neighbours differ exactly if no instrument is routed twice. -/
theorem isChain_sortRoutes (routes : Vector InstrumentRoute SHARDS) :
    ((sortRoutes routes).toList.IsChain fun a b ↦ a.instrumentId ≠ b.instrumentId) ↔
      (routes.toList.map InstrumentRoute.instrumentId).Nodup := by
  have hsorted : (sortRoutes routes).toList.Pairwise fun a b ↦ a.instrumentId ≤ b.instrumentId := by
    rw [toList_sortRoutes]
    exact List.pairwise_insertionSort _ _
  constructor
  · intro hchain
    rw [← ((sortRoutes_perm routes).map InstrumentRoute.instrumentId).nodup_iff]
    exact KeyOrder.nodup_keys (KeyOrder.pairwise_of_neighbours hsorted hchain)
  · intro hnodup
    rw [toList_sortRoutes]
    exact ((KeyOrder.insertionSort_pairwise routes.toList hnodup).imp fun h ↦ h.ne).isChain

theorem shards_perm {routes : List InstrumentRoute} (hrange : ∀ route ∈ routes, route.shardId.val < SHARDS)
    (hnodup : (routes.map InstrumentRoute.shardId).Nodup) (hlength : routes.length = SHARDS) :
    (routes.map fun route ↦ route.shardId.val).Perm (List.range SHARDS) := by
  have hnodup' : (routes.map fun route ↦ route.shardId.val).Nodup := by
    have hmap := hnodup.map Fin.val_injective
    rwa [List.map_map] at hmap
  have hsubset : (routes.map fun route ↦ route.shardId.val) ⊆ List.range SHARDS := by
    intro shard hmem
    obtain ⟨route, hroute, rfl⟩ := List.mem_map.mp hmem
    exact List.mem_range.mpr (hrange route hroute)
  apply (List.subperm_of_subset hnodup' hsubset).perm_of_length_le
  rw [List.length_range, List.length_map, hlength]

/-- The constructor never faults. It succeeds exactly on routes that give every shard an instrument of
its own, and then builds a table of them. -/
theorem tryNew_cases (routes : Vector InstrumentRoute SHARDS) :
    (∃ table, tryNew routes = .ok (.ok table) ∧ Routable routes ∧ table.Sound routes) ∨
      (∃ error, tryNew routes = .ok (.error error)) ∧ ¬ Routable routes := by
  have hmaximum : (Unsigned.maxValue 16).val = 65535 := rfl
  unfold tryNew
  by_cases hzero : SHARDS = 0
  · rw [if_pos hzero]
    exact .inr ⟨⟨_, rfl⟩, fun h ↦ h.positive.ne' hzero⟩
  rw [if_neg hzero]
  by_cases hmany : (Unsigned.maxValue 16).val + 1 < SHARDS
  · rw [if_pos hmany]
    exact .inr ⟨⟨_, rfl⟩, fun h ↦ by have := h.bounded; omega⟩
  rw [if_neg hmany]
  obtain ⟨checked, hchecked, hshards⟩ := checkShards_spec routes.toList (Vector.replicate SHARDS false)
  cases checked with
  | error error =>
    simp only [hchecked, Run.ok_bind]
    refine .inr ⟨⟨error, rfl⟩, fun h ↦ absurd
      (hshards.mpr ⟨fun route hmem ↦ ⟨h.inRange route hmem, ?_⟩, h.shards⟩)
      (by simp)⟩
    rw [Vector.getElem?_replicate, if_pos (h.inRange route hmem)]
  | ok _ =>
    obtain ⟨hroutes, hnodup⟩ := hshards.mp rfl
    have hrange : ∀ route ∈ routes.toList, route.shardId.val < SHARDS :=
      fun route hmem ↦ (hroutes route hmem).1
    simp only [hchecked, Run.ok_bind]
    rcases checkInstruments_cases (sortRoutes routes).toList with ⟨hrun, hchain⟩ | ⟨⟨error, hrun⟩, hchain⟩
    · rw [hrun]
      have hperm := sortRoutes_perm routes
      have hinstruments := (isChain_sortRoutes routes).mp hchain
      have hascending : (sortRoutes routes).toList.Pairwise fun a b ↦ a.instrumentId < b.instrumentId := by
        rw [toList_sortRoutes]
        exact KeyOrder.insertionSort_pairwise routes.toList hinstruments
      have hrange' : ∀ route ∈ (sortRoutes routes).toList, route.shardId.val < SHARDS :=
        fun route hmem ↦ hrange route (hperm.mem_iff.mp hmem)
      have hnodup' := ((hperm.map InstrumentRoute.shardId).nodup_iff).mpr hnodup
      have hlength : (sortRoutes routes).toList.length = SHARDS := by simp
      have hfits : 0 + (sortRoutes routes).toList.length ≤ 2 ^ 16 := by omega
      obtain ⟨byShard, hplace, hplaced, _⟩ :=
        placeShards_of_nodup (Vector.replicate SHARDS 0) hrange' hnodup' hfits
      have hget (i : ℕ) : (sortRoutes routes).toList[i]? = (sortRoutes routes)[i]? := by simp
      obtain ⟨first, hfirst⟩ : ∃ first, (sortRoutes routes)[0]? = some first :=
        ⟨_, Vector.getElem?_eq_getElem (by omega)⟩
      obtain ⟨last, hlast⟩ : ∃ last, (sortRoutes routes)[SHARDS - 1]? = some last :=
        ⟨_, Vector.getElem?_eq_getElem (by omega)⟩
      have hspan := le_of_ascending hascending (Nat.zero_le (SHARDS - 1)) ((hget 0).trans hfirst)
        ((hget (SHARDS - 1)).trans hlast)
      have hsteps : SHARDS - 1 < 2 ^ 32 := by omega
      have hsub : Run.subWord last.instrumentId first.instrumentId =
          .ok (Unsigned.monus last.instrumentId first.instrumentId) := Run.subWord_of_le (by omega)
      simp only [hplace, Run.ok_bind, Run.read_eq_ok.mpr hlast, Run.read_eq_ok.mpr hfirst, hsub,
        Unsigned.ofNat?_of_lt hsteps]
      refine .inl ⟨_, rfl, ⟨by omega, by omega, hrange, hnodup, hinstruments⟩, by omega, hperm, hascending,
        shards_perm hrange' hnodup' hlength, ?_, ?_⟩
      · intro i route hroute
        obtain ⟨position, hposition, hval⟩ := hplaced i route ((hget i).trans hroute)
        exact ⟨position, hposition, by omega⟩
      · intro hdense first' hfirst' i route hroute
        obtain rfl : first = first' := Option.some.inj (hfirst.symm.trans hfirst')
        have hequal : last.instrumentId.val - first.instrumentId.val = SHARDS - 1 :=
          congrArg Fin.val (of_decide_eq_true hdense)
        have hi : i < SHARDS := (Vector.getElem?_eq_some_iff.mp hroute).1
        have hlow := le_of_ascending hascending (Nat.zero_le i) ((hget 0).trans hfirst)
          ((hget i).trans hroute)
        have hhigh := le_of_ascending hascending (Nat.le_sub_one_of_lt hi) ((hget i).trans hroute)
          ((hget (SHARDS - 1)).trans hlast)
        omega
    · rw [hrun]
      exact .inr ⟨⟨error, rfl⟩, fun h ↦ hchain ((isChain_sortRoutes routes).mpr h.instruments)⟩

theorem Sound.of_tryNew {routes : Vector InstrumentRoute SHARDS} {table : RouteTable SHARDS}
    (h : tryNew routes = .ok (.ok table)) : table.Sound routes := by
  rcases tryNew_cases routes with ⟨table', hrun, _, hsound⟩ | ⟨⟨error, hrun⟩, _⟩
  · obtain rfl : table' = table := Except.ok.inj (Except.ok.inj (hrun.symm.trans h))
    exact hsound
  · exact absurd (Except.ok.inj (hrun.symm.trans h)) (by simp)

/-! ## Lookups -/

section Lookup

variable {routes : Vector InstrumentRoute SHARDS} {table : RouteTable SHARDS}

theorem Sound.mem_iff (h : table.Sound routes) (route : InstrumentRoute) :
    route ∈ routes.toList ↔ ∃ i : ℕ, table.byInstrument[i]? = some route := by
  rw [← h.perm.mem_iff, List.mem_iff_getElem?]
  simp

/-- The shard of an instrument is that of its route. -/
theorem Sound.shardFor (h : table.Sound routes) (instrument : InstrumentId) :
    ∃ answer, table.shardFor instrument = .ok answer ∧ ∀ shard, answer = some shard ↔
      ∃ route ∈ routes.toList, route.instrumentId = instrument ∧ route.shardId = shard := by
  unfold RouteTable.shardFor
  cases hdense : table.dense with
  | true =>
    obtain ⟨first, hfirst⟩ : ∃ first, table.byInstrument[0]? = some first :=
      ⟨_, Vector.getElem?_eq_getElem h.positive⟩
    have hoffset := h.dense hdense first hfirst
    simp only [if_true, Run.read_eq_ok.mpr hfirst, Run.ok_bind]
    cases hsub : Unsigned.checkedSub instrument first.instrumentId with
    | none =>
      have hlt := Unsigned.checkedSub_eq_none.mp hsub
      refine ⟨none, rfl, fun shard ↦ ⟨nofun, ?_⟩⟩
      rintro ⟨route, hmem, rfl, _⟩
      obtain ⟨i, hi⟩ := (h.mem_iff route).mp hmem
      have := hoffset i route hi
      omega
    | some offset =>
      have hval := Unsigned.checkedSub_eq_some.mp hsub
      refine ⟨_, rfl, fun shard ↦ ?_⟩
      rw [Option.map_eq_some_iff]
      constructor
      · rintro ⟨route, hroute, rfl⟩
        refine ⟨route, (h.mem_iff route).mpr ⟨_, hroute⟩, Fin.ext ?_, rfl⟩
        have := hoffset _ route hroute
        omega
      · rintro ⟨route, hmem, rfl, rfl⟩
        obtain ⟨i, hi⟩ := (h.mem_iff route).mp hmem
        have := hoffset i route hi
        obtain rfl : i = offset.val := by omega
        exact ⟨route, hi, rfl⟩
  | false =>
    have hascending : (table.byInstrument.toList.map InstrumentRoute.instrumentId).Pairwise (· < ·) :=
      List.pairwise_map.mpr h.ascending
    have hfound (i : ℕ) := BinarySearch.find_eq_some hascending instrument i
    have hget (i : ℕ) : (table.byInstrument.toList.map InstrumentRoute.instrumentId)[i]? =
        (table.byInstrument[i]?).map InstrumentRoute.instrumentId := by simp
    simp only [Bool.false_eq_true, if_false]
    cases hfind : BinarySearch.find (table.byInstrument.toList.map InstrumentRoute.instrumentId)
      instrument with
    | none =>
      refine ⟨none, rfl, fun shard ↦ ⟨nofun, ?_⟩⟩
      rintro ⟨route, hmem, rfl, _⟩
      obtain ⟨i, hi⟩ := (h.mem_iff route).mp hmem
      have hsome := (hfound i).mpr (by rw [hget, hi]; rfl)
      exact absurd (hfind.symm.trans hsome) (by simp)
    | some index =>
      obtain ⟨route, hroute, hinstrument⟩ :=
        Option.map_eq_some_iff.mp ((hget index).symm.trans ((hfound index).mp hfind))
      simp only [Run.read_eq_ok.mpr hroute, Run.ok_bind]
      refine ⟨some route.shardId, rfl, fun shard ↦ ?_⟩
      rw [Option.some.injEq]
      constructor
      · rintro rfl
        exact ⟨route, (h.mem_iff route).mpr ⟨_, hroute⟩, hinstrument, rfl⟩
      · rintro ⟨other, hmem, rfl, rfl⟩
        obtain ⟨i, hi⟩ := (h.mem_iff other).mp hmem
        have hsome := (hfound i).mpr (by rw [hget, hi]; rfl)
        obtain rfl : index = i := Option.some.inj (hfind.symm.trans hsome)
        rw [Option.some.inj (hroute.symm.trans hi)]

/-- The instrument of a shard is that of its route. -/
theorem Sound.instrumentFor_eq_some (h : table.Sound routes) {shard : ShardId} {instrument : InstrumentId} :
    table.instrumentFor shard = some instrument ↔
      ∃ route ∈ routes.toList, route.instrumentId = instrument ∧ route.shardId = shard := by
  unfold RouteTable.instrumentFor
  constructor
  · intro hsome
    cases hindex : table.byShard[shard.val]? with
    | none =>
      rw [hindex] at hsome
      exact absurd hsome (by simp)
    | some index =>
      rw [hindex] at hsome
      have hlt : shard.val < SHARDS := (Vector.getElem?_eq_some_iff.mp hindex).1
      obtain ⟨route, hmem, hshard⟩ := List.mem_map.mp (h.shards.mem_iff.mpr (List.mem_range.mpr hlt))
      have hmem' := h.perm.mem_iff.mp hmem
      obtain ⟨i, hi⟩ := (h.mem_iff route).mp hmem'
      obtain ⟨position, hposition, hval⟩ := h.positions i route hi
      rw [hshard] at hposition
      obtain rfl : index = position := Option.some.inj (hindex.symm.trans hposition)
      simp only [hval, hi, Option.map_some, Option.some.injEq] at hsome
      exact ⟨route, hmem', hsome, Fin.ext hshard⟩
  · rintro ⟨route, hmem, rfl, rfl⟩
    obtain ⟨i, hi⟩ := (h.mem_iff route).mp hmem
    obtain ⟨position, hposition, hval⟩ := h.positions i route hi
    simp only [hposition, hval, hi, Option.map_some]

theorem Sound.shard_lt (h : table.Sound routes) {route : InstrumentRoute} (hmem : route ∈ routes.toList) :
    route.shardId.val < SHARDS :=
  List.mem_range.mp (h.shards.mem_iff.mp (List.mem_map_of_mem (h.perm.mem_iff.mpr hmem)))

end Lookup

/-! ## The order of the input -/

section Order

variable {routes routes' : Vector InstrumentRoute SHARDS} {table table' : RouteTable SHARDS}

theorem routable_iff : Routable routes ↔ 1 ≤ SHARDS ∧ SHARDS ≤ 65536 ∧
    (routes.toList.map fun route ↦ route.shardId.val).Perm (List.range SHARDS) ∧
      (routes.toList.map InstrumentRoute.instrumentId).Nodup := by
  constructor
  · intro h
    exact ⟨h.positive, h.bounded, shards_perm h.inRange h.shards routes.length_toList, h.instruments⟩
  · rintro ⟨hpositive, hbounded, hperm, hinstruments⟩
    refine ⟨hpositive, hbounded, fun route hmem ↦ ?_, ?_, hinstruments⟩
    · exact List.mem_range.mp (hperm.mem_iff.mp (List.mem_map_of_mem hmem))
    · have hnodup := hperm.nodup_iff.mpr List.nodup_range
      exact List.Nodup.of_map Fin.val (by rwa [List.map_map])

theorem Routable.perm (h : Routable routes) (hperm : routes'.toList.Perm routes.toList) : Routable routes' :=
  ⟨h.positive, h.bounded, fun route hmem ↦ h.inRange route (hperm.mem_iff.mp hmem),
    (hperm.map _).nodup_iff.mpr h.shards, (hperm.map _).nodup_iff.mpr h.instruments⟩

/-- A table is dense if its last instrument is as far from the first as its position. -/
theorem dense_of_tryNew (h : tryNew routes = .ok (.ok table)) :
    ∃ first last, table.byInstrument[0]? = some first ∧ table.byInstrument[SHARDS - 1]? = some last ∧
      table.dense = decide (last.instrumentId.val - first.instrumentId.val = SHARDS - 1) := by
  unfold tryNew at h
  split at h
  · simp at h
  split at h
  · simp at h
  obtain ⟨checked, _, h⟩ := Run.bind_eq_ok.mp h
  cases checked with
  | error error => simp at h
  | ok =>
  cases hinstruments : checkInstruments (sortRoutes routes).toList with
  | error error => simp [hinstruments] at h
  | ok =>
  simp only [hinstruments] at h
  obtain ⟨placed, _, h⟩ := Run.bind_eq_ok.mp h
  cases placed with
  | error error => simp at h
  | ok byShard =>
  obtain ⟨last, hlast, h⟩ := Run.bind_eq_ok.mp h
  obtain ⟨first, hfirst, h⟩ := Run.bind_eq_ok.mp h
  obtain ⟨span, hspan, h⟩ := Run.bind_eq_ok.mp h
  cases hsteps : Unsigned.ofNat? 32 (SHARDS - 1) with
  | none => simp [hsteps] at h
  | some steps =>
  simp only [hsteps] at h
  obtain rfl := Except.ok.inj (Except.ok.inj h)
  have hval : span.val = last.instrumentId.val - first.instrumentId.val := by
    unfold Run.subWord at hspan
    split at hspan
    · rw [← Except.ok.inj hspan]
      rfl
    · simp at hspan
  refine ⟨first, last, Run.read_eq_ok.mp hfirst, Run.read_eq_ok.mp hlast, ?_⟩
  rw [← hval, Unsigned.ofNat?_eq_some.mp hsteps]
  exact decide_eq_decide.mpr Fin.ext_iff

/-- Tables of the same routes have the same rows. -/
theorem Sound.byInstrument_eq (h : table.Sound routes) (h' : table'.Sound routes')
    (hperm : routes'.toList.Perm routes.toList) : table'.byInstrument = table.byInstrument :=
  Vector.toList_inj.mp
    (KeyOrder.eq_of_perm h'.ascending h.ascending (h'.perm.trans (hperm.trans h.perm.symm)))

theorem Sound.byShard_eq (h : table.Sound routes) (h' : table'.Sound routes')
    (hrows : table'.byInstrument = table.byInstrument) : table'.byShard = table.byShard := by
  apply Vector.ext
  intro shard hshard
  obtain ⟨route, hmem, rfl⟩ := List.mem_map.mp (h.shards.mem_iff.mpr (List.mem_range.mpr hshard))
  obtain ⟨i, hi⟩ := (h.mem_iff route).mp (h.perm.mem_iff.mp hmem)
  obtain ⟨position, hposition, hval⟩ := h.positions i route hi
  obtain ⟨position', hposition', hval'⟩ := h'.positions i route (hrows ▸ hi)
  rw [Vector.getElem?_eq_getElem hshard, Option.some.injEq] at hposition hposition'
  rw [hposition, hposition']
  exact Fin.ext (hval'.trans hval.symm)

/-- The order of the routes does not matter. -/
theorem tryNew_of_perm (h : tryNew routes = .ok (.ok table)) (hperm : routes'.toList.Perm routes.toList) :
    tryNew routes' = .ok (.ok table) := by
  have hroutable : Routable routes := by
    rcases tryNew_cases routes with ⟨_, _, hroutable, _⟩ | ⟨⟨error, hrun⟩, _⟩
    · exact hroutable
    · exact absurd (Except.ok.inj (hrun.symm.trans h)) (by simp)
  rcases tryNew_cases routes' with ⟨table', hrun, _, hsound'⟩ | ⟨_, hnot⟩
  · have hsound := Sound.of_tryNew h
    have hrows := hsound.byInstrument_eq hsound' hperm
    have hshards := hsound.byShard_eq hsound' hrows
    have hdense : table'.dense = table.dense := by
      obtain ⟨first, last, hfirst, hlast, hdense⟩ := dense_of_tryNew h
      obtain ⟨first', last', hfirst', hlast', hdense'⟩ := dense_of_tryNew hrun
      rw [hrows, hfirst, Option.some.injEq] at hfirst'
      rw [hrows, hlast, Option.some.injEq] at hlast'
      rw [hdense, hdense', hfirst', hlast']
    obtain ⟨byInstrument, byShard, dense⟩ := table
    obtain ⟨byInstrument', byShard', dense'⟩ := table'
    obtain rfl : byInstrument' = byInstrument := hrows
    obtain rfl : byShard' = byShard := hshards
    obtain rfl : dense' = dense := hdense
    exact hrun
  · exact absurd (hroutable.perm hperm) hnot

end Order

end RouteTable

/-- A table is built exactly for routes that number all shards and repeat no instrument. Both lookups read
the routes, whatever their order. -/
theorem route_lookup {SHARDS : ℕ} (routes : Vector InstrumentRoute SHARDS) :
    (∃ result, RouteTable.tryNew routes = .ok result ∧
      ((∃ table, result = .ok table) ↔ 1 ≤ SHARDS ∧ SHARDS ≤ 65536 ∧
        (routes.toList.map fun route ↦ route.shardId.val).Perm (List.range SHARDS) ∧
          (routes.toList.map InstrumentRoute.instrumentId).Nodup)) ∧
    ∀ table, RouteTable.tryNew routes = .ok (.ok table) →
      (∀ instrument, ∃ answer, table.shardFor instrument = .ok answer ∧
        ∀ shard, answer = some shard ↔ ⟨instrument, shard⟩ ∈ routes.toList) ∧
      (∀ instrument shard,
        table.shardFor instrument = .ok (some shard) ↔ table.instrumentFor shard = some instrument) ∧
      ∀ routes', routes'.toList.Perm routes.toList → RouteTable.tryNew routes' = .ok (.ok table) := by
  refine ⟨?_, fun table htable ↦ ?_⟩
  · rcases RouteTable.tryNew_cases routes with ⟨table, hrun, hroutable, _⟩ | ⟨⟨error, hrun⟩, hnot⟩
    · exact ⟨_, hrun, iff_of_true ⟨table, rfl⟩ (RouteTable.routable_iff.mp hroutable)⟩
    · exact ⟨_, hrun, iff_of_false (by simp) (mt RouteTable.routable_iff.mpr hnot)⟩
  have hsound := RouteTable.Sound.of_tryNew htable
  have hroute (instrument : InstrumentId) (shard : ShardId) :
      (∃ route ∈ routes.toList, route.instrumentId = instrument ∧ route.shardId = shard) ↔
        ⟨instrument, shard⟩ ∈ routes.toList := by
    constructor
    · rintro ⟨route, hmem, rfl, rfl⟩
      exact hmem
    · exact fun hmem ↦ ⟨_, hmem, rfl, rfl⟩
  refine ⟨fun instrument ↦ ?_, fun instrument shard ↦ ?_, fun routes' ↦ RouteTable.tryNew_of_perm htable⟩
  · obtain ⟨answer, hanswer, hiff⟩ := hsound.shardFor instrument
    exact ⟨answer, hanswer, fun shard ↦ (hiff shard).trans (hroute instrument shard)⟩
  · obtain ⟨answer, hanswer, hiff⟩ := hsound.shardFor instrument
    rw [hanswer, Except.ok.injEq, hiff shard, hsound.instrumentFor_eq_some]

end DeterministicExchange.Router
