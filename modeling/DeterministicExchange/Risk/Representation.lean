import DeterministicExchange.Machine.Atomic
import DeterministicExchange.Risk.RiskEngine
import DeterministicExchange.Risk.Logical

/-!
# Representation of the risk engine

`ProbeIndex.Rep` is the map view of an index, from keys to slots.
`RiskEngine.Represents` relates an engine to its logical state: the account
array and the reservation slab hold the listed records, in any slots, and both
indexes resolve exactly their keys.
-/

namespace DeterministicExchange.Risk

open Machine ProbeTable

/-! ## Probe index -/

namespace ProbeIndex

variable {PLANE : ℕ} {index : ProbeIndex PLANE} {place : U64 → ℕ} {stored : U64 → ℕ → Prop}

/-- The index maps each key to one slot, and no slot has two keys. -/
structure Rep (index : ProbeIndex PLANE) (place : U64 → ℕ) (stored : U64 → ℕ → Prop) : Prop where
  table : Stores (probeStart PLANE) index place fun key value ↦ ∃ slot, stored key slot ∧ value = slot + 1
  lt : ∀ key slot, stored key slot → slot < PLANE
  injective : ∀ key key' slot, stored key slot → stored key' slot → key = key'

theorem probeStart_lt (hpos : 0 < PLANE * indexPlanes) (key : U64) :
    probeStart PLANE key < PLANE * indexPlanes := Nat.mod_lt _ hpos

theorem Rep.new (PLANE : ℕ) : (ProbeIndex.new PLANE).Rep (fun _ ↦ 0) fun _ _ ↦ False where
  table := (Stores.empty _ _).congr (by simp)
  lt := by simp
  injective := by simp

theorem Rep.congr {stored' : U64 → ℕ → Prop} (h : index.Rep place stored)
    (heq : ∀ key slot, stored' key slot ↔ stored key slot) : index.Rep place stored' where
  table := h.table.congr fun key value ↦ by simp only [heq]
  lt := fun key slot hs ↦ h.lt key slot ((heq _ _).mp hs)
  injective := fun key key' slot hs hs' ↦ h.injective key key' slot ((heq _ _).mp hs) ((heq _ _).mp hs')

theorem Rep.capacity_pos (h : index.Rep place stored) {key : U64} {slot : ℕ}
    (hstored : stored key slot) : 0 < PLANE * indexPlanes :=
  Nat.mul_pos ((Nat.zero_le _).trans_lt (h.lt key slot hstored)) (by decide)

theorem Rep.exists_vacant (h : index.Rep place stored) (hpos : 0 < PLANE * indexPlanes) :
    ∃ e, e < PLANE * indexPlanes ∧ slot index e = none := by
  have hplane : 0 < PLANE := Nat.pos_of_mul_pos_right hpos
  refine h.table.exists_vacant (by unfold indexPlanes; omega : PLANE < PLANE * indexPlanes) ?_ ?_
  · rintro key value ⟨slot, hstored, rfl⟩
    have hlt := h.lt key slot hstored
    omega
  · rintro key key' value ⟨slot, hstored, rfl⟩ ⟨slot', hstored', heq⟩
    obtain rfl : slot = slot' := by omega
    exact h.injective key key' slot hstored hstored'

/-- The index resolves exactly its keys. -/
theorem Rep.lookup_eq_some (hcap : PLANE * indexPlanes ≤ 2 ^ 63) (h : index.Rep place stored)
    {key : U64} {slot : ℕ} : index.lookup key = some slot ↔ stored key slot := by
  by_cases hkey : ∃ slot', stored key slot'
  · obtain ⟨slot', hstored⟩ := hkey
    have hpos := h.capacity_pos hstored
    have hstores : ∃ s, stored key s ∧ slot' + 1 = s + 1 := ⟨slot', hstored, rfl⟩
    have hprobe := h.table.probe_stored hcap (probeStart_lt hpos) hstores
    have hlookup : index.lookup key = some slot' := by
      unfold lookup findSlot
      rw [if_neg hpos.ne', hprobe]
      simp [h.table.slot_place hstores]
    rw [hlookup]
    constructor
    · intro heq
      rw [← Option.some.inj heq]
      exact hstored
    · intro hstored'
      have heq := h.table.functional hstores ⟨slot, hstored', rfl⟩
      rw [show slot' = slot by omega]
  · have hlookup : index.lookup key = none := by
      unfold lookup findSlot
      by_cases hpos : PLANE * indexPlanes = 0
      · rw [if_pos hpos]
        rfl
      · have hpos' := Nat.pos_of_ne_zero hpos
        have habsent : ∀ value, ¬ ∃ slot, stored key slot ∧ value = slot + 1 :=
          fun value ⟨slot, hs, _⟩ ↦ hkey ⟨slot, hs⟩
        obtain ⟨i, hprobe⟩ := h.table.probe_absent hcap (probeStart_lt hpos') (h.exists_vacant hpos')
          habsent
        rw [if_neg hpos, hprobe]
        rfl
    rw [hlookup]
    simp only [reduceCtorEq, false_iff]
    exact fun hs ↦ hkey ⟨slot, hs⟩

theorem Rep.lookup_eq_none (hcap : PLANE * indexPlanes ≤ 2 ^ 63) (h : index.Rep place stored)
    {key : U64} (habsent : ∀ slot, ¬ stored key slot) : index.lookup key = none := by
  cases hlookup : index.lookup key with
  | none => rfl
  | some slot => exact absurd ((h.lookup_eq_some hcap).mp hlookup) (habsent slot)

/-- Indexing an absent key at an unused slot is refused only at a position beyond 32 bits. -/
theorem Rep.insert_builds (hcap : PLANE * indexPlanes ≤ 2 ^ 63) (h : index.Rep place stored) {key : U64}
    {slot : ℕ} (hslot : slot < PLANE) (habsent : ∀ slot, ¬ stored key slot)
    (hfresh : ∀ key, ¬ stored key slot) :
    (∃ error, index.insert key slot = .error error ∧ 2 ^ 32 < PLANE * indexPlanes) ∨
      ∃ flat index', index.insert key slot = .ok (flat, index') ∧
        index'.Rep (Function.update place key flat.val)
          fun key' slot' ↦ stored key' slot' ∨ key' = key ∧ slot' = slot := by
  have hpos : 0 < PLANE * indexPlanes := Nat.mul_pos (by omega) (by decide)
  have habsent' : ∀ value, ¬ ∃ slot, stored key slot ∧ value = slot + 1 :=
    fun value ⟨slot, hs, _⟩ ↦ habsent slot hs
  obtain ⟨i, hprobe, hi, hstore⟩ := h.table.store hcap (probeStart_lt hpos) (h.exists_vacant hpos) habsent'
  have hplane : PLANE ≤ 2 ^ 63 := (Nat.le_mul_of_pos_right PLANE (by decide)).trans hcap
  by_cases hi32 : i < 2 ^ 32
  swap
  · refine .inl ⟨.full, ?_, by omega⟩
    unfold ProbeIndex.insert
    rw [if_neg hpos.ne', if_neg (by omega), hprobe]
    simp only [Unsigned.ofNat?_eq_none.mpr (not_lt.mp hi32)]
  refine .inr ⟨⟨i, hi32⟩, ProbeTable.store index i (some (key, slot + 1)), ?_, ?_, ?_, ?_⟩
  · unfold ProbeIndex.insert
    rw [if_neg hpos.ne', if_neg (by omega), hprobe]
    simp only [Unsigned.ofNat?_of_lt hi32]
  · refine (hstore (slot + 1)).congr fun key' value' ↦ ?_
    constructor
    · rintro ⟨slot', hs | ⟨rfl, rfl⟩, rfl⟩
      · exact .inl ⟨slot', hs, rfl⟩
      · exact .inr ⟨rfl, rfl⟩
    · rintro (⟨slot', hs, rfl⟩ | ⟨rfl, rfl⟩)
      · exact ⟨slot', .inl hs, rfl⟩
      · exact ⟨slot, .inr ⟨rfl, rfl⟩, rfl⟩
  · rintro key' slot' (hs | ⟨_, rfl⟩)
    · exact h.lt key' slot' hs
    · exact hslot
  · rintro key₁ key₂ slot' (hs₁ | ⟨rfl, rfl⟩) (hs₂ | ⟨rfl, heq⟩)
    · exact h.injective key₁ key₂ slot' hs₁ hs₂
    · subst heq
      exact absurd hs₁ (hfresh key₁)
    · exact absurd hs₂ (hfresh key₂)
    · rfl

theorem Rep.insert (hcap : PLANE * indexPlanes ≤ 2 ^ 32) (h : index.Rep place stored) {key : U64}
    {slot : ℕ} (hslot : slot < PLANE) (habsent : ∀ slot, ¬ stored key slot)
    (hfresh : ∀ key, ¬ stored key slot) :
    ∃ flat index', index.insert key slot = .ok (flat, index') ∧
      index'.Rep (Function.update place key flat.val)
        fun key' slot' ↦ stored key' slot' ∨ key' = key ∧ slot' = slot :=
  (h.insert_builds (addressable hcap) hslot habsent hfresh).resolve_left fun ⟨_, _, hlarge⟩ ↦
    hlarge.not_ge hcap

/-- Removing a key. The callback is told every new place. -/
theorem Rep.removeAt {S : Type} (hcap : PLANE * indexPlanes ≤ 2 ^ 32) (h : index.Rep place stored)
    {key : U64} {slot : ℕ} (hstored : stored key slot) {flat : U32} (hflat : flat.val = place key)
    {updateMoved : U64 → ℕ → U32 → S → Bool × S} (related : S → (U64 → ℕ) → Prop)
    (hmoved : ∀ state place key' slot' newFlat, key' ≠ key → stored key' slot' → related state place →
      ∃ state', updateMoved key' slot' newFlat state = (true, state') ∧
        related state' (Function.update place key' newFlat.val))
    {state : S} (hrelated : related state place) :
    ∃ index' state' place', index.removeAt flat key updateMoved state =
        .ok (some slot, index', state') ∧
      index'.Rep place' (fun key' slot' ↦ stored key' slot' ∧ key' ≠ key) ∧ related state' place' := by
  have hpos := h.capacity_pos hstored
  have hstores : ∃ s, stored key s ∧ slot + 1 = s + 1 := ⟨slot, hstored, rfl⟩
  have hplace := h.table.place_lt hstores
  have hstep : ∀ state place key' value' hole, key' ≠ key → (∃ s, stored key' s ∧ value' = s + 1) →
      hole < PLANE * indexPlanes → related state place →
      ∃ state', reportMove updateMoved key' value' hole state = .ok (some state') ∧
        related state' (Function.update place key' hole) := by
    rintro state place key' value' hole hne ⟨slot', hs, rfl⟩ hhole hrel
    have hole32 : hole < 2 ^ 32 := by omega
    obtain ⟨state', hupdate, hrel'⟩ := hmoved state place key' slot' ⟨hole, hole32⟩ hne hs hrel
    refine ⟨state', ?_, hrel'⟩
    unfold reportMove
    simp only [Unsigned.ofNat?_of_lt hole32, Run.expect_some, Run.ok_bind, Nat.add_sub_cancel, hupdate,
      Run.debugAssert_true]
    rfl
  obtain ⟨index', state', place', hremove, htable, hrelated'⟩ := h.table.removeAt
    (addressable hcap) (probeStart_lt hpos) (h.exists_vacant hpos) Fault.diverged related hstores hstep
    hrelated
  refine ⟨index', state', place', ?_, ⟨?_, ?_, ?_⟩, hrelated'⟩
  · unfold ProbeIndex.removeAt
    rw [if_neg (by omega), hflat, h.table.slot_place hstores]
    simp only [ne_eq, not_true_eq_false, if_false, hremove, Run.ok_bind, Nat.add_sub_cancel]
    rfl
  · refine htable.congr fun key' value' ↦ ?_
    constructor
    · rintro ⟨slot', ⟨hs, hne⟩, rfl⟩
      exact ⟨⟨slot', hs, rfl⟩, hne⟩
    · rintro ⟨⟨slot', hs, rfl⟩, hne⟩
      exact ⟨slot', ⟨hs, hne⟩, rfl⟩
  · exact fun key' slot' hs ↦ h.lt key' slot' hs.1
  · exact fun key₁ key₂ slot' hs₁ hs₂ ↦ h.injective key₁ key₂ slot' hs₁.1 hs₂.1

end ProbeIndex

/-! ## Engine -/

variable {ACCOUNTS ORDERS : ℕ}

/-- The account array holds `cells`, and the account index maps their ids to their slots. -/
structure AccountsRep (accounts : Vector (Option AccountState) ACCOUNTS)
    (index : ProbeIndex ACCOUNTS) (place : U64 → ℕ) (cells : List (ℕ × AccountState)) : Prop where
  slot : ∀ i account, accounts[i]? = some (some account) ↔ (i, account) ∈ cells
  handles : (cells.map Prod.fst).Nodup
  index : index.Rep place fun key slot ↦ ∃ account, (slot, account) ∈ cells ∧ accountKey account.id = key

/-- The reservation slab holds `cells`; the reservation index maps their orders to their slots,
and each reservation knows the position of its index entry. -/
structure ReservationsRep (slots : Vector ReservationSlot ORDERS) (freeHead : ℕ)
    (index : ProbeIndex ORDERS) (place : U64 → ℕ) (cells : List (ℕ × Reservation)) (free : List ℕ) :
    Prop where
  slab : Slab.Rep slots freeHead cells free
  index : index.Rep place fun key slot ↦ ∃ r, (slot, r) ∈ cells ∧ r.orderId = key
  placed : ∀ cell ∈ cells, cell.2.indexSlot.val = place cell.2.orderId

structure RiskRep (engine : RiskEngine ACCOUNTS ORDERS) (state : RiskEngineState)
    (accountCells : List (ℕ × AccountState)) (cells : List (ℕ × Reservation)) (free : List ℕ) : Prop where
  accounts : ∃ place, AccountsRep engine.accounts engine.accountIndex place accountCells
  reservations : ∃ place, ReservationsRep engine.reservations engine.reservationFreeHead
    engine.reservationIndex place cells free
  accounts_eq : accountCells.map Prod.snd = state.accounts
  reservations_eq : cells.map (fun cell ↦ cell.2.export) = state.reservations
  ordered : state.Ordered
  maximum : engine.maximumOrderId = state.maximumOrderId
  killed : engine.killed = state.killed

/-- The engine represents the logical state. -/
def RiskEngine.Represents (engine : RiskEngine ACCOUNTS ORDERS) (state : RiskEngineState) : Prop :=
  ∃ accountCells cells free, RiskRep engine state accountCells cells free

theorem accountKey_injective : Function.Injective accountKey := by
  intro a b h
  have hval : (accountKey a).val = (accountKey b).val := by rw [h]
  exact Fin.ext hval

namespace RiskRep

variable {engine : RiskEngine ACCOUNTS ORDERS} {state : RiskEngineState}
  {accountCells : List (ℕ × AccountState)} {cells : List (ℕ × Reservation)} {free : List ℕ}

theorem account_mem (h : RiskRep engine state accountCells cells free) {account : AccountState} :
    account ∈ state.accounts ↔ ∃ slot, (slot, account) ∈ accountCells := by
  rw [← h.accounts_eq]
  simp

theorem reservation_mem (h : RiskRep engine state accountCells cells free)
    {reservation : ReservationRiskState} :
    reservation ∈ state.reservations ↔ ∃ slot r, (slot, r) ∈ cells ∧ r.export = reservation := by
  rw [← h.reservations_eq]
  simp

theorem orderIds_nodup (h : RiskRep engine state accountCells cells free) :
    (cells.map fun cell ↦ cell.2.orderId).Nodup := by
  have hnodup := h.ordered.orderIds_nodup
  rw [← h.reservations_eq, List.map_map] at hnodup
  exact hnodup

theorem cell_unique (h : RiskRep engine state accountCells cells free) {cell cell' : ℕ × Reservation}
    (hcell : cell ∈ cells) (hcell' : cell' ∈ cells) (heq : cell.2.orderId = cell'.2.orderId) :
    cell = cell' := List.inj_on_of_nodup_map h.orderIds_nodup hcell hcell' heq

end RiskRep

/-! ## Stored reservations -/

namespace RiskEngine

variable {risk : RiskEngine ACCOUNTS ORDERS} {state : RiskEngineState}

/-- The reservation stored in `slot`. -/
def ReservesAt (risk : RiskEngine ACCOUNTS ORDERS) (slot : ℕ) (r : Reservation) : Prop :=
  risk.reservations[slot]? = some (.live r)

/-- The accounts of an engine, in the order of their slots. -/
def registered (risk : RiskEngine ACCOUNTS ORDERS) : List AccountState :=
  risk.accounts.toList.filterMap id

def liveReservations (risk : RiskEngine ACCOUNTS ORDERS) : List ReservationRiskState :=
  (risk.reservations.toList.filterMap Slab.Cell.value?).map Reservation.export

namespace Represents

theorem mem_of_reservesAt (h : risk.Represents state) {slot : ℕ} {r : Reservation}
    (hreserves : risk.ReservesAt slot r) : r.export ∈ state.reservations := by
  obtain ⟨accountCells, cells, free, h⟩ := h
  obtain ⟨place, hreservations⟩ := h.reservations
  exact h.reservation_mem.mpr ⟨slot, r, hreservations.slab.slot_eq_live.mp hreserves, rfl⟩

theorem exists_reservesAt (h : risk.Represents state) {r : ReservationRiskState}
    (hr : r ∈ state.reservations) : ∃ slot stored, risk.ReservesAt slot stored ∧ stored.export = r := by
  obtain ⟨accountCells, cells, free, h⟩ := h
  obtain ⟨place, hreservations⟩ := h.reservations
  obtain ⟨slot, stored, hmem, hexport⟩ := h.reservation_mem.mp hr
  exact ⟨slot, stored, hreservations.slab.slot_eq_live.mpr hmem, hexport⟩

theorem reservesAt_unique (h : risk.Represents state) {slot slot' : ℕ} {r r' : Reservation}
    (hreserves : risk.ReservesAt slot r) (hreserves' : risk.ReservesAt slot' r')
    (hid : r.orderId = r'.orderId) : slot = slot' ∧ r = r' := by
  obtain ⟨accountCells, cells, free, h⟩ := h
  obtain ⟨place, hreservations⟩ := h.reservations
  have hcell := h.cell_unique (hreservations.slab.slot_eq_live.mp hreserves)
    (hreservations.slab.slot_eq_live.mp hreserves') hid
  exact Prod.ext_iff.mp hcell

theorem liveReservations_perm (h : risk.Represents state) :
    risk.liveReservations.Perm state.reservations := by
  obtain ⟨accountCells, cells, free, h⟩ := h
  obtain ⟨place, hreservations⟩ := h.reservations
  have hperm := hreservations.slab.values_perm.map Reservation.export
  rw [List.map_map] at hperm
  rw [← h.reservations_eq]
  exact hperm

theorem registered_perm (h : risk.Represents state) : risk.registered.Perm state.accounts := by
  obtain ⟨accountCells, cells, free, h⟩ := h
  obtain ⟨place, haccounts⟩ := h.accounts
  rw [← h.accounts_eq]
  refine Slab.cells_perm ?_ haccounts.handles
  intro i account
  rw [← haccounts.slot, Option.bind_eq_some_iff]
  exact ⟨fun ⟨_, hslot, hsome⟩ ↦ hsome ▸ hslot, fun hslot ↦ ⟨_, hslot, rfl⟩⟩

theorem mem_of_account (h : risk.Represents state) {slot : ℕ} {account : AccountState}
    (haccount : risk.accounts[slot]? = some (some account)) : account ∈ state.accounts := by
  obtain ⟨accountCells, cells, free, h⟩ := h
  obtain ⟨place, haccounts⟩ := h.accounts
  exact h.account_mem.mpr ⟨slot, (haccounts.slot slot account).mp haccount⟩

theorem exists_account (h : risk.Represents state) {account : AccountState}
    (hmem : account ∈ state.accounts) : ∃ slot : ℕ, risk.accounts[slot]? = some (some account) := by
  obtain ⟨accountCells, cells, free, h⟩ := h
  obtain ⟨place, haccounts⟩ := h.accounts
  obtain ⟨slot, hslot⟩ := h.account_mem.mp hmem
  exact ⟨slot, (haccounts.slot slot account).mpr hslot⟩

end Represents

end RiskEngine

end DeterministicExchange.Risk
