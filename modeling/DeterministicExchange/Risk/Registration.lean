import DeterministicExchange.Risk.Refinement

/-!
# Registration and kill switches

Operations outside the command path: a new engine, account registration, the
kill switches and account snapshots. An engine on which only these were called
is `Fresh`.
-/

namespace DeterministicExchange.Risk

open Machine ProbeTable

variable {ACCOUNTS ORDERS : ℕ} {engine : RiskEngine ACCOUNTS ORDERS} {state : RiskEngineState}

/-- An engine on which only registration and the kill switches were called, with any outcome. -/
inductive RiskEngine.Fresh : RiskEngine ACCOUNTS ORDERS → Prop where
  | new : Fresh (RiskEngine.new ACCOUNTS ORDERS)
  | registerAccount {engine engine' : RiskEngine ACCOUNTS ORDERS} {id : AccountId} {limits : RiskLimits}
      {result : Except RegistrationError Unit} (h : Fresh engine)
      (hrun : engine.registerAccount id limits = .ok (result, engine')) : Fresh engine'
  | setKillSwitch {engine : RiskEngine ACCOUNTS ORDERS} (h : Fresh engine) (killed : Bool) :
      Fresh (engine.setKillSwitch killed)
  | setAccountKillSwitch {engine engine' : RiskEngine ACCOUNTS ORDERS} {id : AccountId} {killed : Bool}
      {result : Except RejectReason Unit} (h : Fresh engine)
      (hrun : engine.setAccountKillSwitch id killed = .ok (result, engine')) : Fresh engine'

namespace RiskEngine.Represents

theorem new (ACCOUNTS ORDERS : ℕ) : (RiskEngine.new ACCOUNTS ORDERS).Represents RiskEngineState.empty := by
  refine ⟨[], [], List.range ORDERS, ⟨_, ?_, by simp, (ProbeIndex.Rep.new ACCOUNTS).congr (by simp)⟩,
    ⟨_, ?_, (ProbeIndex.Rep.new ORDERS).congr (by simp), by simp⟩, rfl, rfl,
    RiskEngineState.Ordered.empty, rfl, rfl⟩
  · intro i account
    have hget : (RiskEngine.new ACCOUNTS ORDERS).accounts[i]? ≠ some (some account) := by
      unfold RiskEngine.new
      rw [Vector.getElem?_replicate]
      split <;> simp
    simp [hget]
  · refine ⟨by simp, ?_, by simp⟩
    have hslots : ∀ i, 0 ≤ i → i < ORDERS → (RiskEngine.new ACCOUNTS ORDERS).reservations[i]? =
        some (.free (if i + 1 < ORDERS then i + 1 else Slab.nil)) := by
      intro i _ hi
      simp [RiskEngine.new, hi]
    have hchain := Slab.FreeSeg.chain ORDERS 0 (by omega) hslots
    have hhead : (RiskEngine.new ACCOUNTS ORDERS).reservationFreeHead =
        if 0 = ORDERS then Slab.nil else 0 := by
      unfold RiskEngine.new
      simp [eq_comm]
    rw [← List.range_eq_range'] at hchain
    rw [hhead]
    exact hchain

/-- The account array has a vacant slot exactly when fewer than `ACCOUNTS` accounts are listed. -/
theorem vacantAccount (h : engine.Represents state) :
    match engine.accounts.toList.findIdx? Option.isNone with
    | none => state.accounts.length = ACCOUNTS
    | some slot => slot < ACCOUNTS ∧ engine.accounts[slot]? = some none ∧
        state.accounts.length ≠ ACCOUNTS := by
  have hle := h.length_le.1
  obtain ⟨accountCells, cells, free, h⟩ := h
  obtain ⟨place, haccounts⟩ := h.accounts
  have hlength : state.accounts.length = (accountCells.map Prod.fst).length := by
    rw [← h.accounts_eq, List.length_map, List.length_map]
  cases hfind : engine.accounts.toList.findIdx? Option.isNone with
  | none =>
    refine le_antisymm hle ?_
    have hsub : (List.range ACCOUNTS).Subperm (accountCells.map Prod.fst) := by
      refine List.subperm_of_subset List.nodup_range ?_
      intro i hi
      have hi' := List.mem_range.mp hi
      have hsome := List.findIdx?_eq_none_iff.mp hfind (engine.accounts[i]) (by simp)
      obtain ⟨account, haccount⟩ := Option.isSome_iff_exists.mp
        (by simpa using hsome : engine.accounts[i].isSome = true)
      have hget : engine.accounts[i]? = some (some account) := by
        rw [Vector.getElem?_eq_getElem hi', haccount]
      exact List.mem_map.mpr ⟨_, (haccounts.slot i account).mp hget, rfl⟩
    rw [hlength]
    simpa using hsub.length_le
  | some slot =>
    obtain ⟨hslot, hnone, _⟩ := List.findIdx?_eq_some_iff_getElem.mp hfind
    have hslot' : slot < ACCOUNTS := by simpa using hslot
    have hget : engine.accounts[slot]? = some none := by
      rw [Vector.getElem?_eq_getElem hslot']
      simpa using hnone
    refine ⟨hslot', hget, ?_⟩
    have hsub : (slot :: accountCells.map Prod.fst).Subperm (List.range ACCOUNTS) := by
      refine List.subperm_of_subset (List.nodup_cons.mpr ⟨?_, haccounts.handles⟩) ?_
      · intro hmem
        obtain ⟨cell, hcell, rfl⟩ := List.mem_map.mp hmem
        rw [(haccounts.slot cell.1 cell.2).mpr hcell] at hget
        simp at hget
      · intro i hi
        rw [List.mem_range]
        rcases List.mem_cons.mp hi with rfl | hi
        · exact hslot'
        · obtain ⟨cell, hcell, rfl⟩ := List.mem_map.mp hi
          have hcellSlot := (haccounts.slot cell.1 cell.2).mpr hcell
          by_contra hge
          rw [Vector.getElem?_eq_none (by omega)] at hcellSlot
          simp at hcellSlot
    have hlen := hsub.length_le
    rw [List.length_cons, List.length_range, ← hlength] at hlen
    omega

/-- Filling a vacant account slot. -/
theorem addAccount_builds (hA : ACCOUNTS * indexPlanes ≤ 2 ^ 63) (h : engine.Represents state) {slot : ℕ}
    (hslot : slot < ACCOUNTS) (hvacant : engine.accounts[slot]? = some none) (account : AccountState)
    (hnew : state.account? account.id = none) :
    (∃ error, engine.accountIndex.insert (accountKey account.id) slot = .error error ∧
        2 ^ 32 < ACCOUNTS * indexPlanes) ∨
      ∃ flat index, engine.accountIndex.insert (accountKey account.id) slot = .ok (flat, index) ∧
        { engine with
          accounts := engine.accounts.setIfInBounds slot (some account)
          accountIndex := index }.Represents
        { state with accounts := state.accounts.orderedInsert (fun a b ↦ a.id ≤ b.id) account } := by
  obtain ⟨accountCells, cells, free, h⟩ := h
  obtain ⟨place, haccounts⟩ := h.accounts
  have hids := RiskEngineState.account?_eq_none.mp hnew
  have hout : ∀ a, (slot, a) ∉ accountCells := by
    intro a hmem
    rw [(haccounts.slot slot a).mpr hmem] at hvacant
    simp at hvacant
  have habsent : ∀ i, ¬ ∃ a, (i, a) ∈ accountCells ∧ accountKey a.id = accountKey account.id := by
    rintro i ⟨a, hmem, hkey⟩
    exact hids a (h.account_mem.mpr ⟨i, hmem⟩) (accountKey_injective hkey)
  have hfresh : ∀ key, ¬ ∃ a, (slot, a) ∈ accountCells ∧ accountKey a.id = key := by
    rintro key ⟨a, hmem, _⟩
    exact hout a hmem
  obtain hrefused | ⟨flat, index, hinsert, hrep⟩ := haccounts.index.insert_builds hA hslot habsent hfresh
  · exact .inl hrefused
  have hperm := List.perm_orderedInsert (fun x y : ℕ × AccountState ↦ x.2.id ≤ y.2.id) (slot, account)
    accountCells
  refine .inr ⟨flat, index, hinsert,
    accountCells.orderedInsert (fun x y ↦ x.2.id ≤ y.2.id) (slot, account), cells, free,
    ⟨_, ?_, ?_, hrep.congr ?_⟩, h.reservations, ?_, h.reservations_eq, ?_, h.maximum, h.killed⟩
  · intro i a
    rw [List.mem_orderedInsert, Vector.getElem?_setIfInBounds, Prod.mk.injEq]
    by_cases hi : slot = i
    · subst hi
      simp [hslot, hout a, eq_comm]
    · rw [if_neg hi, haccounts.slot]
      simp [Ne.symm hi]
  · rw [(hperm.map Prod.fst).nodup_iff, List.map_cons, List.nodup_cons]
    refine ⟨?_, haccounts.handles⟩
    intro hmem
    obtain ⟨cell, hcell, rfl⟩ := List.mem_map.mp hmem
    exact hout cell.2 hcell
  · intro key i
    simp only [List.mem_orderedInsert, Prod.mk.injEq]
    constructor
    · rintro ⟨a, ⟨rfl, rfl⟩ | hmem, rfl⟩
      · exact .inr ⟨rfl, rfl⟩
      · exact .inl ⟨a, hmem, rfl⟩
    · rintro (⟨a, hmem, rfl⟩ | ⟨rfl, rfl⟩)
      · exact ⟨a, .inr hmem, rfl⟩
      · exact ⟨account, .inl ⟨rfl, rfl⟩, rfl⟩
  · rw [← h.accounts_eq]
    exact List.map_orderedInsert _ _ Prod.snd accountCells (slot, account) (fun _ _ ↦ Iff.rfl)
      fun _ _ ↦ Iff.rfl
  · exact ⟨KeyOrder.orderedInsert h.ordered.accounts fun a ha heq ↦ hids a ha heq,
      h.ordered.reservations, h.ordered.watermark⟩

/-- `registerAccount` implements the logical registration. -/
theorem registerAccount (hA : ACCOUNTS * indexPlanes ≤ 2 ^ 32) (h : engine.Represents state)
    (id : AccountId) (limits : RiskLimits) :
    Implements RiskEngine.Represents engine (state.registerAccount ACCOUNTS id limits)
      (engine.registerAccount id limits) := by
  unfold RiskEngine.registerAccount RiskEngineState.registerAccount
  by_cases hinvalid : limits.invalid = true
  · rw [if_pos hinvalid, if_pos hinvalid]
    exact .reject rfl rfl
  rw [if_neg hinvalid, if_neg hinvalid]
  cases haccount : state.account? id with
  | some account =>
    obtain ⟨slot, hslot, _⟩ := h.accountSlot_of_some hA haccount
    rw [hslot]
    exact .reject rfl rfl
  | none =>
    rw [h.accountSlot_of_none hA haccount]
    have hvacant := h.vacantAccount
    cases hfind : engine.accounts.toList.findIdx? Option.isNone with
    | none =>
      rw [hfind] at hvacant
      have hfull : state.accounts.length = ACCOUNTS := hvacant
      simp only [Option.isSome_none, Bool.false_eq_true, if_false, if_pos hfull]
      exact .reject rfl rfl
    | some slot =>
      rw [hfind] at hvacant
      obtain ⟨hslot, hget, hroom⟩ := hvacant
      obtain ⟨flat, index, hinsert, hrep⟩ := (h.addAccount_builds (addressable hA) hslot hget
        ⟨id, limits, Signed.zero 128, 0, 0, 0, false⟩ haccount).resolve_left
          fun ⟨_, _, hlarge⟩ ↦ hlarge.not_ge hA
      simp only [Option.isSome_none, Bool.false_eq_true, if_false, if_neg hroom, hinsert,
        Run.write_of_lt _ _ hslot, Run.ok_bind]
      exact .accept _ rfl rfl hrep

theorem setKillSwitch (h : engine.Represents state) (killed : Bool) :
    (engine.setKillSwitch killed).Represents { state with killed := killed } := by
  obtain ⟨accountCells, cells, free, h⟩ := h
  exact ⟨accountCells, cells, free, h.accounts, h.reservations, h.accounts_eq, h.reservations_eq,
    ⟨h.ordered.accounts, h.ordered.reservations, h.ordered.watermark⟩, h.maximum, rfl⟩

theorem setAccountKillSwitch (hA : ACCOUNTS * indexPlanes ≤ 2 ^ 32) (h : engine.Represents state)
    (accountId : AccountId) (killed : Bool) :
    Implements RiskEngine.Represents engine (state.setAccountKillSwitch accountId killed)
      (engine.setAccountKillSwitch accountId killed) := by
  unfold RiskEngine.setAccountKillSwitch RiskEngineState.setAccountKillSwitch
  cases haccount : state.account? accountId with
  | none =>
    rw [h.resolveAccount_of_none hA haccount]
    exact .reject rfl rfl
  | some account =>
    obtain ⟨slot, hresolve, hslot⟩ := h.resolveAccount_of_some hA haccount
    obtain ⟨accounts, hwrite, hrep⟩ := h.writeAccount hslot
      (by rfl : ({ account with killed := killed } : AccountState).id = account.id)
    simp only [hresolve, Run.ok_bind, hwrite]
    exact .accept _ rfl rfl hrep

/-- Snapshots are those of the logical account. -/
theorem accountSnapshot (hA : ACCOUNTS * indexPlanes ≤ 2 ^ 32) (h : engine.Represents state)
    (id : AccountId) :
    engine.accountSnapshot id = .ok ((state.account? id).bind RiskEngine.projected) := by
  unfold RiskEngine.accountSnapshot
  cases haccount : state.account? id with
  | none =>
    rw [h.accountSlot_of_none hA haccount]
    rfl
  | some account =>
    obtain ⟨slot, hslot, hget⟩ := h.accountSlot_of_some hA haccount
    rw [hslot]
    simp only [Run.read_eq_ok.mpr hget, Run.ok_bind]
    rfl

end RiskEngine.Represents

end DeterministicExchange.Risk
