import DeterministicExchange.Risk.Representation

/-!
# Refinement of the risk engine

Each operation of the engine implements its logical counterpart. Lookups agree,
and every update of the engine is one of four logical updates: an account or a
reservation is overwritten, a reservation is added, or one is dropped.
-/

namespace DeterministicExchange.Risk

open Machine ProbeTable

variable {ACCOUNTS ORDERS : ℕ} {engine : RiskEngine ACCOUNTS ORDERS} {state : RiskEngineState}

namespace RiskEngine.Represents

theorem ordered (h : engine.Represents state) : state.Ordered := by
  obtain ⟨_, _, _, h⟩ := h
  exact h.ordered

/-! ## Lookups -/

theorem accountSlot_of_none (hA : ACCOUNTS * indexPlanes ≤ 2 ^ 32) (h : engine.Represents state)
    {id : AccountId} (hnone : state.account? id = none) : engine.accountSlot id = none := by
  obtain ⟨accountCells, cells, free, h⟩ := h
  obtain ⟨place, haccounts⟩ := h.accounts
  refine haccounts.index.lookup_eq_none (addressable hA) ?_
  rintro slot ⟨account, hcell, hkey⟩
  have hmem : account ∈ state.accounts := h.account_mem.mpr ⟨slot, hcell⟩
  exact RiskEngineState.account?_eq_none.mp hnone account hmem (accountKey_injective hkey)

theorem accountSlot_of_some (hA : ACCOUNTS * indexPlanes ≤ 2 ^ 32) (h : engine.Represents state)
    {id : AccountId} {account : AccountState} (hsome : state.account? id = some account) :
    ∃ slot, engine.accountSlot id = some slot ∧ engine.accounts[slot]? = some (some account) := by
  obtain ⟨accountCells, cells, free, h⟩ := h
  obtain ⟨place, haccounts⟩ := h.accounts
  obtain ⟨hmem, rfl⟩ := h.ordered.account?_eq_some.mp hsome
  obtain ⟨slot, hcell⟩ := h.account_mem.mp hmem
  exact ⟨slot, (haccounts.index.lookup_eq_some (addressable hA)).mpr ⟨account, hcell, rfl⟩,
    (haccounts.slot slot account).mpr hcell⟩

theorem resolveAccount_of_none (hA : ACCOUNTS * indexPlanes ≤ 2 ^ 32) (h : engine.Represents state)
    {id : AccountId} (hnone : state.account? id = none) : engine.resolveAccount id = .ok none := by
  unfold RiskEngine.resolveAccount
  rw [h.accountSlot_of_none hA hnone]

theorem resolveAccount_of_some (hA : ACCOUNTS * indexPlanes ≤ 2 ^ 32) (h : engine.Represents state)
    {id : AccountId} {account : AccountState} (hsome : state.account? id = some account) :
    ∃ slot, engine.resolveAccount id = .ok (some (slot, account)) ∧
      engine.accounts[slot]? = some (some account) := by
  obtain ⟨slot, hslot, hget⟩ := h.accountSlot_of_some hA hsome
  refine ⟨slot, ?_, hget⟩
  unfold RiskEngine.resolveAccount
  rw [hslot]
  simp only [Run.read_eq_ok.mpr hget, Run.ok_bind]
  rfl

theorem liveReservation_of_none (hR : ORDERS * indexPlanes ≤ 2 ^ 32) (h : engine.Represents state)
    {orderId : OrderId} (hnone : state.reservation? orderId = none) :
    engine.liveReservation orderId = none := by
  obtain ⟨accountCells, cells, free, h⟩ := h
  obtain ⟨place, hreservations⟩ := h.reservations
  have hlookup : engine.reservationIndex.lookup orderId = none := by
    refine hreservations.index.lookup_eq_none (addressable hR) ?_
    rintro slot ⟨r, hcell, hkey⟩
    have hmem : r.export ∈ state.reservations := h.reservation_mem.mpr ⟨slot, r, hcell, rfl⟩
    exact RiskEngineState.reservation?_eq_none.mp hnone r.export hmem hkey
  unfold RiskEngine.liveReservation
  rw [hlookup]
  rfl

theorem liveReservation_of_some (hR : ORDERS * indexPlanes ≤ 2 ^ 32) (h : engine.Represents state)
    {orderId : OrderId} {reservation : ReservationRiskState}
    (hsome : state.reservation? orderId = some reservation) :
    ∃ slot r, engine.liveReservation orderId = some (slot, r) ∧ r.export = reservation ∧
      engine.reservations[slot]? = some (.live r) := by
  obtain ⟨accountCells, cells, free, h⟩ := h
  obtain ⟨place, hreservations⟩ := h.reservations
  obtain ⟨hmem, rfl⟩ := h.ordered.reservation?_eq_some.mp hsome
  obtain ⟨slot, r, hcell, rfl⟩ := h.reservation_mem.mp hmem
  have hlookup : engine.reservationIndex.lookup r.orderId = some slot :=
    (hreservations.index.lookup_eq_some (addressable hR)).mpr ⟨r, hcell, rfl⟩
  have hslot := hreservations.slab.slot_eq_live.mpr hcell
  refine ⟨slot, r, ?_, rfl, hslot⟩
  unfold RiskEngine.liveReservation
  show (engine.reservationIndex.lookup r.orderId).bind _ = _
  rw [hlookup, Option.bind_some, hslot]
  simp [Reservation.export]

/-! ## Updates -/

/-- Overwriting an account in its slot. -/
theorem writeAccount (h : engine.Represents state) {slot : ℕ} {account account' : AccountState}
    (hslot : engine.accounts[slot]? = some (some account)) (hid : account'.id = account.id) :
    ∃ accounts, Run.write engine.accounts slot (some account') = .ok accounts ∧
      { engine with accounts := accounts }.Represents (state.putAccount account') := by
  obtain ⟨accountCells, cells, free, h⟩ := h
  obtain ⟨place, haccounts⟩ := h.accounts
  have hcell := (haccounts.slot slot account).mp hslot
  have hlt : slot < ACCOUNTS := by
    by_contra hle
    rw [Vector.getElem?_eq_none (by omega)] at hslot
    simp at hslot
  have hids : (accountCells.map fun cell ↦ cell.2.id).Nodup := by
    have hnodup := h.ordered.ids_nodup
    rw [← h.accounts_eq, List.map_map] at hnodup
    exact hnodup
  have hsame (cell : ℕ × AccountState) (hmem : cell ∈ accountCells) :
      cell.2.id = account'.id ↔ cell.1 = slot := by
    constructor
    · intro heq
      rw [List.inj_on_of_nodup_map hids hmem hcell (heq.trans hid)]
    · intro heq
      rw [List.inj_on_of_nodup_map haccounts.handles hmem hcell heq, hid]
  have hmem (i : ℕ) (a : AccountState) :
      (i, a) ∈ accountCells.map (fun cell ↦ (cell.1, if cell.2.id = account'.id then account' else cell.2)) ↔
        if i = slot then a = account' else (i, a) ∈ accountCells := by
    rw [List.mem_map]
    constructor
    · rintro ⟨⟨j, b⟩, hb, heq⟩
      obtain ⟨rfl, rfl⟩ := Prod.mk.inj heq
      by_cases hj : j = slot
      · rw [if_pos hj, if_pos ((hsame _ hb).mpr hj)]
      · rw [if_neg hj, if_neg (fun h ↦ hj ((hsame _ hb).mp h))]
        exact hb
    · intro hif
      split at hif
      · next heq =>
        subst heq hif
        exact ⟨_, hcell, by rw [if_pos hid.symm]⟩
      · next hne =>
        exact ⟨_, hif, by rw [if_neg (fun h ↦ hne ((hsame _ hif).mp h))]⟩
  refine ⟨_, Run.write_of_lt _ _ hlt, accountCells.map
    (fun cell ↦ (cell.1, if cell.2.id = account'.id then account' else cell.2)), cells, free,
    ⟨place, ?_, ?_, ?_⟩, h.reservations, ?_, h.reservations_eq, h.ordered.putAccount account', h.maximum,
    h.killed⟩
  · intro i a
    rw [hmem, Vector.getElem?_setIfInBounds]
    by_cases hi : slot = i
    · subst hi
      simp [hlt, eq_comm]
    · rw [if_neg hi, if_neg (Ne.symm hi), haccounts.slot]
  · rw [List.map_map]
    exact haccounts.handles
  · refine haccounts.index.congr fun key i ↦ ?_
    simp only [hmem]
    constructor
    · rintro ⟨a, hif, rfl⟩
      split at hif
      · next heq =>
        subst heq hif
        exact ⟨account, hcell, by rw [hid]⟩
      · exact ⟨a, hif, rfl⟩
    · rintro ⟨a, hcell', rfl⟩
      by_cases hi : i = slot
      · refine ⟨account', by rw [if_pos hi], ?_⟩
        rw [(hsame _ hcell').mpr hi]
      · exact ⟨a, by rw [if_neg hi]; exact hcell', rfl⟩
  · unfold RiskEngineState.putAccount
    rw [← h.accounts_eq, List.map_map, List.map_map]
    rfl

/-- Overwriting a reservation in its slot. -/
theorem writeReservation (h : engine.Represents state) {slot : ℕ} {r r' : Reservation}
    (hslot : engine.reservations[slot]? = some (.live r)) (hid : r'.orderId = r.orderId)
    (hindex : r'.indexSlot = r.indexSlot) :
    ∃ reservations, Run.write engine.reservations slot (.live r') = .ok reservations ∧
      { engine with reservations := reservations }.Represents (state.putReservation r'.export) := by
  obtain ⟨accountCells, cells, free, h⟩ := h
  obtain ⟨place, hreservations⟩ := h.reservations
  have hcell := hreservations.slab.slot_eq_live.mp hslot
  have hlt : slot < ORDERS := hreservations.slab.lt_of_mem hcell
  obtain ⟨xs, ys, rfl⟩ := List.append_of_mem hcell
  have hids := h.orderIds_nodup
  rw [List.map_append, List.map_cons] at hids
  have hout := (List.nodup_cons.mp (List.nodup_middle.mp hids)).1
  rw [← List.map_append] at hout
  have hother : ∀ cell ∈ xs ++ ys, cell.2.export.orderId ≠ r'.export.orderId := by
    intro cell hmem heq
    exact hout (List.mem_map.mpr ⟨cell, hmem, heq.trans hid⟩)
  refine ⟨_, Run.write_of_lt _ _ hlt, accountCells, xs ++ (slot, r') :: ys, free, h.accounts,
    ⟨place, hreservations.slab.put r', ?_, ?_⟩, h.accounts_eq, ?_, h.ordered.putReservation r'.export,
    h.maximum, h.killed⟩
  · refine hreservations.index.congr fun key i ↦ ?_
    simp only [List.mem_append, List.mem_cons, Prod.mk.injEq]
    constructor
    · rintro ⟨a, hmem | ⟨rfl, rfl⟩ | hmem, rfl⟩
      · exact ⟨a, .inl hmem, rfl⟩
      · exact ⟨r, .inr (.inl ⟨rfl, rfl⟩), hid.symm⟩
      · exact ⟨a, .inr (.inr hmem), rfl⟩
    · rintro ⟨a, hmem | ⟨rfl, rfl⟩ | hmem, rfl⟩
      · exact ⟨a, .inl hmem, rfl⟩
      · exact ⟨r', .inr (.inl ⟨rfl, rfl⟩), hid⟩
      · exact ⟨a, .inr (.inr hmem), rfl⟩
  · intro cell hmem
    simp only [List.mem_append, List.mem_cons] at hmem
    rcases hmem with hmem | rfl | hmem
    · exact hreservations.placed cell (by simp [hmem])
    · rw [hindex, hid]
      exact hreservations.placed (slot, r) (by simp)
    · exact hreservations.placed cell (by simp [hmem])
  · unfold RiskEngineState.putReservation
    rw [← h.reservations_eq]
    simp only [List.map_append, List.map_cons, List.map_map]
    have hid' : r.export.orderId = r'.export.orderId := hid.symm
    rw [if_pos hid']
    congr 1
    · apply List.map_congr_left
      intro cell hmem
      exact (if_neg (hother cell (List.mem_append_left _ hmem))).symm
    · congr 1
      apply List.map_congr_left
      intro cell hmem
      exact (if_neg (hother cell (List.mem_append_right _ hmem))).symm

/-- The slot and the exported fields of a reservation, without its index handle. -/
def strip (cell : ℕ × Reservation) : ℕ × ReservationRiskState := (cell.1, cell.2.export)

theorem mem_of_strip {cells cells' : List (ℕ × Reservation)} (heq : cells'.map strip = cells.map strip)
    {i : ℕ} {r : Reservation} (hmem : (i, r) ∈ cells) :
    ∃ r', (i, r') ∈ cells' ∧ r'.export = r.export := by
  have hstrip : strip (i, r) ∈ cells'.map strip := by
    rw [heq]
    exact List.mem_map.mpr ⟨_, hmem, rfl⟩
  obtain ⟨⟨j, r'⟩, hmem', heq'⟩ := List.mem_map.mp hstrip
  obtain ⟨rfl, hexport⟩ := Prod.mk.inj heq'
  exact ⟨r', hmem', hexport⟩

theorem orderIds_of_strip {cells cells' : List (ℕ × Reservation)}
    (heq : cells'.map strip = cells.map strip) :
    cells'.map (fun cell ↦ cell.2.orderId) = cells.map fun cell ↦ cell.2.orderId := by
  have hids := congrArg (List.map fun node : ℕ × ReservationRiskState ↦ node.2.orderId) heq
  rw [List.map_map, List.map_map] at hids
  exact hids

/-- A moved index entry rewrites the handle kept in its reservation, and nothing else. -/
theorem updateMoved_spec {reservations : Vector ReservationSlot ORDERS} {freeHead : ℕ}
    {cells cells' : List (ℕ × Reservation)} {free : List ℕ} {place : U64 → ℕ} {orderId key : U64}
    {slot : ℕ} {r : Reservation} (hslab : Slab.Rep reservations freeHead cells' free)
    (hstrip : cells'.map strip = cells.map strip)
    (hids : (cells.map fun cell ↦ cell.2.orderId).Nodup)
    (hplaced : ∀ cell ∈ cells', cell.2.orderId ≠ orderId → cell.2.indexSlot.val = place cell.2.orderId)
    (hcell : (slot, r) ∈ cells) (hkey : r.orderId = key) (newFlat : U32) :
    ∃ reservations', RiskEngine.updateMoved key slot newFlat reservations = (true, reservations') ∧
      ∃ cells'', Slab.Rep reservations' freeHead cells'' free ∧
        cells''.map strip = cells.map strip ∧
        ∀ cell ∈ cells'', cell.2.orderId ≠ orderId →
          cell.2.indexSlot.val = Function.update place key newFlat.val cell.2.orderId := by
  obtain ⟨r', hmem, hexport⟩ := mem_of_strip hstrip hcell
  have hid : r'.orderId = key := by
    rw [← hkey]
    exact congrArg ReservationRiskState.orderId hexport
  have hslot := hslab.slot_eq_live.mpr hmem
  obtain ⟨xs, ys, rfl⟩ := List.append_of_mem hmem
  have hnodup : ((xs ++ (slot, r') :: ys).map fun cell ↦ cell.2.orderId).Nodup := by
    rw [orderIds_of_strip hstrip]
    exact hids
  rw [List.map_append, List.map_cons] at hnodup
  have hout := (List.nodup_cons.mp (List.nodup_middle.mp hnodup)).1
  rw [← List.map_append] at hout
  have hother : ∀ cell ∈ xs ++ ys, cell.2.orderId ≠ orderId →
      cell.2.indexSlot.val = Function.update place key newFlat.val cell.2.orderId := by
    intro cell hcell hne
    have hnotkey : cell.2.orderId ≠ key := by
      intro heq
      exact hout (List.mem_map.mpr ⟨cell, hcell, heq.trans hid.symm⟩)
    rw [Function.update_of_ne hnotkey]
    refine hplaced cell ?_ hne
    simp only [List.mem_append, List.mem_cons] at hcell ⊢
    tauto
  refine ⟨reservations.setIfInBounds slot (.live { r' with indexSlot := newFlat }), ?_,
    xs ++ (slot, { r' with indexSlot := newFlat }) :: ys, hslab.put _, ?_, ?_⟩
  · unfold RiskEngine.updateMoved
    rw [hslot]
    simp [hid]
  · rw [← hstrip]
    simp [strip, Reservation.export]
  · intro cell hcell hne
    simp only [List.mem_append, List.mem_cons] at hcell
    rcases hcell with hcell | rfl | hcell
    · exact hother cell (List.mem_append_left _ hcell) hne
    · rw [hid, Function.update_self]
    · exact hother cell (List.mem_append_right _ hcell) hne

/-- Releasing a live reservation. -/
theorem releaseReservation (hR : ORDERS * indexPlanes ≤ 2 ^ 32) (h : engine.Represents state)
    {slot : ℕ} {r reservation : Reservation} (hslot : engine.reservations[slot]? = some (.live r))
    (hid : reservation.orderId = r.orderId) (hindex : reservation.indexSlot = r.indexSlot) :
    ∃ engine', engine.releaseReservation slot reservation = .ok engine' ∧
      engine'.Represents (state.dropReservation r.orderId) := by
  obtain ⟨accountCells, cells, free, h⟩ := h
  obtain ⟨place, hreservations⟩ := h.reservations
  have hcell := hreservations.slab.slot_eq_live.mp hslot
  have hlt : slot < ORDERS := hreservations.slab.lt_of_mem hcell
  let related (reservations : Vector ReservationSlot ORDERS) (place' : U64 → ℕ) : Prop :=
    ∃ cells', Slab.Rep reservations engine.reservationFreeHead cells' free ∧
      cells'.map strip = cells.map strip ∧
      ∀ cell ∈ cells', cell.2.orderId ≠ r.orderId → cell.2.indexSlot.val = place' cell.2.orderId
  have hstart : related engine.reservations place :=
    ⟨cells, hreservations.slab, rfl, fun cell hmem _ ↦ hreservations.placed cell hmem⟩
  have hmoved : ∀ reservations place' key' slot' newFlat, key' ≠ r.orderId →
      (∃ r', (slot', r') ∈ cells ∧ r'.orderId = key') → related reservations place' →
      ∃ reservations', RiskEngine.updateMoved key' slot' newFlat reservations = (true, reservations') ∧
        related reservations' (Function.update place' key' newFlat.val) := by
    rintro reservations place' key' slot' newFlat _ ⟨r', hmem, hkey⟩ ⟨cells', hslab, hstrip, hplaced⟩
    exact updateMoved_spec hslab hstrip h.orderIds_nodup hplaced hmem hkey newFlat
  obtain ⟨index', reservations', place', hremove, hindexRep, cells', hslab, hstrip, hplaced⟩ :=
    hreservations.index.removeAt hR ⟨r, hcell, rfl⟩ (hreservations.placed _ hcell) related hmoved hstart
  obtain ⟨r', hmem', hexport⟩ := mem_of_strip hstrip hcell
  obtain ⟨xs, ys, rfl⟩ := List.append_of_mem hmem'
  have hid' : r'.orderId = r.orderId := congrArg ReservationRiskState.orderId hexport
  have hnodup : ((xs ++ (slot, r') :: ys).map fun cell ↦ cell.2.orderId).Nodup := by
    rw [orderIds_of_strip hstrip]
    exact h.orderIds_nodup
  rw [List.map_append, List.map_cons] at hnodup
  have hout := (List.nodup_cons.mp (List.nodup_middle.mp hnodup)).1
  rw [← List.map_append] at hout
  have hne : ∀ cell ∈ xs ++ ys, cell.2.orderId ≠ r.orderId := by
    intro cell hmem heq
    exact hout (List.mem_map.mpr ⟨cell, hmem, heq.trans hid'.symm⟩)
  have hexports : (xs ++ (slot, r') :: ys).map (fun cell ↦ cell.2.export) = state.reservations := by
    have heq := congrArg (List.map Prod.snd) hstrip
    rw [List.map_map, List.map_map] at heq
    exact heq.trans h.reservations_eq
  refine ⟨{ engine with
      reservationIndex := index'
      reservations := reservations'.setIfInBounds slot (.free engine.reservationFreeHead)
      reservationFreeHead := slot }, ?_, accountCells, xs ++ ys, slot :: free, h.accounts,
    ⟨place', hslab.release, ?_, ?_⟩, h.accounts_eq, ?_, h.ordered.dropReservation r.orderId, h.maximum,
    h.killed⟩
  · unfold RiskEngine.releaseReservation
    rw [hid, hindex, hremove]
    simp only [Run.ok_bind, decide_true, Run.debugAssert_true, Run.write_of_lt _ _ hlt]
    rfl
  · refine hindexRep.congr fun key i ↦ ?_
    constructor
    · rintro ⟨a, hmem, rfl⟩
      have hall : (i, a) ∈ xs ++ (slot, r') :: ys := by
        simp only [List.mem_append, List.mem_cons] at hmem ⊢
        tauto
      obtain ⟨b, hb, hbexport⟩ := mem_of_strip hstrip.symm hall
      exact ⟨⟨b, hb, congrArg ReservationRiskState.orderId hbexport⟩, hne _ hmem⟩
    · rintro ⟨⟨a, hmem, rfl⟩, hkey⟩
      obtain ⟨b, hb, hbexport⟩ := mem_of_strip hstrip hmem
      have hbid : b.orderId = a.orderId := congrArg ReservationRiskState.orderId hbexport
      refine ⟨b, ?_, hbid⟩
      simp only [List.mem_append, List.mem_cons, Prod.mk.injEq] at hb ⊢
      rcases hb with hb | ⟨_, rfl⟩ | hb
      · exact .inl hb
      · exact absurd (hbid.symm.trans hid') hkey
      · exact .inr hb
  · intro cell hmem
    refine hplaced cell ?_ (hne cell hmem)
    simp only [List.mem_append, List.mem_cons] at hmem ⊢
    tauto
  · unfold RiskEngineState.dropReservation
    rw [← hexports]
    simp only [List.map_append, List.map_cons, List.filter_append, List.filter_cons]
    have hdropped : decide (r'.export.orderId ≠ r.orderId) = false := by
      simp only [decide_eq_false_iff_not, not_not]
      exact hid'
    rw [hdropped, if_neg (by simp)]
    have hkeep (zs : List (ℕ × Reservation)) (hzs : ∀ cell ∈ zs, cell.2.orderId ≠ r.orderId) :
        (zs.map fun cell ↦ cell.2.export).filter (fun r' ↦ r'.orderId ≠ r.orderId) =
          zs.map fun cell ↦ cell.2.export := by
      rw [List.filter_eq_self]
      intro a ha
      obtain ⟨cell, hmem, rfl⟩ := List.mem_map.mp ha
      exact decide_eq_true (hzs cell hmem)
    rw [hkeep xs fun cell hmem ↦ hne cell (List.mem_append_left _ hmem),
      hkeep ys fun cell hmem ↦ hne cell (List.mem_append_right _ hmem)]

/-- Taking the head of the free list for a new reservation. -/
theorem reserve (hR : ORDERS * indexPlanes ≤ 2 ^ 32) (h : engine.Represents state)
    (hroom : engine.reservationFreeHead ≠ Slab.nil) {orderId : OrderId}
    (hnew : ∀ maximum ∈ state.maximumOrderId, maximum < orderId) :
    ∃ nextFree indexSlot index, engine.reservations[engine.reservationFreeHead]? = some (.free nextFree) ∧
      engine.reservationIndex.insert orderId engine.reservationFreeHead = .ok (indexSlot, index) ∧
      ∀ accountId side quantity, ∃ reservations, Run.write engine.reservations engine.reservationFreeHead
          (.live ⟨orderId, accountId, indexSlot, side, quantity⟩) = .ok reservations ∧
        { engine with
          reservations := reservations
          reservationFreeHead := nextFree
          reservationIndex := index
          maximumOrderId := some orderId }.Represents
        (state.addReservation ⟨orderId, accountId, side, quantity⟩) := by
  obtain ⟨accountCells, cells, free, h⟩ := h
  obtain ⟨place, hreservations⟩ := h.reservations
  have hn : ORDERS ≤ Slab.nil := by
    have hle : ORDERS ≤ 2 ^ 32 := (Nat.le_mul_of_pos_right ORDERS (by decide)).trans hR
    unfold Slab.nil
    omega
  cases free with
  | nil => exact absurd ((hreservations.slab.freeSeg.head_eq_nil hn).mpr rfl) hroom
  | cons i free =>
    obtain ⟨nextFree, rfl, hslot, htake⟩ := hreservations.slab.take
    have hlt : engine.reservationFreeHead < ORDERS := hreservations.slab.free_lt (List.mem_cons_self ..)
    have hbelow : ∀ cell ∈ cells, cell.2.orderId < orderId := by
      intro cell hmem
      have hmem' : cell.2.export ∈ state.reservations := h.reservation_mem.mpr ⟨cell.1, cell.2, hmem, rfl⟩
      obtain ⟨maximum, hmaximum, hle⟩ := h.ordered.watermark _ hmem'
      exact lt_of_le_of_lt hle (hnew maximum hmaximum)
    have habsent : ∀ slot, ¬ ∃ r, (slot, r) ∈ cells ∧ r.orderId = orderId := by
      rintro slot ⟨r, hmem, heq⟩
      exact (hbelow _ hmem).ne heq
    have hfresh : ∀ key, ¬ ∃ r, (engine.reservationFreeHead, r) ∈ cells ∧ r.orderId = key := by
      rintro key ⟨r, hmem, _⟩
      have hlive := hreservations.slab.slot_eq_live.mpr hmem
      rw [hslot] at hlive
      simp at hlive
    obtain ⟨indexSlot, index', hinsert, hindexRep⟩ := hreservations.index.insert hR hlt habsent hfresh
    refine ⟨nextFree, indexSlot, index', hslot, hinsert, fun accountId side quantity ↦
      ⟨_, Run.write_of_lt _ _ hlt, accountCells, _, free, h.accounts,
        ⟨_, htake ⟨orderId, accountId, indexSlot, side, quantity⟩,
          hindexRep.congr fun key slot ↦ ?_, ?_⟩, h.accounts_eq, ?_, ?_, rfl, h.killed⟩⟩
    · simp only [List.mem_append, List.mem_singleton, Prod.mk.injEq]
      constructor
      · rintro ⟨a, hmem | ⟨rfl, rfl⟩, rfl⟩
        · exact .inl ⟨a, hmem, rfl⟩
        · exact .inr ⟨rfl, rfl⟩
      · rintro (⟨a, hmem, rfl⟩ | ⟨rfl, rfl⟩)
        · exact ⟨a, .inl hmem, rfl⟩
        · exact ⟨_, .inr ⟨rfl, rfl⟩, rfl⟩
    · intro cell hmem
      rcases List.mem_append.mp hmem with hmem | hmem
      · rw [Function.update_of_ne (hbelow cell hmem).ne]
        exact hreservations.placed cell hmem
      · rw [List.mem_singleton.mp hmem, Function.update_self]
    · rw [List.map_append, h.reservations_eq]
      rfl
    · exact h.ordered.addReservation hnew

theorem freeHead_eq_nil (hR : ORDERS * indexPlanes ≤ 2 ^ 32) (h : engine.Represents state) :
    engine.reservationFreeHead = Slab.nil ↔ state.reservations.length = ORDERS := by
  obtain ⟨accountCells, cells, free, h⟩ := h
  obtain ⟨place, hreservations⟩ := h.reservations
  have hn : ORDERS ≤ Slab.nil := by
    have hle : ORDERS ≤ 2 ^ 32 := (Nat.le_mul_of_pos_right ORDERS (by decide)).trans hR
    unfold Slab.nil
    omega
  rw [hreservations.slab.freeHead_eq_nil hn, ← h.reservations_eq, List.length_map]

theorem length_le (h : engine.Represents state) :
    state.accounts.length ≤ ACCOUNTS ∧ state.reservations.length ≤ ORDERS := by
  obtain ⟨accountCells, cells, free, h⟩ := h
  obtain ⟨place, hreservations⟩ := h.reservations
  obtain ⟨place', haccounts⟩ := h.accounts
  constructor
  · rw [← h.accounts_eq, List.length_map]
    have hsub : (accountCells.map Prod.fst).Subperm (List.range ACCOUNTS) := by
      refine List.subperm_of_subset haccounts.handles ?_
      intro i hi
      obtain ⟨cell, hmem, rfl⟩ := List.mem_map.mp hi
      have hslot := (haccounts.slot cell.1 cell.2).mpr hmem
      rw [List.mem_range]
      by_contra hle
      rw [Vector.getElem?_eq_none (by omega)] at hslot
      simp at hslot
    simpa using hsub.length_le
  · have hlen := hreservations.slab.length_add
    rw [← h.reservations_eq, List.length_map]
    omega

/-! ## Operations -/

/-- `checkAndReserve` implements the logical reservation. -/
theorem checkAndReserve (hA : ACCOUNTS * indexPlanes ≤ 2 ^ 32) (hR : ORDERS * indexPlanes ≤ 2 ^ 32)
    (h : engine.Represents state) (order : NewOrder) :
    Implements RiskEngine.Represents engine (state.checkAndReserve ORDERS order)
      (engine.checkAndReserve order) := by
  have hmaximum : engine.maximumOrderId = state.maximumOrderId := by
    obtain ⟨_, _, _, h⟩ := h
    exact h.maximum
  have hkilled : engine.killed = state.killed := by
    obtain ⟨_, _, _, h⟩ := h
    exact h.killed
  unfold RiskEngine.checkAndReserve RiskEngineState.checkAndReserve
  rw [← hkilled, ← hmaximum]
  by_cases hkill : engine.killed = true
  · rw [if_pos hkill, if_pos hkill]
    exact .reject rfl rfl
  rw [if_neg hkill, if_neg hkill]
  by_cases hquantity : order.quantity.val = 0
  · rw [if_pos hquantity, if_pos hquantity]
    exact .reject rfl rfl
  rw [if_neg hquantity, if_neg hquantity]
  by_cases hduplicate : (engine.maximumOrderId.any fun maximum ↦ order.orderId ≤ maximum) = true
  · rw [if_pos hduplicate, if_pos hduplicate]
    exact .reject rfl rfl
  rw [if_neg hduplicate, if_neg hduplicate]
  by_cases hfull : engine.reservationFreeHead = Slab.nil
  · rw [if_pos hfull, if_pos ((h.freeHead_eq_nil hR).mp hfull)]
    exact .reject rfl rfl
  rw [if_neg hfull, if_neg fun heq ↦ hfull ((h.freeHead_eq_nil hR).mpr heq)]
  cases haccount : state.account? order.accountId with
  | none =>
    rw [h.resolveAccount_of_none hA haccount]
    exact .reject rfl rfl
  | some account =>
    obtain ⟨slot, hresolve, hslot⟩ := h.resolveAccount_of_some hA haccount
    simp only [hresolve, Run.ok_bind]
    cases hlimits : evaluateLimits account order with
    | error reason => exact .reject rfl rfl
    | ok totals =>
      obtain ⟨reservedBuys, reservedSells, openOrders⟩ := totals
      obtain ⟨accounts, hwrite, hrep⟩ := h.writeAccount hslot
        (by rfl : ({ account with
          reservedBuys := reservedBuys
          reservedSells := reservedSells
          openOrders := openOrders } : AccountState).id = account.id)
      have hnew : ∀ maximum ∈ state.maximumOrderId, maximum < order.orderId := by
        intro maximum hmem
        rw [hmaximum, Option.mem_def.mp hmem] at hduplicate
        simpa using hduplicate
      obtain ⟨nextFree, indexSlot, index, hfree, hinsert, hreserve⟩ := hrep.reserve hR hfull hnew
      obtain ⟨reservations, hwrite', hrep'⟩ := hreserve order.accountId order.side order.quantity
      have hfree' : engine.reservations[engine.reservationFreeHead]? = some (.free nextFree) := hfree
      have hinsert' : engine.reservationIndex.insert order.orderId engine.reservationFreeHead =
          .ok (indexSlot, index) := hinsert
      have hwrite'' : Run.write engine.reservations engine.reservationFreeHead _ = .ok reservations :=
        hwrite'
      simp only [hfree', hinsert', hwrite, hwrite'', Run.ok_bind]
      exact .accept _ rfl rfl hrep'

/-- Settling a located reservation. -/
theorem settleReservation (hA : ACCOUNTS * indexPlanes ≤ 2 ^ 32) (hR : ORDERS * indexPlanes ≤ 2 ^ 32)
    (h : engine.Represents state) {slot : ℕ} {r : Reservation}
    (hslot : engine.reservations[slot]? = some (.live r)) (filledQuantity : Quantity) :
    Implements RiskEngine.Represents engine (state.settleReservation r.export filledQuantity)
      (engine.settleReservation slot r filledQuantity) := by
  unfold RiskEngine.settleReservation RiskEngineState.settleReservation
  have hexport : r.export.accountId = r.accountId := rfl
  rw [hexport]
  cases haccount : state.account? r.accountId with
  | none =>
    rw [h.resolveAccount_of_none hA haccount]
    exact .reject rfl rfl
  | some account =>
    obtain ⟨accountSlot, hresolve, haccountSlot⟩ := h.resolveAccount_of_some hA haccount
    have hfields : exposureAfterFill account r.export.side filledQuantity r.export.quantity =
        exposureAfterFill account r.side filledQuantity r.quantity := rfl
    simp only [hresolve, Run.ok_bind, hfields]
    cases exposureAfterFill account r.side filledQuantity r.quantity with
    | error reason => exact .reject rfl rfl
    | ok totals =>
      obtain ⟨settledPosition, reservedBuys, reservedSells⟩ := totals
      cases Unsigned.checkedSub account.openOrders 1 with
      | none => exact .reject rfl rfl
      | some openOrders =>
        obtain ⟨accounts, hwrite, hrep⟩ := h.writeAccount haccountSlot
          (by rfl : ({ account with
            settledPosition := settledPosition
            reservedBuys := reservedBuys
            reservedSells := reservedSells
            openOrders := openOrders } : AccountState).id = account.id)
        obtain ⟨engine', hrelease, hrep'⟩ := hrep.releaseReservation hR hslot rfl rfl
        simp only [hwrite, Run.ok_bind, hrelease]
        exact .accept engine' rfl rfl hrep'

/-- `settle` implements the logical settlement. -/
theorem settle (hA : ACCOUNTS * indexPlanes ≤ 2 ^ 32) (hR : ORDERS * indexPlanes ≤ 2 ^ 32)
    (h : engine.Represents state) (orderId : OrderId) (filledQuantity : Quantity) :
    Implements RiskEngine.Represents engine (state.settle orderId filledQuantity)
      (engine.settle orderId filledQuantity) := by
  unfold RiskEngine.settle RiskEngineState.settle
  cases hreservation : state.reservation? orderId with
  | none =>
    rw [h.liveReservation_of_none hR hreservation]
    exact .reject rfl rfl
  | some reservation =>
    obtain ⟨slot, r, hlive, rfl, hslot⟩ := h.liveReservation_of_some hR hreservation
    have hquantity : r.export.quantity = r.quantity := rfl
    simp only [hlive, hquantity]
    by_cases hexceeds : r.quantity.val < filledQuantity.val
    · rw [if_pos hexceeds, if_pos hexceeds]
      exact .reject rfl rfl
    · rw [if_neg hexceeds, if_neg hexceeds]
      exact h.settleReservation hA hR hslot filledQuantity

/-- `recordFill` implements the logical fill. -/
theorem recordFill (hA : ACCOUNTS * indexPlanes ≤ 2 ^ 32) (hR : ORDERS * indexPlanes ≤ 2 ^ 32)
    (h : engine.Represents state) (orderId : OrderId) (filledQuantity : Quantity) :
    Implements RiskEngine.Represents engine (state.recordFill orderId filledQuantity)
      (engine.recordFill orderId filledQuantity) := by
  unfold RiskEngine.recordFill RiskEngineState.recordFill
  by_cases hzero : filledQuantity.val = 0
  · rw [if_pos hzero, if_pos hzero]
    exact .reject rfl rfl
  rw [if_neg hzero, if_neg hzero]
  cases hreservation : state.reservation? orderId with
  | none =>
    rw [h.liveReservation_of_none hR hreservation]
    exact .reject rfl rfl
  | some reservation =>
    obtain ⟨slot, r, hlive, rfl, hslot⟩ := h.liveReservation_of_some hR hreservation
    have horderId : r.orderId = orderId := (h.ordered.reservation?_eq_some.mp hreservation).2
    have hquantity : r.export.quantity = r.quantity := rfl
    have haccountId : r.export.accountId = r.accountId := rfl
    simp only [hlive, hquantity]
    cases Unsigned.checkedSub r.quantity filledQuantity with
    | none => exact .reject rfl rfl
    | some quantity =>
      simp only [haccountId]
      cases haccount : state.account? r.accountId with
      | none =>
        rw [h.resolveAccount_of_none hA haccount]
        exact .reject rfl rfl
      | some account =>
        obtain ⟨accountSlot, hresolve, haccountSlot⟩ := h.resolveAccount_of_some hA haccount
        have hfields : exposureAfterFill account r.export.side filledQuantity filledQuantity =
            exposureAfterFill account r.side filledQuantity filledQuantity := rfl
        simp only [hresolve, Run.ok_bind, hfields]
        cases exposureAfterFill account r.side filledQuantity filledQuantity with
        | error reason => exact .reject rfl rfl
        | ok totals =>
          obtain ⟨settledPosition, reservedBuys, reservedSells⟩ := totals
          simp only
          cases (if quantity.val = 0 then Unsigned.checkedSub account.openOrders 1
              else some account.openOrders) with
          | none => exact .reject rfl rfl
          | some openOrders =>
            obtain ⟨accounts, hwrite, hrep⟩ := h.writeAccount haccountSlot
              (by rfl : ({ account with
                settledPosition := settledPosition
                reservedBuys := reservedBuys
                reservedSells := reservedSells
                openOrders := openOrders } : AccountState).id = account.id)
            simp only [hwrite, Run.ok_bind]
            by_cases hclosed : quantity.val = 0
            · obtain ⟨engine', hrelease, hrep'⟩ := hrep.releaseReservation hR hslot
                (by rfl : ({ r with quantity := quantity } : Reservation).orderId = r.orderId) rfl
              rw [horderId] at hrep'
              simp only [if_pos hclosed, hrelease, Run.ok_bind]
              exact .accept engine' rfl rfl hrep'
            · obtain ⟨reservations, hwrite', hrep'⟩ := hrep.writeReservation hslot
                (by rfl : ({ r with quantity := quantity } : Reservation).orderId = r.orderId) rfl
              have hwrite'' : Run.write engine.reservations slot
                  (.live { r with quantity := quantity }) = .ok reservations := hwrite'
              simp only [if_neg hclosed, hwrite'', Run.ok_bind]
              exact .accept _ rfl rfl hrep'

/-- Storing new totals and a new reservation quantity. -/
theorem storeAmended (h : engine.Represents state) {accountSlot slot : ℕ} {account : AccountState}
    {r : Reservation} (haccountSlot : engine.accounts[accountSlot]? = some (some account))
    (hslot : engine.reservations[slot]? = some (.live r)) (totals : U128 × U128) (quantity : Quantity) :
    ∃ engine', engine.storeAmended accountSlot slot
        { account with reservedBuys := totals.1, reservedSells := totals.2 }
        { r with quantity := quantity } = .ok engine' ∧
      engine'.Represents (state.amend account totals r.export quantity) := by
  obtain ⟨accounts, hwrite, hrep⟩ := h.writeAccount haccountSlot
    (by rfl : ({ account with reservedBuys := totals.1, reservedSells := totals.2 } : AccountState).id =
      account.id)
  obtain ⟨reservations, hwrite', hrep'⟩ := hrep.writeReservation hslot
    (by rfl : ({ r with quantity := quantity } : Reservation).orderId = r.orderId) rfl
  have hwrite'' : Run.write engine.reservations slot (.live { r with quantity := quantity }) =
      .ok reservations := hwrite'
  refine ⟨_, ?_, hrep'⟩
  unfold RiskEngine.storeAmended
  simp only [hwrite, hwrite'', Run.ok_bind]
  rfl

/-- `adjustReservation` implements the logical amendment. -/
theorem adjustReservation (hA : ACCOUNTS * indexPlanes ≤ 2 ^ 32) (hR : ORDERS * indexPlanes ≤ 2 ^ 32)
    (h : engine.Represents state) (orderId : OrderId) (accountId : AccountId) (price : PriceTicks)
    (newQuantity : Quantity) :
    Implements RiskEngine.Represents engine
      (state.adjustReservation orderId accountId price newQuantity)
      (engine.adjustReservation orderId accountId price newQuantity) := by
  unfold RiskEngine.adjustReservation RiskEngineState.adjustReservation
  cases hreservation : state.reservation? orderId with
  | none =>
    rw [h.liveReservation_of_none hR hreservation]
    exact .reject rfl rfl
  | some reservation =>
    obtain ⟨slot, r, hlive, rfl, hslot⟩ := h.liveReservation_of_some hR hreservation
    have hquantity : r.export.quantity = r.quantity := rfl
    have haccountId : r.export.accountId = r.accountId := rfl
    have hside : r.export.side = r.side := rfl
    simp only [hlive, hquantity, haccountId, hside]
    by_cases howner : r.accountId ≠ accountId
    · rw [if_pos howner, if_pos howner]
      exact .reject rfl rfl
    rw [if_neg howner, if_neg howner]
    by_cases hsame : newQuantity = r.quantity
    · rw [if_pos hsame, if_pos hsame]
      exact .accept engine rfl rfl h
    rw [if_neg hsame, if_neg hsame]
    cases haccount : state.account? accountId with
    | none =>
      rw [h.resolveAccount_of_none hA haccount]
      exact .reject rfl rfl
    | some account =>
      obtain ⟨accountSlot, hresolve, haccountSlot⟩ := h.resolveAccount_of_some hA haccount
      simp only [hresolve, Run.ok_bind]
      by_cases hincrease : r.quantity.val < newQuantity.val
      · rw [if_pos hincrease, if_pos hincrease, Run.subWord_of_le hincrease.le]
        simp only [Run.ok_bind]
        cases evaluateIncrease account r.side price (Unsigned.monus newQuantity r.quantity) newQuantity with
        | error reason => exact .reject rfl rfl
        | ok totals =>
          obtain ⟨engine', hstore, hrep⟩ := h.storeAmended haccountSlot hslot totals newQuantity
          simp only [hstore, Run.ok_bind]
          exact .accept engine' rfl rfl hrep
      · rw [if_neg hincrease, if_neg hincrease, Run.subWord_of_le (Nat.le_of_not_lt hincrease)]
        simp only [Run.ok_bind]
        cases subReserved account r.side (Unsigned.monus r.quantity newQuantity) with
        | error reason => exact .reject rfl rfl
        | ok totals =>
          obtain ⟨engine', hstore, hrep⟩ := h.storeAmended haccountSlot hslot totals newQuantity
          simp only [hstore, Run.ok_bind]
          exact .accept engine' rfl rfl hrep

theorem restoredTotals_eq (account : AccountState) (side : Side) (current prior : Quantity) :
    RiskEngine.restoredTotals account side current prior =
      .ok (RiskEngineState.restoredTotals account side current prior) := by
  unfold RiskEngine.restoredTotals RiskEngineState.restoredTotals
  by_cases hlt : current.val < prior.val
  · rw [if_pos hlt, if_pos hlt, Run.subWord_of_le hlt.le]
    rfl
  · rw [if_neg hlt, if_neg hlt, Run.subWord_of_le (Nat.le_of_not_lt hlt)]
    rfl

/-- `restoreReservation` implements the logical rollback. -/
theorem restoreReservation (hA : ACCOUNTS * indexPlanes ≤ 2 ^ 32) (hR : ORDERS * indexPlanes ≤ 2 ^ 32)
    (h : engine.Represents state) (orderId : OrderId) (accountId : AccountId)
    (priorQuantity : Quantity) :
    Implements RiskEngine.Represents engine (state.restoreReservation orderId accountId priorQuantity)
      (engine.restoreReservation orderId accountId priorQuantity) := by
  unfold RiskEngine.restoreReservation RiskEngineState.restoreReservation
  cases hreservation : state.reservation? orderId with
  | none =>
    rw [h.liveReservation_of_none hR hreservation]
    exact .reject rfl rfl
  | some reservation =>
    obtain ⟨slot, r, hlive, rfl, hslot⟩ := h.liveReservation_of_some hR hreservation
    have hquantity : r.export.quantity = r.quantity := rfl
    have haccountId : r.export.accountId = r.accountId := rfl
    have hside : r.export.side = r.side := rfl
    simp only [hlive, hquantity, haccountId, hside]
    by_cases howner : r.accountId ≠ accountId
    · rw [if_pos howner, if_pos howner]
      exact .reject rfl rfl
    rw [if_neg howner, if_neg howner]
    by_cases hsame : r.quantity = priorQuantity
    · rw [if_pos hsame, if_pos hsame]
      exact .accept engine rfl rfl h
    rw [if_neg hsame, if_neg hsame]
    cases haccount : state.account? accountId with
    | none =>
      rw [h.resolveAccount_of_none hA haccount]
      exact .reject rfl rfl
    | some account =>
      obtain ⟨accountSlot, hresolve, haccountSlot⟩ := h.resolveAccount_of_some hA haccount
      simp only [hresolve, Run.ok_bind, restoredTotals_eq]
      cases RiskEngineState.restoredTotals account r.side r.quantity priorQuantity with
      | error reason => exact .reject rfl rfl
      | ok totals =>
        obtain ⟨engine', hstore, hrep⟩ := h.storeAmended haccountSlot hslot totals priorQuantity
        simp only [hstore, Run.ok_bind]
        exact .accept engine' rfl rfl hrep

theorem canCancel (hR : ORDERS * indexPlanes ≤ 2 ^ 32) (h : engine.Represents state)
    (orderId : OrderId) (accountId : AccountId) :
    engine.canCancel orderId accountId = state.canCancel orderId accountId := by
  unfold RiskEngine.canCancel RiskEngineState.canCancel
  cases hreservation : state.reservation? orderId with
  | none => rw [h.liveReservation_of_none hR hreservation]
  | some reservation =>
    obtain ⟨slot, r, hlive, rfl, hslot⟩ := h.liveReservation_of_some hR hreservation
    rw [hlive]
    rfl

/-- `cancelReservation` implements the logical release. -/
theorem cancelReservation (hA : ACCOUNTS * indexPlanes ≤ 2 ^ 32) (hR : ORDERS * indexPlanes ≤ 2 ^ 32)
    (h : engine.Represents state) (orderId : OrderId) (accountId : AccountId) :
    Implements RiskEngine.Represents engine (state.cancelReservation orderId accountId)
      (engine.cancelReservation orderId accountId) := by
  unfold RiskEngine.cancelReservation RiskEngineState.cancelReservation
  cases hreservation : state.reservation? orderId with
  | none =>
    rw [h.liveReservation_of_none hR hreservation]
    exact .reject rfl rfl
  | some reservation =>
    obtain ⟨slot, r, hlive, rfl, hslot⟩ := h.liveReservation_of_some hR hreservation
    have haccountId : r.export.accountId = r.accountId := rfl
    simp only [hlive, haccountId]
    by_cases howner : r.accountId ≠ accountId
    · rw [if_pos howner, if_pos howner]
      exact .reject rfl rfl
    rw [if_neg howner, if_neg howner]
    have himp := h.settleReservation hA hR hslot 0
    cases hsettle : state.settleReservation r.export 0 with
    | error reason =>
      rw [himp.of_error hsettle]
      exact .reject rfl rfl
    | ok outcome =>
      obtain ⟨engine', hrun, hrep⟩ := himp.of_ok hsettle
      rw [hrun]
      exact .accept engine' rfl rfl hrep

end RiskEngine.Represents

end DeterministicExchange.Risk
