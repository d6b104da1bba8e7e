import DeterministicExchange.Codec.Digest
import DeterministicExchange.Risk.Invariant

/-!
# Digest of a risk engine

`stableDigest` walks the account slots and the reservation slots from the first to the
last, while an export orders both by id. Two engines with the same exported state mix the
same words exactly when their slots hold the ids in the same order. A rebuilt engine
holds them in ascending order.
-/

namespace DeterministicExchange.Risk

open Machine Codec

variable {ACCOUNTS ORDERS : ℕ}

/-- `u64::from` of a flag. -/
def flagWord (flag : Bool) : U64 := if flag then wrapping 1 else wrapping 0

namespace RiskEngine

def digestExposure (digest : U64) (exposure : U128) : U64 :=
  mix (mix digest (beHigh (encodeUnsigned exposure))) (beLow (encodeUnsigned exposure))

def digestAccount (digest : U64) (account : AccountState) : U64 :=
  let position := encodeSigned account.settledPosition
  let digest := mix digest (accountKey account.id)
  let digest := mix digest (beHigh position)
  let digest := digestExposure digest account.reservedBuys
  let digest := digestExposure digest account.reservedSells
  let digest := mix digest (beLow position)
  let digest := mix digest (wrapping account.openOrders.val)
  mix digest (flagWord account.killed)

def digestReservation (digest : U64) (reservation : Reservation) : U64 :=
  mix (mix digest reservation.orderId) reservation.quantity

def stableDigest (engine : RiskEngine ACCOUNTS ORDERS) : U64 :=
  let digest := mix digestBasis (flagWord engine.killed)
  let digest := mix digest (engine.maximumOrderId.getD (wrapping 0))
  let digest := (engine.accounts.toList.filterMap id).foldl digestAccount digest
  (engine.reservations.toList.filterMap Slab.Cell.value?).foldl digestReservation digest

end RiskEngine

/-! ## The mixed words -/

def AccountRiskState.words (account : AccountRiskState) : List U64 :=
  [accountKey account.id, beHigh (encodeSigned account.settledPosition),
    beHigh (encodeUnsigned account.reservedBuys), beLow (encodeUnsigned account.reservedBuys),
    beHigh (encodeUnsigned account.reservedSells), beLow (encodeUnsigned account.reservedSells),
    beLow (encodeSigned account.settledPosition), wrapping account.openOrders.val,
    flagWord account.killed]

def ReservationRiskState.words (reservation : ReservationRiskState) : List U64 :=
  [reservation.orderId, reservation.quantity]

namespace RiskEngine

/-- The words that a digest of the engine mixes, in turn. -/
def digestWords (engine : RiskEngine ACCOUNTS ORDERS) : List U64 :=
  [flagWord engine.killed, engine.maximumOrderId.getD (wrapping 0)] ++
    (engine.registered.flatMap AccountRiskState.words ++
      engine.liveReservations.flatMap ReservationRiskState.words)

theorem stableDigest_eq (engine : RiskEngine ACCOUNTS ORDERS) :
    engine.stableDigest = digestOf engine.digestWords := by
  unfold digestOf digestWords stableDigest liveReservations registered
  rw [List.foldl_append, List.foldl_append, foldl_mix_flatMap, foldl_mix_flatMap, List.foldl_map]
  rfl

/-- The ids of the accounts, in the order of their slots. -/
def registeredIds (engine : RiskEngine ACCOUNTS ORDERS) : List AccountId :=
  engine.registered.map AccountRiskState.id

/-- The ids of the live reservations, in the order of their slots. -/
def liveIds (engine : RiskEngine ACCOUNTS ORDERS) : List OrderId :=
  engine.liveReservations.map ReservationRiskState.orderId

/-- The slots of two engines hold the ids in the same order. -/
def SameSlotOrder (engine engine' : RiskEngine ACCOUNTS ORDERS) : Prop :=
  engine.registeredIds = engine'.registeredIds ∧ engine.liveIds = engine'.liveIds

/-- The slots hold the ids in ascending order. -/
def SlotsAscending (engine : RiskEngine ACCOUNTS ORDERS) : Prop :=
  engine.registeredIds.Pairwise (· < ·) ∧ engine.liveIds.Pairwise (· < ·)

variable {engine engine' : RiskEngine ACCOUNTS ORDERS} {state : RiskEngineState}

theorem SameSlotOrder.ascending (h : engine.SameSlotOrder engine') (hascending : engine.SlotsAscending) :
    engine'.SlotsAscending := by
  unfold SlotsAscending
  rw [← h.1, ← h.2]
  exact hascending

namespace Represents

theorem registeredIds_nodup (h : engine.Represents state) : engine.registeredIds.Nodup := by
  have hperm := h.registered_perm.map AccountRiskState.id
  obtain ⟨_, _, _, hrep⟩ := h
  exact hperm.nodup_iff.mpr hrep.ordered.ids_nodup

theorem liveIds_nodup (h : engine.Represents state) : engine.liveIds.Nodup := by
  have hperm := h.liveReservations_perm.map ReservationRiskState.orderId
  obtain ⟨_, _, _, hrep⟩ := h
  exact hperm.nodup_iff.mpr hrep.ordered.orderIds_nodup

theorem flags_eq (h : engine.Represents state) (h' : engine'.Represents state) :
    engine.killed = engine'.killed ∧ engine.maximumOrderId = engine'.maximumOrderId := by
  obtain ⟨_, _, _, hrep⟩ := h
  obtain ⟨_, _, _, hrep'⟩ := h'
  exact ⟨hrep.killed.trans hrep'.killed.symm, hrep.maximum.trans hrep'.maximum.symm⟩

/-- Engines with the same exported state mix the same words exactly when their slots agree. -/
theorem digestWords_eq_iff (h : engine.Represents state) (h' : engine'.Represents state) :
    engine.digestWords = engine'.digestWords ↔ engine.SameSlotOrder engine' := by
  have haccounts := h.registered_perm.trans h'.registered_perm.symm
  have hlive := h.liveReservations_perm.trans h'.liveReservations_perm.symm
  obtain ⟨hkilled, hmaximum⟩ := h.flags_eq h'
  unfold digestWords
  rw [hkilled, hmaximum, List.append_cancel_left_eq]
  constructor
  · intro hwords
    have hwidth : ∀ account : AccountState, account.words.length = 9 := fun _ ↦ rfl
    have hwidth' : ∀ r : ReservationRiskState, r.words.length = 2 := fun _ ↦ rfl
    have hlength : (engine.registered.flatMap AccountRiskState.words).length =
        (engine'.registered.flatMap AccountRiskState.words).length :=
      (haccounts.flatMap_right _).length_eq
    obtain ⟨hleft, hright⟩ := List.append_inj hwords hlength
    have hleft' := KeyOrder.map_eq_of_flatMap_eq hwidth haccounts.length_eq hleft
    have hright' := KeyOrder.map_eq_of_flatMap_eq hwidth' hlive.length_eq hright
    constructor
    · have hkeys := congrArg (List.map fun words : List U64 ↦ words.headD 0) hleft'
      rw [List.map_map, List.map_map] at hkeys
      have hkeys' : engine.registeredIds.map accountKey = engine'.registeredIds.map accountKey := by
        unfold registeredIds
        rw [List.map_map, List.map_map]
        exact hkeys
      exact (List.map_injective_iff.mpr accountKey_injective) hkeys'
    · have hkeys := congrArg (List.map fun words : List U64 ↦ words.headD 0) hright'
      rw [List.map_map, List.map_map] at hkeys
      exact hkeys
  · rintro ⟨hids, hliveIds⟩
    rw [KeyOrder.eq_of_map_eq haccounts h.registeredIds_nodup hids,
      KeyOrder.eq_of_map_eq hlive h.liveIds_nodup hliveIds]

theorem stableDigest_eq_of_sameSlotOrder (h : engine.Represents state) (h' : engine'.Represents state)
    (hsame : engine.SameSlotOrder engine') : engine.stableDigest = engine'.stableDigest := by
  rw [engine.stableDigest_eq, engine'.stableDigest_eq, (h.digestWords_eq_iff h').mpr hsame]

/-- Two engines whose slots are ascending hold the ids in the same order. -/
theorem sameSlotOrder_of_ascending (h : engine.Represents state) (h' : engine'.Represents state)
    (hascending : engine.SlotsAscending) (hascending' : engine'.SlotsAscending) :
    engine.SameSlotOrder engine' := by
  have haccounts := (h.registered_perm.trans h'.registered_perm.symm).map AccountRiskState.id
  have hlive := (h.liveReservations_perm.trans h'.liveReservations_perm.symm).map
    ReservationRiskState.orderId
  exact ⟨haccounts.eq_of_pairwise (fun a b _ _ hab hba ↦ absurd hba hab.not_gt) hascending.1 hascending'.1,
    hlive.eq_of_pairwise (fun a b _ _ hab hba ↦ absurd hba hab.not_gt) hascending.2 hascending'.2⟩

end Represents

/-! ## Rebuilt engines -/

/-- Accounts are placed in consecutive slots. -/
theorem placeAccounts_slots {accounts : List AccountRiskState} {slot : ℕ}
    (hrun : placeAccounts accounts slot engine = .ok (.ok engine')) (i : ℕ) :
    engine'.accounts[i]? = if slot ≤ i ∧ i < slot + accounts.length then accounts[i - slot]?.map some
      else engine.accounts[i]? := by
  induction accounts generalizing engine slot with
  | nil =>
    rw [placeAccounts] at hrun
    obtain rfl := Except.ok.inj (Except.ok.inj hrun)
    rw [if_neg (by rw [List.length_nil]; omega)]
  | cons account accounts ih =>
    rw [placeAccounts] at hrun
    cases hinsert : engine.accountIndex.insert (accountKey account.id) slot with
    | error error =>
      rw [hinsert] at hrun
      cases error <;> simp at hrun
    | ok inserted =>
      rw [hinsert] at hrun
      obtain ⟨array, hwrite, hrun⟩ := Run.bind_eq_ok.mp hrun
      obtain ⟨hslot, rfl⟩ := Run.write_eq_ok.mp hwrite
      rw [ih hrun, List.length_cons]
      by_cases hi : slot = i
      · subst hi
        rw [if_neg (by omega), if_pos (by omega), Nat.sub_self, List.getElem?_cons_zero,
          Vector.getElem?_setIfInBounds, if_pos rfl, if_pos hslot]
        rfl
      · rw [Vector.getElem?_setIfInBounds, if_neg hi]
        by_cases hrange : slot + 1 ≤ i ∧ i < slot + 1 + accounts.length
        · rw [if_pos hrange, if_pos (by omega), show i - slot = (i - (slot + 1)) + 1 by omega,
            List.getElem?_cons_succ]
        · rw [if_neg hrange, if_neg (by omega)]

/-- Reservations are placed in consecutive slots, and the accounts stay. -/
theorem placeReservations_slots {reservations : List ReservationRiskState} {slot : ℕ}
    (hrun : placeReservations reservations slot engine = .ok (.ok engine')) :
    engine'.accounts = engine.accounts ∧
      ∀ i, (engine'.reservations[i]?.bind Slab.Cell.value?).map Reservation.export =
        if slot ≤ i ∧ i < slot + reservations.length then reservations[i - slot]?
        else (engine.reservations[i]?.bind Slab.Cell.value?).map Reservation.export := by
  induction reservations generalizing engine slot with
  | nil =>
    rw [placeReservations] at hrun
    obtain rfl := Except.ok.inj (Except.ok.inj hrun)
    exact ⟨rfl, fun i ↦ by rw [if_neg (by rw [List.length_nil]; omega)]⟩
  | cons reservation reservations ih =>
    rw [placeReservations] at hrun
    cases hinsert : engine.reservationIndex.insert reservation.orderId slot with
    | error error =>
      rw [hinsert] at hrun
      cases error <;> simp at hrun
    | ok inserted =>
      rw [hinsert] at hrun
      obtain ⟨array, hwrite, hrun⟩ := Run.bind_eq_ok.mp hrun
      obtain ⟨hslot, rfl⟩ := Run.write_eq_ok.mp hwrite
      obtain ⟨haccounts, hslots⟩ := ih hrun
      refine ⟨haccounts, ?_⟩
      intro i
      rw [hslots, List.length_cons]
      by_cases hi : slot = i
      · subst hi
        rw [if_neg (by omega), if_pos (by omega), Nat.sub_self, List.getElem?_cons_zero,
          Vector.getElem?_setIfInBounds, if_pos rfl, if_pos hslot]
        rfl
      · rw [Vector.getElem?_setIfInBounds, if_neg hi]
        by_cases hrange : slot + 1 ≤ i ∧ i < slot + 1 + reservations.length
        · rw [if_pos hrange, if_pos (by omega), show i - slot = (i - (slot + 1)) + 1 by omega,
            List.getElem?_cons_succ]
        · rw [if_neg hrange, if_neg (by omega)]

/-- The slots of a rebuilt engine hold the records of the state in turn. -/
theorem fromState_slots {state : RiskEngineState}
    (hrun : RiskEngine.fromState ACCOUNTS ORDERS state = .ok (.ok engine)) :
    engine.registered = state.accounts ∧ engine.liveReservations = state.reservations := by
  unfold RiskEngine.fromState at hrun
  cases hvalidate : validateState ACCOUNTS ORDERS state with
  | error error =>
    rw [hvalidate] at hrun
    simp at hrun
  | ok records =>
    obtain ⟨hrestorable, rfl⟩ := validateState_eq_ok.mp hvalidate
    rw [hvalidate] at hrun
    obtain ⟨placed, hplaced, hrun⟩ := Run.bind_eq_ok.mp hrun
    cases placed with
    | error error => simp at hrun
    | ok engine₁ =>
      obtain ⟨placed, hplaced', hrun⟩ := Run.bind_eq_ok.mp hrun
      cases placed with
      | error error => simp at hrun
      | ok engine₂ =>
        obtain ⟨slots, hslots, hrun⟩ := Run.bind_eq_ok.mp hrun
        obtain rfl := Except.ok.inj (Except.ok.inj hrun)
        obtain ⟨haccounts, hreservations⟩ := placeReservations_slots hplaced'
        obtain ⟨slots', hfree, hfreed, hkept⟩ := freeSlots_spec (ORDERS - state.reservations.length)
          state.reservations.length (Nat.add_sub_cancel' hrestorable.reservations_le) engine₂.reservations
        obtain rfl : slots' = slots := Except.ok.inj (hfree.symm.trans hslots)
        refine ⟨KeyOrder.filterMap_eq ?_, ?_⟩
        · intro i
          rw [Vector.getElem?_toList]
          show (engine₂.accounts[i]?).bind id = _
          rw [haccounts, placeAccounts_slots hplaced]
          by_cases hi : i < state.accounts.length
          · rw [if_pos (by omega), Nat.sub_zero, List.getElem?_eq_getElem hi]
            rfl
          · rw [if_neg (by omega), List.getElem?_eq_none (by omega)]
            show ((Vector.replicate ACCOUNTS none : Vector (Option AccountState) ACCOUNTS)[i]?).bind id = none
            rw [Vector.getElem?_replicate]
            split <;> rfl
        · unfold liveReservations
          rw [List.map_filterMap]
          refine KeyOrder.filterMap_eq ?_
          intro i
          rw [Vector.getElem?_toList]
          have hmap : (slots'[i]?.bind fun cell ↦ cell.value?.map Reservation.export) =
              (slots'[i]?.bind Slab.Cell.value?).map Reservation.export := by
            cases slots'[i]? <;> rfl
          refine hmap.trans ?_
          by_cases hi : i < state.reservations.length
          · rw [hkept i hi, hreservations, if_pos (by omega), Nat.sub_zero]
          · rw [List.getElem?_eq_none (by omega)]
            by_cases hi' : i < ORDERS
            · rw [hfreed i (by omega) hi']
              rfl
            · rw [Vector.getElem?_eq_none (by omega)]
              rfl

/-- A built engine after some calls. -/
def Obtained (engine : RiskEngine ACCOUNTS ORDERS) : Prop :=
  ∃ (start : RiskEngine ACCOUNTS ORDERS) (calls : List RiskCall) (replies : List RiskReply),
    start.Built ∧ execute RiskEngine.call start calls = .ok (replies, engine)

theorem Obtained.sound (hA : ACCOUNTS * indexPlanes ≤ 2 ^ 32) (hR : ORDERS * indexPlanes ≤ 2 ^ 32)
    (h : engine.Obtained) : engine.Sound := by
  obtain ⟨start, calls, replies, hbuilt, hrun⟩ := h
  have hstep (e : RiskEngine ACCOUNTS ORDERS) (h : e.Sound) (call : RiskCall) (_ : call ∈ calls) :
      ∃ reply e', e.call call = .ok (reply, e') ∧ e'.Sound := by
    obtain ⟨reply, e', hcall, hsound, _⟩ := h.call hA hR call
    exact ⟨reply, e', hcall, hsound⟩
  obtain ⟨_, engine', hrun', hsound⟩ := execute_invariant calls hstep (hbuilt.sound hA hR)
  obtain ⟨_, rfl⟩ := Prod.mk.inj (Except.ok.inj (hrun.symm.trans hrun'))
  exact hsound

/-- The slots of a rebuilt engine are ascending. -/
theorem fromState_ascending {state : RiskEngineState}
    (hrun : RiskEngine.fromState ACCOUNTS ORDERS state = .ok (.ok engine)) : engine.SlotsAscending := by
  obtain ⟨haccounts, hreservations⟩ := fromState_slots hrun
  unfold RiskEngine.fromState at hrun
  cases hvalidate : validateState ACCOUNTS ORDERS state with
  | error error =>
    rw [hvalidate] at hrun
    simp at hrun
  | ok records =>
    obtain ⟨hrestorable, _⟩ := validateState_eq_ok.mp hvalidate
    have hordered := hrestorable.consistent.ordered
    unfold SlotsAscending registeredIds liveIds
    rw [haccounts, hreservations, List.pairwise_map, List.pairwise_map]
    exact ⟨hordered.accounts, hordered.reservations⟩

end RiskEngine

end DeterministicExchange.Risk
