import DeterministicExchange.Gateway.Restore
import DeterministicExchange.Recovery.Container
import DeterministicExchange.Recovery.Fields

/-!
# Round trips of snapshots

The container and the state are each read back from exactly the bytes that were
written. So a snapshot that is accepted is the encoding of the gateway it
restores, and a gateway that can be restored is restored from its snapshot.
-/

namespace DeterministicExchange.Recovery

open Machine Codec Book Risk

variable {ACCOUNTS RISK_ORDERS LEVELS ORDERS_PER_LEVEL : ℕ}

/-! ## The state -/

/-- The live levels of an array. -/
def liveLevels (levels : Vector (BookLevelState ORDERS_PER_LEVEL) LEVELS) (count : ℕ) :
    List (BookLevelState ORDERS_PER_LEVEL) := levels.toList.take count

/-- The bytes of a state whose counts fit. -/
def stateBytes (state : GatewayState LEVELS ORDERS_PER_LEVEL) : Bytes :=
  encodeUnsigned state.instrument ++ encodeUnsigned state.expectedSequence ++
    encodeOptionalOrder state.maximumReceivedOrderId ++ encodeOptionalOrder state.risk.maximumOrderId ++
    encodeBoolean state.risk.killed ++ beBytes 4 state.risk.accounts.length ++
    beBytes 4 state.risk.reservations.length ++ beBytes 4 state.book.bidLevelCount ++
    beBytes 4 state.book.askLevelCount ++ state.risk.accounts.flatMap encodeAccount ++
    state.risk.reservations.flatMap encodeReservation ++
    (liveLevels state.book.bids state.book.bidLevelCount).flatMap Input.levelBytes ++
    (liveLevels state.book.asks state.book.askLevelCount).flatMap Input.levelBytes

/-- A state within its capacities, with nothing beyond its levels and orders. -/
structure StateCanonical (ACCOUNTS RISK_ORDERS : ℕ)
    (state : GatewayState LEVELS ORDERS_PER_LEVEL) : Prop where
  instrument : state.book.instrument = state.instrument
  accounts_lt : state.risk.accounts.length < 2 ^ 32
  reservations_lt : state.risk.reservations.length < 2 ^ 32
  bids_lt : state.book.bidLevelCount < 2 ^ 32
  asks_lt : state.book.askLevelCount < 2 ^ 32
  accounts_le : state.risk.accounts.length ≤ ACCOUNTS
  reservations_le : state.risk.reservations.length ≤ RISK_ORDERS
  bids_le : state.book.bidLevelCount ≤ LEVELS
  asks_le : state.book.askLevelCount ≤ LEVELS
  bids : state.book.bids = pad LEVELS (emptyBookLevelState ORDERS_PER_LEVEL)
    (liveLevels state.book.bids state.book.bidLevelCount)
  asks : state.book.asks = pad LEVELS (emptyBookLevelState ORDERS_PER_LEVEL)
    (liveLevels state.book.asks state.book.askLevelCount)
  bid : ∀ level ∈ liveLevels state.book.bids state.book.bidLevelCount, Input.LevelCanonical level
  ask : ∀ level ∈ liveLevels state.book.asks state.book.askLevelCount, Input.LevelCanonical level

theorem length_liveLevels {levels : Vector (BookLevelState ORDERS_PER_LEVEL) LEVELS} {count : ℕ}
    (h : count ≤ LEVELS) : (liveLevels levels count).length = count := by
  simp [liveLevels, h]

theorem liveLevels_pad {levels : List (BookLevelState ORDERS_PER_LEVEL)} (h : levels.length ≤ LEVELS) :
    liveLevels (pad LEVELS (emptyBookLevelState ORDERS_PER_LEVEL) levels) levels.length = levels :=
  take_toList_pad _ h

theorem gatewayState_canonical :
    (Input.gatewayState ACCOUNTS RISK_ORDERS LEVELS ORDERS_PER_LEVEL).Canonical stateBytes
      (StateCanonical ACCOUNTS RISK_ORDERS) where
  complete state rest h := by
    have hcounts : ¬ (ACCOUNTS < state.risk.accounts.length ∨ RISK_ORDERS < state.risk.reservations.length ∨
        LEVELS < state.book.bidLevelCount ∨ LEVELS < state.book.askLevelCount) := by
      have haccounts := h.accounts_le
      have hreservations := h.reservations_le
      have hbids := h.bids_le
      have hasks := h.asks_le
      omega
    have hbook : ({ state.book with instrument := state.instrument } : BookState LEVELS ORDERS_PER_LEVEL) =
        state.book := by rw [← h.instrument]
    unfold Input.gatewayState stateBytes
    simp only [List.append_assoc, Input.u32_canonical.run_bind, Input.u64_canonical.run_bind,
      Input.optionalOrder_canonical.run_bind, Input.boolean_canonical.run_bind]
    rw [Input.count_canonical.run_bind h.accounts_lt, Input.count_canonical.run_bind h.reservations_lt,
      Input.count_canonical.run_bind h.bids_lt, Input.count_canonical.run_bind h.asks_lt, if_neg hcounts,
      (Input.account_canonical.times _).run_bind ⟨rfl, fun _ _ ↦ trivial⟩,
      (Input.reservation_canonical.times _).run_bind ⟨rfl, fun _ _ ↦ trivial⟩,
      (Input.level_canonical.times _).run_bind ⟨length_liveLevels h.bids_le, h.bid⟩,
      (Input.level_canonical.times _).run_bind ⟨length_liveLevels h.asks_le, h.ask⟩,
        ← h.bids, ← h.asks, hbook]
    exact Reader.run_pure _ _
  sound input state rest h := by
    unfold Input.gatewayState at h
    simp only [Reader.run_bind_eq_ok, Input.u32_canonical.run_eq_ok, Input.u64_canonical.run_eq_ok,
      Input.optionalOrder_canonical.run_eq_ok, Input.boolean_canonical.run_eq_ok,
      Input.count_canonical.run_eq_ok, true_and] at h
    obtain ⟨instrument, _, rfl, expectedSequence, _, rfl, maximumReceived, _, rfl,
      riskMaximum, _, rfl, killed,
      _, rfl, accountCount, _, ⟨haccounts, rfl⟩, reservationCount, _, ⟨hreservations, rfl⟩, bidCount, _,
      ⟨hbids, rfl⟩, askCount, _, ⟨hasks, rfl⟩, h⟩ := h
    split at h
    · exact absurd h Reader.run_throw_ne_ok
    next hcounts =>
    push Not at hcounts
    obtain ⟨haccounts_le, hreservations_le, hbids_le, hasks_le⟩ := hcounts
    simp only [Reader.run_bind_eq_ok, Reader.run_pure_eq_ok, (Input.account_canonical.times _).run_eq_ok,
      (Input.reservation_canonical.times _).run_eq_ok, (Input.level_canonical.times _).run_eq_ok] at h
    obtain ⟨accounts, _, ⟨⟨rfl, _⟩, rfl⟩, reservations, _, ⟨⟨rfl, _⟩, rfl⟩, bids, _, ⟨⟨rfl, hbid⟩, rfl⟩, asks,
      _, ⟨⟨rfl, hask⟩, rfl⟩, rfl, rfl⟩ := h
    refine ⟨⟨rfl, haccounts, hreservations, hbids, hasks, haccounts_le, hreservations_le, hbids_le, hasks_le,
      ?_, ?_, ?_, ?_⟩, ?_⟩
    · rw [liveLevels_pad hbids_le]
    · rw [liveLevels_pad hasks_le]
    · rw [liveLevels_pad hbids_le]
      exact hbid
    · rw [liveLevels_pad hasks_le]
      exact hask
    · simp only [stateBytes, liveLevels_pad hbids_le, liveLevels_pad hasks_le, List.append_assoc]

/-- Decoding accepts exactly the bytes of canonical states. -/
theorem decodeGatewayState_eq_ok {payload : Bytes} {state : GatewayState LEVELS ORDERS_PER_LEVEL} :
    decodeGatewayState ACCOUNTS RISK_ORDERS payload = .ok state ↔
      StateCanonical ACCOUNTS RISK_ORDERS state ∧ payload = stateBytes state := by
  unfold decodeGatewayState
  constructor
  · intro h
    split at h
    · simp at h
    next rest hrun =>
    split at h
    · simp at h
    next hrest =>
    obtain rfl := Except.ok.inj h
    obtain ⟨hvalid, hpayload⟩ := gatewayState_canonical.sound _ _ _ hrun
    rw [not_not.mp hrest, List.append_nil] at hpayload
    exact ⟨hvalid, hpayload⟩
  · rintro ⟨hvalid, rfl⟩
    have hrun := gatewayState_canonical.complete state [] hvalid
    rw [List.append_nil] at hrun
    rw [hrun]
    simp

theorem writeCount_of_lt {value : ℕ} (h : value < 2 ^ 32) : writeCount value = .ok (beBytes 4 value) := by
  unfold writeCount
  rw [Unsigned.ofNat?_of_lt h]
  rfl

theorem encodeLevels_eq_ok {levels : List (BookLevelState ORDERS_PER_LEVEL)}
    (h : ∀ level ∈ levels, Input.LevelCanonical level) :
    encodeLevels levels = .ok (.ok (levels.flatMap Input.levelBytes)) := by
  induction levels with
  | nil => rfl
  | cons level levels ih =>
    obtain ⟨hlevel, hlevels⟩ := List.forall_mem_cons.mp h
    rw [encodeLevels, writeCount_of_lt hlevel.count_lt]
    simp only [Run.sliceTo_of_le _ hlevel.count_le, Run.ok_bind, ih hlevels]
    rfl

/-- The encoder writes the bytes of a canonical state. -/
theorem encodeGatewayState_eq_ok {state : GatewayState LEVELS ORDERS_PER_LEVEL}
    (h : StateCanonical ACCOUNTS RISK_ORDERS state) :
    encodeGatewayState state = .ok (.ok (stateBytes state)) := by
  have hbids : encodeLevels (state.book.bids.toList.take state.book.bidLevelCount) = _ :=
    encodeLevels_eq_ok h.bid
  have hasks : encodeLevels (state.book.asks.toList.take state.book.askLevelCount) = _ :=
    encodeLevels_eq_ok h.ask
  unfold encodeGatewayState encodePreamble
  simp only [writeCount_of_lt h.accounts_lt, writeCount_of_lt h.reservations_lt, writeCount_of_lt h.bids_lt,
    writeCount_of_lt h.asks_lt, Reader.ok_bind, Reader.pure_eq_ok, Run.sliceTo_of_le _ h.bids_le,
    Run.sliceTo_of_le _ h.asks_le, hbids, hasks]
  rfl

/-! ## States of restorable gateways -/

section Restorable

variable {logical : Logical.Gateway}

theorem levelCanonical_levelState {side : Side} {level : Logical.Level} (horders : ORDERS_PER_LEVEL < 2 ^ 32)
    (h : level.Restorable ORDERS_PER_LEVEL) :
    Input.LevelCanonical (Logical.levelState ORDERS_PER_LEVEL side level) where
  count_lt := h.length_le.trans_lt horders
  count_le := h.length_le
  padded := by
    rw [take_levelState side h.length_le]
    rfl

theorem liveLevels_levelState {side : Side} {levels : List Logical.Level} (h : levels.length ≤ LEVELS) :
    liveLevels (pad LEVELS (emptyBookLevelState ORDERS_PER_LEVEL)
      (levels.map (Logical.levelState ORDERS_PER_LEVEL side))) levels.length =
      levels.map (Logical.levelState ORDERS_PER_LEVEL side) := by
  have hlen : (levels.map (Logical.levelState ORDERS_PER_LEVEL side)).length ≤ LEVELS := by
    rwa [List.length_map]
  have hlive := liveLevels_pad hlen
  rwa [List.length_map] at hlive

theorem stateCanonical_of_invariant
    (hc : IndexCapacities ACCOUNTS RISK_ORDERS LEVELS ORDERS_PER_LEVEL) (hlevels : LEVELS < 2 ^ 32)
    (horders : ORDERS_PER_LEVEL < 2 ^ 32) (h : logical.Invariant LEVELS ORDERS_PER_LEVEL)
    (haccounts_le : logical.risk.accounts.length ≤ ACCOUNTS)
    (hreservations_le : logical.risk.reservations.length ≤ RISK_ORDERS) :
    StateCanonical ACCOUNTS RISK_ORDERS (logical.state LEVELS ORDERS_PER_LEVEL) := by
  have haccounts := hc.accounts
  have hreservations := hc.reservations
  unfold indexPlanes at haccounts hreservations
  have hside (side : Side) : liveLevels (pad LEVELS (emptyBookLevelState ORDERS_PER_LEVEL)
      ((logical.book.side side).map (Logical.levelState ORDERS_PER_LEVEL side)))
        (logical.book.side side).length = _ :=
    liveLevels_levelState (h.book.length_le side)
  have hlevel (side : Side) : ∀ level ∈ (logical.book.side side).map
      (Logical.levelState ORDERS_PER_LEVEL side), Input.LevelCanonical level := by
    intro level hlevel
    obtain ⟨source, hsource, rfl⟩ := List.mem_map.mp hlevel
    exact levelCanonical_levelState horders (h.book.level side source hsource)
  have hbids : logical.book.bids.length ≤ LEVELS := h.book.length_le .buy
  have hasks : logical.book.asks.length ≤ LEVELS := h.book.length_le .sell
  exact
    { instrument := rfl
      accounts_lt := by
        show logical.risk.accounts.length < 2 ^ 32
        omega
      reservations_lt := by
        show logical.risk.reservations.length < 2 ^ 32
        omega
      bids_lt := hbids.trans_lt hlevels
      asks_lt := hasks.trans_lt hlevels
      accounts_le := haccounts_le
      reservations_le := hreservations_le
      bids_le := hbids
      asks_le := hasks
      bids := (congrArg (pad LEVELS (emptyBookLevelState ORDERS_PER_LEVEL)) (hside .buy)).symm
      asks := (congrArg (pad LEVELS (emptyBookLevelState ORDERS_PER_LEVEL)) (hside .sell)).symm
      bid := fun level hmem ↦ hlevel .buy level ((hside .buy) ▸ hmem)
      ask := fun level hmem ↦ hlevel .sell level ((hside .sell) ▸ hmem) }

end Restorable

/-! ## Lengths -/

theorem length_flatMap_le {α : Type} {write : α → Bytes} {as : List α} {bound : ℕ}
    (h : ∀ a ∈ as, (write a).length ≤ bound) : (as.flatMap write).length ≤ as.length * bound := by
  rw [List.length_flatMap]
  have hsum := List.sum_le_card_nsmul (as.map fun a ↦ (write a).length) bound (by
    intro n hn
    obtain ⟨a, ha, rfl⟩ := List.mem_map.mp hn
    exact h a ha)
  simpa using hsum

theorem length_encodeAccount (account : AccountRiskState) : (encodeAccount account).length = 109 := by
  simp [encodeAccount, encodeBoolean]

theorem length_encodeReservation (reservation : ReservationRiskState) :
    (encodeReservation reservation).length = 21 := by
  simp [encodeReservation]

theorem length_encodeOrder (order : BookOrderState) : (encodeOrder order).length = 37 := by
  simp [encodeOrder]

theorem length_levelBytes (level : BookLevelState ORDERS_PER_LEVEL) :
    (Input.levelBytes level).length ≤ 13 + ORDERS_PER_LEVEL * 37 := by
  have hlen : ((level.orders.toList.take level.orderCount).flatMap encodeOrder).length ≤
      (level.orders.toList.take level.orderCount).length * 37 :=
    length_flatMap_le fun order _ ↦ (length_encodeOrder order).le
  have hcount : (level.orders.toList.take level.orderCount).length ≤ ORDERS_PER_LEVEL := by
    simp
  unfold Input.levelBytes
  simp only [List.length_append, length_encodeSigned, length_beBytes, List.length_singleton]
  omega

theorem length_encodeOptionalOrder (value : Option OrderId) : (encodeOptionalOrder value).length = 9 := by
  simp [encodeOptionalOrder, encodeBoolean]

/-- The levels of one side stay far below the range of a length. -/
theorem length_levels_le (hc : IndexCapacities ACCOUNTS RISK_ORDERS LEVELS ORDERS_PER_LEVEL)
    {levels : List (BookLevelState ORDERS_PER_LEVEL)} (hlt : levels.length < 2 ^ 32)
    (hle : levels.length ≤ LEVELS) :
    (levels.flatMap Input.levelBytes).length ≤ 2 ^ 38 := by
  have hbytes := length_flatMap_le fun level (_ : level ∈ levels) ↦ length_levelBytes level
  have hbook : LEVELS * ORDERS_PER_LEVEL * 4 ≤ 2 ^ 32 := hc.book
  have hproduct : levels.length * ORDERS_PER_LEVEL ≤ LEVELS * ORDERS_PER_LEVEL :=
    Nat.mul_le_mul_right _ hle
  calc
    (levels.flatMap Input.levelBytes).length ≤ levels.length * (13 + ORDERS_PER_LEVEL * 37) := hbytes
    _ = levels.length * 13 + levels.length * ORDERS_PER_LEVEL * 37 := by ring
    _ ≤ 2 ^ 38 := by omega

theorem length_stateBytes_lt (hc : IndexCapacities ACCOUNTS RISK_ORDERS LEVELS ORDERS_PER_LEVEL)
    {state : GatewayState LEVELS ORDERS_PER_LEVEL} (h : StateCanonical ACCOUNTS RISK_ORDERS state) :
    headerSize + (stateBytes state).length < 2 ^ 64 := by
  have haccounts : (state.risk.accounts.flatMap encodeAccount).length ≤ state.risk.accounts.length * 109 :=
    length_flatMap_le fun account _ ↦ (length_encodeAccount account).le
  have hreservations : (state.risk.reservations.flatMap encodeReservation).length ≤
      state.risk.reservations.length * 21 :=
    length_flatMap_le fun reservation _ ↦ (length_encodeReservation reservation).le
  have hbidCount : (liveLevels state.book.bids state.book.bidLevelCount).length = _ :=
    length_liveLevels h.bids_le
  have haskCount : (liveLevels state.book.asks state.book.askLevelCount).length = _ :=
    length_liveLevels h.asks_le
  have hbids := length_levels_le hc (hbidCount.trans_lt h.bids_lt) (hbidCount.trans_le h.bids_le)
  have hasks := length_levels_le hc (haskCount.trans_lt h.asks_lt) (haskCount.trans_le h.asks_le)
  have haccounts_lt := h.accounts_lt
  have hreservations_lt := h.reservations_lt
  unfold stateBytes headerSize
  simp only [List.length_append, length_encodeUnsigned, length_beBytes, length_encodeOptionalOrder,
    encodeBoolean, List.length_singleton]
  omega

/-! ## Snapshots -/

section Snapshot

variable {sha256 : Bytes → Digest}

theorem decodeState_eq_ok {bytes : Bytes} {state : GatewayState LEVELS ORDERS_PER_LEVEL}
    {appliedSequence : U64} {digest : Digest} :
    decodeState sha256 ACCOUNTS RISK_ORDERS bytes = .ok (state, appliedSequence, digest) ↔
      StateCanonical ACCOUNTS RISK_ORDERS state ∧ appliedSequence.val + 1 = state.expectedSequence.val ∧
        Sealed sha256 ACCOUNTS RISK_ORDERS LEVELS ORDERS_PER_LEVEL (stateBytes state) appliedSequence digest
          bytes ∧ headerSize + (stateBytes state).length < 2 ^ 64 := by
  unfold decodeState
  constructor
  · intro h
    obtain ⟨⟨applied, stored, payload⟩, hopen, h⟩ := except_bind_eq_ok.mp h
    obtain ⟨found, hstate, h⟩ := except_bind_eq_ok.mp h
    obtain ⟨next, hnext, h⟩ := except_bind_eq_ok.mp h
    split at h
    · simp at h
    next hsequence =>
    simp only [pure, Except.pure, Except.ok.injEq, Prod.mk.injEq] at h
    obtain ⟨rfl, rfl, rfl⟩ := h
    obtain ⟨hcanonical, rfl⟩ := decodeGatewayState_eq_ok.mp hstate
    obtain ⟨hsealed, hlt⟩ := openContainer_eq_ok.mp hopen
    have hval := Unsigned.checkedAdd_eq_some.mp (okOr_eq_ok.mp hnext)
    rw [← not_not.mp hsequence] at hval
    exact ⟨hcanonical, hval, hsealed, hlt⟩
  · rintro ⟨hcanonical, hval, hsealed, hlt⟩
    have hnext : okOr SnapshotError.invalidSequence (Unsigned.checkedAdd appliedSequence 1) =
        .ok state.expectedSequence := okOr_eq_ok.mpr (Unsigned.checkedAdd_eq_some.mpr hval)
    rw [openContainer_eq_ok.mpr ⟨hsealed, hlt⟩]
    simp only [Reader.ok_bind, decodeGatewayState_eq_ok.mpr ⟨hcanonical, rfl⟩, hnext]
    simp

theorem encodeSnapshot_eq_ok {gateway : Gateway ACCOUNTS RISK_ORDERS LEVELS ORDERS_PER_LEVEL}
    {state : GatewayState LEVELS ORDERS_PER_LEVEL} (hexport : gateway.exportState = .ok state)
    (h : StateCanonical ACCOUNTS RISK_ORDERS state) {appliedSequence : U64}
    (hval : appliedSequence.val + 1 = state.expectedSequence.val) {snapshot : Snapshot} :
    encodeSnapshot sha256 gateway appliedSequence = .ok (.ok snapshot) ↔
      Sealed sha256 ACCOUNTS RISK_ORDERS LEVELS ORDERS_PER_LEVEL (stateBytes state) appliedSequence
        snapshot.digest snapshot.bytes ∧ snapshot.appliedSequence = appliedSequence := by
  have hnext : Unsigned.checkedAdd appliedSequence 1 = some state.expectedSequence :=
    Unsigned.checkedAdd_eq_some.mpr hval
  unfold encodeSnapshot
  rw [← sealPayload_eq_ok]
  simp only [hexport, Run.ok_bind, hnext, ne_eq, not_true_eq_false, if_false, encodeGatewayState_eq_ok h,
    Run.pure_eq_ok, Except.ok.injEq]

theorem exists_sealed (sha256 : Bytes → Digest) (payload : Bytes) (appliedSequence : U64)
    (hpayload : payload.length < 2 ^ 64)
    (haccounts : ACCOUNTS < 2 ^ 32) (hriskOrders : RISK_ORDERS < 2 ^ 32) (hlevels : LEVELS < 2 ^ 32)
    (horders : ORDERS_PER_LEVEL < 2 ^ 32) :
    ∃ digest bytes, Sealed sha256 ACCOUNTS RISK_ORDERS LEVELS ORDERS_PER_LEVEL payload appliedSequence digest
      bytes := by
  refine ⟨snapshotDigest sha256 (header ⟨payload.length, hpayload⟩ appliedSequence ⟨ACCOUNTS, haccounts⟩
    ⟨RISK_ORDERS, hriskOrders⟩ ⟨LEVELS, hlevels⟩ ⟨ORDERS_PER_LEVEL, horders⟩
    ⟨List.replicate digestSize 0, List.length_replicate⟩) payload, _, ⟨payload.length, hpayload⟩,
    ⟨ACCOUNTS, haccounts⟩, ⟨RISK_ORDERS, hriskOrders⟩, ⟨LEVELS, hlevels⟩,
      ⟨ORDERS_PER_LEVEL, horders⟩, rfl, rfl,
    rfl, rfl, rfl, rfl, ?_⟩
  exact snapshotDigest_header ..

/-- A canonical state is encoded at its own cut. -/
theorem exists_snapshot (sha256 : Bytes → Digest)
    (hc : IndexCapacities ACCOUNTS RISK_ORDERS LEVELS ORDERS_PER_LEVEL) (hlevels : LEVELS < 2 ^ 32)
    (horders : ORDERS_PER_LEVEL < 2 ^ 32) {gateway : Gateway ACCOUNTS RISK_ORDERS LEVELS ORDERS_PER_LEVEL}
    {state : GatewayState LEVELS ORDERS_PER_LEVEL} (hexport : gateway.exportState = .ok state)
    (h : StateCanonical ACCOUNTS RISK_ORDERS state) {appliedSequence : U64}
    (hval : appliedSequence.val + 1 = state.expectedSequence.val) :
    ∃ snapshot, encodeSnapshot sha256 gateway appliedSequence = .ok (.ok snapshot) ∧
      snapshot.appliedSequence = appliedSequence ∧
      Sealed sha256 ACCOUNTS RISK_ORDERS LEVELS ORDERS_PER_LEVEL (stateBytes state) appliedSequence
        snapshot.digest snapshot.bytes := by
  have hlength := length_stateBytes_lt hc h
  have haccounts := hc.accounts
  have hreservations := hc.reservations
  unfold indexPlanes at haccounts hreservations
  obtain ⟨digest, bytes, hsealed⟩ := exists_sealed sha256 (stateBytes state) appliedSequence (by omega)
    (by omega : ACCOUNTS < 2 ^ 32) (by omega : RISK_ORDERS < 2 ^ 32) hlevels horders
  exact ⟨⟨bytes, digest, appliedSequence⟩,
    (encodeSnapshot_eq_ok hexport h hval).mpr ⟨hsealed, rfl⟩, rfl, hsealed⟩

/-- Decoding returns; what it restores represents the state that was read. -/
theorem decodeSnapshot_spec (sha256 : Bytes → Digest)
    (hc : IndexCapacities ACCOUNTS RISK_ORDERS LEVELS ORDERS_PER_LEVEL) (bytes : Bytes) :
    ∃ result : Except SnapshotError (DecodedSnapshot ACCOUNTS RISK_ORDERS LEVELS ORDERS_PER_LEVEL),
      decodeSnapshot sha256 bytes = .ok result ∧
      ∀ decoded, result = .ok decoded → ∃ logical : Logical.Gateway,
        logical.Restorable ACCOUNTS RISK_ORDERS LEVELS ORDERS_PER_LEVEL ∧
        decoded.gateway.Represents logical ∧
        decodeState sha256 ACCOUNTS RISK_ORDERS bytes =
          .ok (logical.state LEVELS ORDERS_PER_LEVEL, decoded.appliedSequence, decoded.digest) := by
  unfold decodeSnapshot
  cases hstate : (decodeState sha256 ACCOUNTS RISK_ORDERS bytes :
      Except SnapshotError (GatewayState LEVELS ORDERS_PER_LEVEL × U64 × Digest)) with
  | error error => exact ⟨.error error, rfl, by simp⟩
  | ok found =>
    obtain ⟨state, appliedSequence, digest⟩ := found
    obtain ⟨restored, hrestored, hspec⟩ := Gateway.fromState_spec hc.addressable state
    simp only [hrestored, Run.ok_bind]
    cases restored with
    | error error => exact ⟨.error (.gatewayState error), rfl, by simp⟩
    | ok gateway =>
      refine ⟨.ok ⟨gateway, appliedSequence, digest⟩, rfl, ?_⟩
      intro decoded heq
      obtain rfl := Except.ok.inj heq
      obtain ⟨logical, rfl, hrestorable, hrep⟩ := hspec gateway rfl
      exact ⟨logical, hrestorable, hrep, rfl⟩

/-- A gateway that represents a restorable one is restored from its snapshot. -/
theorem decodeSnapshot_encodeSnapshot
    (hc : IndexCapacities ACCOUNTS RISK_ORDERS LEVELS ORDERS_PER_LEVEL) (hlevels : LEVELS < 2 ^ 32)
    (horders : ORDERS_PER_LEVEL < 2 ^ 32)
    {gateway : Gateway ACCOUNTS RISK_ORDERS LEVELS ORDERS_PER_LEVEL} {logical : Logical.Gateway}
    (hrestorable : logical.Restorable ACCOUNTS RISK_ORDERS LEVELS ORDERS_PER_LEVEL)
    (hexport : gateway.exportState = .ok (logical.state LEVELS ORDERS_PER_LEVEL)) {appliedSequence : U64}
    (hval : appliedSequence.val + 1 = logical.expectedSequence.val) :
    ∃ (snapshot : Snapshot) (restored : Gateway ACCOUNTS RISK_ORDERS LEVELS ORDERS_PER_LEVEL),
      encodeSnapshot sha256 gateway appliedSequence = .ok (.ok snapshot) ∧
      Gateway.fromState ACCOUNTS RISK_ORDERS (logical.state LEVELS ORDERS_PER_LEVEL) = .ok (.ok restored) ∧
      restored.Represents logical ∧
      decodeSnapshot sha256 snapshot.bytes = .ok (.ok ⟨restored, appliedSequence, snapshot.digest⟩) := by
  have hcanonical := stateCanonical_of_invariant hc hlevels horders hrestorable.invariant
    hrestorable.accounts_le hrestorable.reservations_le
  obtain ⟨snapshot, hsnapshot, _, hsealed⟩ :=
    exists_snapshot sha256 hc hlevels horders hexport hcanonical hval
  obtain ⟨restored, hrestored, hrep⟩ := Gateway.fromState_restorable hc hrestorable
  refine ⟨snapshot, restored, hsnapshot, hrestored, hrep, ?_⟩
  have hstate := decodeState_eq_ok.mpr ⟨hcanonical, hval, hsealed, length_stateBytes_lt hc hcanonical⟩
  unfold decodeSnapshot
  simp only [hstate, hrestored, Run.ok_bind]
  rfl

/-- A snapshot of a gateway decodes to nothing but a gateway that represents the same. -/
theorem represents_of_decodeSnapshot
    (hc : IndexCapacities ACCOUNTS RISK_ORDERS LEVELS ORDERS_PER_LEVEL) (hlevels : LEVELS < 2 ^ 32)
    (horders : ORDERS_PER_LEVEL < 2 ^ 32)
    {gateway : Gateway ACCOUNTS RISK_ORDERS LEVELS ORDERS_PER_LEVEL} {logical : Logical.Gateway}
    (hrep : gateway.Represents logical) (hinvariant : logical.Invariant LEVELS ORDERS_PER_LEVEL)
    {appliedSequence : U64} (hval : appliedSequence.val + 1 = logical.expectedSequence.val)
    {snapshot : Snapshot}
    (hencode : encodeSnapshot sha256 gateway appliedSequence = .ok (.ok snapshot))
    {decoded : DecodedSnapshot ACCOUNTS RISK_ORDERS LEVELS ORDERS_PER_LEVEL}
    (hdecode : decodeSnapshot sha256 snapshot.bytes = .ok (.ok decoded)) :
    decoded.gateway.Represents logical ∧ decoded.appliedSequence = appliedSequence := by
  have hcanonical := stateCanonical_of_invariant hc hlevels horders hinvariant hrep.risk.length_le.1
    hrep.risk.length_le.2
  obtain ⟨hsealed, _⟩ :=
    (encodeSnapshot_eq_ok (hrep.exportState hc.addressable) hcanonical hval).mp hencode
  have hstate := decodeState_eq_ok.mpr ⟨hcanonical, hval, hsealed, length_stateBytes_lt hc hcanonical⟩
  obtain ⟨result, hresult, hspec⟩ := decodeSnapshot_spec sha256 hc snapshot.bytes
  rw [hdecode] at hresult
  obtain ⟨logical', hrestorable, hrep', hstate'⟩ := hspec decoded (Except.ok.inj hresult).symm
  rw [hstate] at hstate'
  obtain ⟨hsame, hrest⟩ := Prod.mk.inj (Except.ok.inj hstate')
  obtain ⟨happlied, _⟩ := Prod.mk.inj hrest
  rw [hinvariant.eq_of_state hrestorable.invariant hsame]
  exact ⟨hrep', happlied.symm⟩

end Snapshot

end DeterministicExchange.Recovery
