import DeterministicExchange.Machine.Execution
import DeterministicExchange.Risk.Balance
import DeterministicExchange.Risk.Restore

/-!
# The risk invariant over whole runs

`RiskEngine.Invariant` states the reservation slab, both probe indexes and the
totals of the accounts in terms of the arrays of an engine alone. Every engine
that was built by `new` or by a successful `fromState` satisfies it, whatever
operations follow: none of them faults, all of them keep it, and a rejected one
leaves the whole engine as it was.
-/

namespace DeterministicExchange.Risk

open Machine ProbeTable

variable {ACCOUNTS ORDERS : ℕ}

/-! ## Calls -/

inductive RiskCall where
  | registerAccount (id : AccountId) (limits : RiskLimits)
  | setKillSwitch (killed : Bool)
  | setAccountKillSwitch (accountId : AccountId) (killed : Bool)
  | checkAndReserve (order : NewOrder)
  | settle (orderId : OrderId) (filledQuantity : Quantity)
  | recordFill (orderId : OrderId) (filledQuantity : Quantity)
  | adjustReservation (orderId : OrderId) (accountId : AccountId) (price : PriceTicks)
      (newQuantity : Quantity)
  | restoreReservation (orderId : OrderId) (accountId : AccountId) (priorQuantity : Quantity)
  | cancelReservation (orderId : OrderId) (accountId : AccountId)

inductive RiskReply where
  | switched
  | registered (result : Except RegistrationError Unit)
  | updated (result : Except RejectReason Unit)
  | adjusted (result : Except RejectReason (Quantity × Quantity))
  | released (result : Except RejectReason Quantity)

/-- The reply carries an error. -/
def RiskReply.Rejects : RiskReply → Prop
  | .switched => False
  | .registered result => ∃ error, result = .error error
  | .updated result => ∃ reason, result = .error reason
  | .adjusted result => ∃ reason, result = .error reason
  | .released result => ∃ reason, result = .error reason

namespace RiskEngine

def call (engine : RiskEngine ACCOUNTS ORDERS) : RiskCall → Run (RiskReply × RiskEngine ACCOUNTS ORDERS)
  | .registerAccount id limits => do
    let (result, engine) ← engine.registerAccount id limits
    return (.registered result, engine)
  | .setKillSwitch killed => .ok (.switched, engine.setKillSwitch killed)
  | .setAccountKillSwitch accountId killed => do
    let (result, engine) ← engine.setAccountKillSwitch accountId killed
    return (.updated result, engine)
  | .checkAndReserve order => do
    let (result, engine) ← engine.checkAndReserve order
    return (.updated result, engine)
  | .settle orderId filledQuantity => do
    let (result, engine) ← engine.settle orderId filledQuantity
    return (.updated result, engine)
  | .recordFill orderId filledQuantity => do
    let (result, engine) ← engine.recordFill orderId filledQuantity
    return (.updated result, engine)
  | .adjustReservation orderId accountId price newQuantity => do
    let (result, engine) ← engine.adjustReservation orderId accountId price newQuantity
    return (.adjusted result, engine)
  | .restoreReservation orderId accountId priorQuantity => do
    let (result, engine) ← engine.restoreReservation orderId accountId priorQuantity
    return (.updated result, engine)
  | .cancelReservation orderId accountId => do
    let (result, engine) ← engine.cancelReservation orderId accountId
    return (.released result, engine)

/-- An engine as a caller can obtain one. -/
inductive Built : RiskEngine ACCOUNTS ORDERS → Prop where
  | new : Built (RiskEngine.new ACCOUNTS ORDERS)
  | fromState {state : RiskEngineState} {engine : RiskEngine ACCOUNTS ORDERS}
      (h : RiskEngine.fromState ACCOUNTS ORDERS state = .ok (.ok engine)) : Built engine

/-! ## The invariant -/

/-- Live and free slots share the slab, with the free ones on a list from `reservationFreeHead`.
The reservation index maps exactly the live order ids to their slots, and each reservation knows
the position of its entry; the account index maps exactly the registered ids. The totals of
every account are those of its live reservations. -/
structure Invariant (engine : RiskEngine ACCOUNTS ORDERS) : Prop where
  slots : ∃ live free, Slab.Rep engine.reservations engine.reservationFreeHead live free
  reservation : ∀ orderId slot, engine.reservationIndex.lookup orderId = some slot ↔
    ∃ r, engine.ReservesAt slot r ∧ r.orderId = orderId
  reservationEntry : ∀ pos key value, slot engine.reservationIndex pos = some (key, value) →
    ∃ slot r, engine.ReservesAt slot r ∧ r.orderId = key ∧ r.indexSlot.val = pos ∧ value = slot + 1
  indexSlot : ∀ slot r, engine.ReservesAt slot r →
    engine.reservationIndex.findSlot r.orderId = some r.indexSlot.val
  registered : ∀ id slot, engine.accountSlot id = some slot ↔
    ∃ account, engine.accounts[slot]? = some (some account) ∧ account.id = id
  accountEntry : ∀ pos key value, slot engine.accountIndex pos = some (key, value) →
    ∃ (slot : ℕ) (account : AccountState), engine.accounts[slot]? = some (some account) ∧
      accountKey account.id = key ∧ value = slot + 1
  account : ∀ (slot : ℕ) (account : AccountState), engine.accounts[slot]? = some (some account) →
    AccountBalanced engine.liveReservations account

end RiskEngine

theorem AccountBalanced.perm {rs rs' : List ReservationRiskState} {account : AccountRiskState}
    (h : AccountBalanced rs account) (hperm : rs.Perm rs') : AccountBalanced rs' account where
  reserved := by
    intro side
    rw [h.reserved]
    exact (hperm.map _).sum_eq
  openOrders := by
    rw [h.openOrders]
    exact hperm.countP_eq _
  openOrders_le := h.openOrders_le

namespace RiskEngine

variable {engine : RiskEngine ACCOUNTS ORDERS} {state : RiskEngineState}

theorem Represents.invariant (hA : ACCOUNTS * indexPlanes ≤ 2 ^ 63) (hR : ORDERS * indexPlanes ≤ 2 ^ 63)
    (h : engine.Represents state) (hbalanced : state.Balanced) : engine.Invariant := by
  have hperm := h.liveReservations_perm
  have hmem (slot : ℕ) (account : AccountState)
      (haccount : engine.accounts[slot]? = some (some account)) : account ∈ state.accounts :=
    h.mem_of_account haccount
  obtain ⟨accountCells, cells, free, hrep⟩ := h
  obtain ⟨place, hreservations⟩ := hrep.reservations
  obtain ⟨place', haccounts⟩ := hrep.accounts
  have hslab := hreservations.slab
  refine ⟨⟨cells, free, hslab⟩, ?_, ?_, ?_, ?_, ?_, ?_⟩
  · intro orderId slot
    rw [hreservations.index.lookup_eq_some hR]
    simp only [ReservesAt, hslab.slot_eq_live]
  · intro pos key value hentry
    obtain ⟨⟨slot, ⟨r, hcell, rfl⟩, rfl⟩, hplace⟩ := (hreservations.index.table.entry pos key value).mp hentry
    exact ⟨slot, r, hslab.slot_eq_live.mpr hcell, rfl, (hreservations.placed _ hcell).trans hplace, rfl⟩
  · intro slot r hreserves
    have hcell := hslab.slot_eq_live.mp hreserves
    have hstored : ∃ s, (∃ r', (s, r') ∈ cells ∧ r'.orderId = r.orderId) ∧ slot + 1 = s + 1 :=
      ⟨slot, ⟨r, hcell, rfl⟩, rfl⟩
    have hpos := hreservations.index.capacity_pos ⟨r, hcell, rfl⟩
    unfold ProbeIndex.findSlot
    rw [if_neg hpos.ne', hreservations.index.table.probe_stored hR (ProbeIndex.probeStart_lt hpos) hstored,
      hreservations.placed _ hcell]
  · intro id slot
    show engine.accountIndex.lookup (accountKey id) = some slot ↔ _
    rw [haccounts.index.lookup_eq_some hA]
    simp only [haccounts.slot, accountKey_injective.eq_iff]
  · intro pos key value hentry
    obtain ⟨⟨slot, ⟨account, hcell, rfl⟩, rfl⟩, _⟩ := (haccounts.index.table.entry pos key value).mp hentry
    exact ⟨slot, account, (haccounts.slot slot account).mpr hcell, rfl, rfl⟩
  · intro slot account haccount
    exact (hbalanced.account account (hmem slot account haccount)).perm hperm.symm

/-! ## Runs -/

/-- The engine represents a balanced state. -/
def Sound (engine : RiskEngine ACCOUNTS ORDERS) : Prop :=
  ∃ state : RiskEngineState, engine.Represents state ∧ state.Balanced

theorem Built.sound (hA : ACCOUNTS * indexPlanes ≤ 2 ^ 32) (hR : ORDERS * indexPlanes ≤ 2 ^ 32)
    (h : engine.Built) : engine.Sound := by
  cases h with
  | new => exact ⟨_, Represents.new ACCOUNTS ORDERS, .empty⟩
  | @fromState state _ hstate =>
    obtain ⟨result, hresult, hspec⟩ := RiskEngine.fromState_spec (addressable hA) (addressable hR) state
    rw [hstate] at hresult
    obtain ⟨hrestorable, hrep⟩ := hspec engine (Except.ok.inj hresult).symm
    exact ⟨state, hrep, hrestorable.consistent.balanced⟩

/-- Every call returns and leaves a sound engine, and a rejected call changes nothing. -/
theorem Sound.call (hA : ACCOUNTS * indexPlanes ≤ 2 ^ 32) (hR : ORDERS * indexPlanes ≤ 2 ^ 32)
    (h : engine.Sound) (call : RiskCall) :
    ∃ reply engine', engine.call call = .ok (reply, engine') ∧ engine'.Sound ∧
      (reply.Rejects → engine' = engine) := by
  obtain ⟨state, hrep, hbalanced⟩ := h
  cases call with
  | registerAccount id limits =>
    obtain ⟨result, engine', hrun, hsound, hreject⟩ := (hrep.registerAccount hA id limits).preserves hrep
      hbalanced fun _ _ hok ↦ hbalanced.registerAccount hok
    refine ⟨.registered result, engine', ?_, hsound, fun ⟨reason, hreason⟩ ↦ hreject reason hreason⟩
    rw [RiskEngine.call, hrun]
    rfl
  | setKillSwitch killed =>
    exact ⟨.switched, _, rfl, ⟨_, hrep.setKillSwitch killed, hbalanced.setKillSwitch killed⟩, False.elim⟩
  | setAccountKillSwitch accountId killed =>
    obtain ⟨result, engine', hrun, hsound, hreject⟩ := (hrep.setAccountKillSwitch hA accountId
      killed).preserves hrep hbalanced fun _ _ hok ↦ hbalanced.setAccountKillSwitch hok
    refine ⟨.updated result, engine', ?_, hsound, fun ⟨reason, hreason⟩ ↦ hreject reason hreason⟩
    rw [RiskEngine.call, hrun]
    rfl
  | checkAndReserve order =>
    obtain ⟨result, engine', hrun, hsound, hreject⟩ := (hrep.checkAndReserve hA hR order).preserves hrep
      hbalanced fun _ _ hok ↦ hbalanced.checkAndReserve hok
    refine ⟨.updated result, engine', ?_, hsound, fun ⟨reason, hreason⟩ ↦ hreject reason hreason⟩
    rw [RiskEngine.call, hrun]
    rfl
  | settle orderId filledQuantity =>
    obtain ⟨result, engine', hrun, hsound, hreject⟩ := (hrep.settle hA hR orderId
      filledQuantity).preserves hrep hbalanced fun _ _ hok ↦ hbalanced.settle hok
    refine ⟨.updated result, engine', ?_, hsound, fun ⟨reason, hreason⟩ ↦ hreject reason hreason⟩
    rw [RiskEngine.call, hrun]
    rfl
  | recordFill orderId filledQuantity =>
    obtain ⟨result, engine', hrun, hsound, hreject⟩ := (hrep.recordFill hA hR orderId
      filledQuantity).preserves hrep hbalanced fun _ _ hok ↦ hbalanced.recordFill hok
    refine ⟨.updated result, engine', ?_, hsound, fun ⟨reason, hreason⟩ ↦ hreject reason hreason⟩
    rw [RiskEngine.call, hrun]
    rfl
  | adjustReservation orderId accountId price newQuantity =>
    obtain ⟨result, engine', hrun, hsound, hreject⟩ := (hrep.adjustReservation hA hR orderId accountId
      price newQuantity).preserves hrep hbalanced fun _ _ hok ↦ hbalanced.adjustReservation hok
    refine ⟨.adjusted result, engine', ?_, hsound, fun ⟨reason, hreason⟩ ↦ hreject reason hreason⟩
    rw [RiskEngine.call, hrun]
    rfl
  | restoreReservation orderId accountId priorQuantity =>
    obtain ⟨result, engine', hrun, hsound, hreject⟩ := (hrep.restoreReservation hA hR orderId accountId
      priorQuantity).preserves hrep hbalanced fun _ _ hok ↦ hbalanced.restoreReservation hok
    refine ⟨.updated result, engine', ?_, hsound, fun ⟨reason, hreason⟩ ↦ hreject reason hreason⟩
    rw [RiskEngine.call, hrun]
    rfl
  | cancelReservation orderId accountId =>
    obtain ⟨result, engine', hrun, hsound, hreject⟩ := (hrep.cancelReservation hA hR orderId
      accountId).preserves hrep hbalanced fun _ _ hok ↦ hbalanced.cancelReservation hok
    refine ⟨.released result, engine', ?_, hsound, fun ⟨reason, hreason⟩ ↦ hreject reason hreason⟩
    rw [RiskEngine.call, hrun]
    rfl

end RiskEngine

/-- No sequence of calls on a built engine faults; the invariant holds after each of them, and a
rejected call leaves the engine as it was. -/
theorem riskEngine_invariant_of_calls (hA : ACCOUNTS * 2 ≤ 2 ^ 32) (hR : ORDERS * 2 ≤ 2 ^ 32)
    {engine : RiskEngine ACCOUNTS ORDERS} (hbuilt : engine.Built) (calls : List RiskCall) :
    ∃ replies engine', execute RiskEngine.call engine calls = .ok (replies, engine') ∧
      engine'.Invariant ∧ ∀ call, ∃ reply engine'', engine'.call call = .ok (reply, engine'') ∧
        (reply.Rejects → engine'' = engine') := by
  have hstep (e : RiskEngine ACCOUNTS ORDERS) (h : e.Sound) (call : RiskCall) (_ : call ∈ calls) :
      ∃ reply e', e.call call = .ok (reply, e') ∧ e'.Sound := by
    obtain ⟨reply, e', hrun, hsound, _⟩ := h.call hA hR call
    exact ⟨reply, e', hrun, hsound⟩
  obtain ⟨replies, engine', hrun, hsound⟩ := execute_invariant calls hstep (hbuilt.sound hA hR)
  refine ⟨replies, engine', hrun, ?_, ?_⟩
  · obtain ⟨state, hrep, hbalanced⟩ := hsound
    exact hrep.invariant (addressable hA) (addressable hR) hbalanced
  · intro call
    obtain ⟨reply, engine'', hcall, _, hreject⟩ := hsound.call hA hR call
    exact ⟨reply, engine'', hcall, hreject⟩

theorem riskEngine_invariant_after_amendment :
    ∃ replies engine', execute RiskEngine.call (RiskEngine.new 2 3)
        [.registerAccount 7 ⟨10, 1000, 10, 4, ⟨0, by decide⟩, ⟨500, by decide⟩⟩,
          .checkAndReserve ⟨1, 7, 1, ⟨100, by decide⟩, 5, 1, .buy, .gtc⟩,
          .adjustReservation 1 7 ⟨100, by decide⟩ 0,
          .restoreReservation 1 7 (2 ^ 64 - 1),
          .recordFill 1 3] = .ok (replies, engine') ∧
      engine'.Invariant ∧ ∀ call, ∃ reply engine'', engine'.call call = .ok (reply, engine'') ∧
        (reply.Rejects → engine'' = engine') :=
  riskEngine_invariant_of_calls (by decide) (by decide) .new _

end DeterministicExchange.Risk
