import DeterministicExchange.Events.Publication
import DeterministicExchange.Recovery.Replay

/-!
# Building an engine

`hft-engine` builds one engine per instrument: over freshly registered accounts,
or over the gateway that a snapshot and a journal tail recover. A build attaches
fresh queues, and numbers the journal from the next sequence of the gateway.
-/

namespace DeterministicExchange

open Machine Codec Risk Events Recovery

inductive ConfigError where
  | encoding
  | unsupportedVersion
  | nonCanonical
  | invalidCapacity
  | invalidAccounts
  | mismatch
  deriving DecidableEq, Repr

/-- The capacities are those of accounts, reservations, price levels, orders per level and reports. -/
structure EngineConfig where
  instrument : InstrumentId
  capacities : Vector ℕ 5
  accounts : List (AccountId × RiskLimits)
  deriving DecidableEq

/-- Two neighbours whose ids do not ascend. -/
def disordered : List (AccountId × RiskLimits) → Bool
  | first :: second :: accounts => decide (second.1 ≤ first.1) || disordered (second :: accounts)
  | _ => false

def EngineConfig.validate (config : EngineConfig) : Except ConfigError Unit :=
  if config.capacities.toList.contains 0 || decide (65534 < config.capacities[4]) then
    .error .invalidCapacity
  else if decide (config.capacities[0] < config.accounts.length) || disordered config.accounts ||
      config.accounts.any fun account ↦ decide (account.2.maxQuantity.val = 0) ||
        decide (account.2.maxOpenOrders.val = 0) ||
        decide (account.2.maximumPrice.val < account.2.minimumPrice.val) then .error .invalidAccounts
  else .ok ()

inductive BuildError where
  | zeroCapacity
  | registration (error : RegistrationError)
  | events (error : EventEngineConfigError)
  | storageAlreadyUsed
  | recovery (error : RecoveryError)
  | instrumentMismatch
  | configuration (error : ConfigError)
  deriving DecidableEq

/-- The journal of one engine, and whether a build has consumed it. -/
structure EngineStorage where
  journal : Journal.JournalChannel
  used : Bool

def EngineStorage.new : EngineStorage := ⟨Journal.JournalChannel.new, false⟩

/-- The only mutable access to a gateway: its event engine, the writer of its journal until admission
is closed, and the latch of a failure. -/
structure Engine (ACCOUNTS RISK_ORDERS LEVELS ORDERS BATCH : ℕ) where
  events : BoundedEventEngine ACCOUNTS RISK_ORDERS LEVELS ORDERS BATCH
  journal : Option Journal.JournalWriter
  failed : Bool
  configuration : EngineConfig

structure EngineParts (ACCOUNTS RISK_ORDERS LEVELS ORDERS BATCH : ℕ) where
  engine : Engine ACCOUNTS RISK_ORDERS LEVELS ORDERS BATCH
  journal : Journal.JournalReader

structure EngineBuilder (ACCOUNTS RISK_ORDERS LEVELS ORDERS : ℕ) where
  gateway : Gateway ACCOUNTS RISK_ORDERS LEVELS ORDERS
  configuration : EngineConfig

namespace EngineBuilder

variable {ACCOUNTS RISK_ORDERS LEVELS ORDERS : ℕ} (REPORTS : ℕ)

def validateCapacity (ACCOUNTS RISK_ORDERS LEVELS ORDERS REPORTS : ℕ) : Except BuildError Unit :=
  if ACCOUNTS = 0 ∨ RISK_ORDERS = 0 ∨ LEVELS = 0 ∨ ORDERS = 0 ∨ REPORTS = 0 then .error .zeroCapacity
  else .ok ()

/-- Registers the accounts in turn, up to the first refusal. -/
def registerAccounts : List (AccountId × RiskLimits) → RiskEngine ACCOUNTS RISK_ORDERS →
    Run (Except RegistrationError (RiskEngine ACCOUNTS RISK_ORDERS))
  | [], risk => .ok (.ok risk)
  | (account, limits) :: accounts, risk => do
    match ← risk.registerAccount account limits with
    | (.error error, _) => return .error error
    | (.ok (), risk) => registerAccounts accounts risk

/-- An engine over the registered accounts. -/
def new (instrument : InstrumentId) (accounts : List (AccountId × RiskLimits)) :
    Run (Except BuildError (EngineBuilder ACCOUNTS RISK_ORDERS LEVELS ORDERS)) :=
  match validateCapacity ACCOUNTS RISK_ORDERS LEVELS ORDERS REPORTS with
  | .error error => .ok (.error error)
  | .ok () => do
    match ← registerAccounts accounts (RiskEngine.new ACCOUNTS RISK_ORDERS) with
    | .error error => return .error (.registration error)
    | .ok risk =>
      let definitions := accounts.insertionSort fun a b ↦ a.1 ≤ b.1
      let configuration :=
        ⟨instrument, #v[ACCOUNTS, RISK_ORDERS, LEVELS, ORDERS, REPORTS], definitions⟩
      match EngineConfig.validate configuration with
      | .error error => return .error (.configuration error)
      | .ok () => return .ok ⟨Gateway.new risk instrument, configuration⟩

/-- An engine over a recovered gateway. -/
def restore (crc32c : Bytes → U32) (sha256 : Bytes → Digest) (instrument : InstrumentId)
    (snapshot tail : Bytes) : Run (Except BuildError (EngineBuilder ACCOUNTS RISK_ORDERS LEVELS ORDERS)) :=
  match validateCapacity ACCOUNTS RISK_ORDERS LEVELS ORDERS REPORTS with
  | .error error => .ok (.error error)
  | .ok () => do
    match ← recoverSnapshotAndTail crc32c sha256 REPORTS snapshot tail with
    | .error error => return .error (.recovery error)
    | .ok gateway =>
      if gateway.book.instrument ≠ instrument then return .error .instrumentMismatch
      else
        let accounts := gateway.risk.exportState.accounts.map fun account ↦ (account.id, account.limits)
        let configuration :=
          ⟨instrument, #v[ACCOUNTS, RISK_ORDERS, LEVELS, ORDERS, REPORTS], accounts⟩
        match EngineConfig.validate configuration with
        | .error error => return .error (.configuration error)
        | .ok () => return .ok ⟨gateway, configuration⟩

/-- Attaches the queues of the storage; the event queue is as fresh as the storage is. -/
def build (BATCH : ℕ) (builder : EngineBuilder ACCOUNTS RISK_ORDERS LEVELS ORDERS)
    (storage : EngineStorage) :
    Except BuildError (EngineParts ACCOUNTS RISK_ORDERS LEVELS ORDERS BATCH) × EngineStorage :=
  if storage.used then (.error .storageAlreadyUsed, storage)
  else
    let (writer, journal, channel) := storage.journal.split builder.gateway.expectedSequence
    match BoundedEventEngine.tryNew REPORTS BATCH builder.gateway with
    | .error error => (.error (.events error), { storage with journal := channel })
    | .ok events => (.ok ⟨⟨events, some writer, false, builder.configuration⟩, journal⟩, ⟨channel, true⟩)

/-! ## What a builder has checked -/

variable {REPORTS}

/-- The capacities of an engine are positive. -/
structure Sized (ACCOUNTS RISK_ORDERS LEVELS ORDERS REPORTS : ℕ) : Prop where
  accounts : 0 < ACCOUNTS
  riskOrders : 0 < RISK_ORDERS
  levels : 0 < LEVELS
  orders : 0 < ORDERS
  reports : 0 < REPORTS

theorem validateCapacity_eq_ok
    (h : validateCapacity ACCOUNTS RISK_ORDERS LEVELS ORDERS REPORTS = .ok ()) :
    Sized ACCOUNTS RISK_ORDERS LEVELS ORDERS REPORTS := by
  unfold validateCapacity at h
  split at h
  · simp at h
  · next hnonzero =>
    simp only [not_or] at hnonzero
    obtain ⟨haccounts, hriskOrders, hlevels, horders, hreports⟩ := hnonzero
    exact ⟨Nat.pos_of_ne_zero haccounts, Nat.pos_of_ne_zero hriskOrders, Nat.pos_of_ne_zero hlevels,
      Nat.pos_of_ne_zero horders, Nat.pos_of_ne_zero hreports⟩

theorem registerAccounts_fresh {accounts : List (AccountId × RiskLimits)}
    {risk risk' : RiskEngine ACCOUNTS RISK_ORDERS} (hfresh : RiskEngine.Fresh risk)
    (h : registerAccounts accounts risk = .ok (.ok risk')) : RiskEngine.Fresh risk' := by
  induction accounts generalizing risk with
  | nil =>
    obtain rfl := Except.ok.inj (Except.ok.inj h)
    exact hfresh
  | cons account accounts ih =>
    obtain ⟨⟨result, risk₁⟩, hregister, hrest⟩ := Run.bind_eq_ok.mp h
    cases result with
    | error error => simp at hrest
    | ok _ => exact ih (.registerAccount hfresh hregister) hrest

/-- A new builder has a gateway that has not seen a command yet. -/
theorem new_started {instrument : InstrumentId} {accounts : List (AccountId × RiskLimits)}
    {builder : EngineBuilder ACCOUNTS RISK_ORDERS LEVELS ORDERS}
    (h : new REPORTS instrument accounts = .ok (.ok builder)) :
    Sized ACCOUNTS RISK_ORDERS LEVELS ORDERS REPORTS ∧ builder.gateway.Started := by
  unfold new at h
  split at h
  · simp at h
  next hcapacity =>
  obtain ⟨registered, hregister, hrest⟩ := Run.bind_eq_ok.mp h
  split at hrest
  · simp at hrest
  next risk =>
  dsimp only at hrest
  split at hrest
  · simp at hrest
  obtain rfl := Except.ok.inj (Except.ok.inj hrest)
  exact ⟨validateCapacity_eq_ok hcapacity, risk, instrument, registerAccounts_fresh .new hregister, rfl⟩

end EngineBuilder

/-- What a history starting from a reachable gateway leads to is reachable. -/
theorem Gateway.Reachable.history {ACCOUNTS RISK_ORDERS LEVELS ORDERS REPORTS : ℕ}
    {gateway gateway' : Gateway ACCOUNTS RISK_ORDERS LEVELS ORDERS} {commands : List Command}
    (h : gateway.Reachable) (hhistory : Gateway.History REPORTS gateway commands gateway') :
    gateway'.Reachable := by
  induction hhistory with
  | nil => exact h
  | cons _ hrun _ ih => exact ih (.step h trivial hrun)

namespace EngineBuilder

variable {ACCOUNTS RISK_ORDERS LEVELS ORDERS REPORTS : ℕ}

theorem restore_reachable {crc32c : Bytes → U32} {sha256 : Bytes → Digest} {instrument : InstrumentId}
    {snapshot tail : Bytes} {builder : EngineBuilder ACCOUNTS RISK_ORDERS LEVELS ORDERS}
    (h : restore REPORTS crc32c sha256 instrument snapshot tail = .ok (.ok builder)) :
    Sized ACCOUNTS RISK_ORDERS LEVELS ORDERS REPORTS ∧ builder.gateway.Reachable := by
  unfold restore at h
  split at h
  · simp at h
  next hcapacity =>
  obtain ⟨recovered, hrecover, hrest⟩ := Run.bind_eq_ok.mp h
  split at hrest
  · simp at hrest
  next gateway =>
  split at hrest
  · simp at hrest
  dsimp only at hrest
  split at hrest
  · simp at hrest
  obtain rfl := Except.ok.inj (Except.ok.inj hrest)
  refine ⟨validateCapacity_eq_ok hcapacity, ?_⟩
  obtain ⟨decoded, _, commands, hdecode, _, _, _, hhistory⟩ := exists_history_of_recover hrecover
  apply Gateway.Reachable.history _ hhistory
  unfold decodeSnapshot at hdecode
  split at hdecode
  · simp at hdecode
  next state _ _ _ =>
  obtain ⟨result, hstate, hlast⟩ := Run.bind_eq_ok.mp hdecode
  split at hlast
  · simp at hlast
  obtain rfl := Except.ok.inj (Except.ok.inj hlast)
  exact .start (.inr ⟨state, hstate⟩)

/-! ## The smallest engine

One account, and room for one order. -/

theorem sampleBuilder_returns :
    ((new 1 1 [(7, Gateway.sampleLimits)] :
      Run (Except BuildError (EngineBuilder 1 1 1 1))).toOption.bind Except.toOption).isSome = true := by
  decide

def sampleBuilder : EngineBuilder 1 1 1 1 :=
  ((new 1 1 [(7, Gateway.sampleLimits)] :
    Run (Except BuildError (EngineBuilder 1 1 1 1))).toOption.bind Except.toOption).get sampleBuilder_returns

theorem sampleBuilder_new : new 1 1 [(7, Gateway.sampleLimits)] = .ok (.ok sampleBuilder) :=
  Run.eq_ok_ok_get sampleBuilder_returns

end EngineBuilder

end DeterministicExchange
