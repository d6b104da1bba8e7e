import DeterministicExchange.Book.Invariant
import DeterministicExchange.Gateway.Restore

/-!
# Reachable gateways

A gateway starts empty over a freshly registered risk engine, or from a restored
state, and processes commands in any order. `Sessions` collects the gateways met
on the way, over commands that a side condition permits. Every one of them
represents a logical gateway whose risk and book agree.
-/

namespace DeterministicExchange

open Machine Book Risk

variable {ACCOUNTS RISK_ORDERS LEVELS ORDERS_PER_LEVEL : ℕ}

namespace Gateway

/-- A gateway over a risk engine on which only registration and the kill switches were called. -/
def Started (gateway : Gateway ACCOUNTS RISK_ORDERS LEVELS ORDERS_PER_LEVEL) : Prop :=
  ∃ risk instrument, RiskEngine.Fresh risk ∧ gateway = Gateway.new risk instrument

def Restored (gateway : Gateway ACCOUNTS RISK_ORDERS LEVELS ORDERS_PER_LEVEL) : Prop :=
  ∃ state, fromState ACCOUNTS RISK_ORDERS state = .ok (.ok gateway)

/-- The gateways met while processing permitted commands, whatever each of them returns. -/
inductive Sessions (initial : Gateway ACCOUNTS RISK_ORDERS LEVELS ORDERS_PER_LEVEL → Prop)
    (permitted : Gateway ACCOUNTS RISK_ORDERS LEVELS ORDERS_PER_LEVEL → Command → Prop) :
    Gateway ACCOUNTS RISK_ORDERS LEVELS ORDERS_PER_LEVEL → Prop where
  | start {gateway : Gateway ACCOUNTS RISK_ORDERS LEVELS ORDERS_PER_LEVEL} (h : initial gateway) :
      Sessions initial permitted gateway
  | step {gateway gateway' : Gateway ACCOUNTS RISK_ORDERS LEVELS ORDERS_PER_LEVEL} {REPORTS : ℕ}
      {reports reports' : ReportBuffer REPORTS} {command : Command}
      {result : Except GatewayError GatewayOutcome} (h : Sessions initial permitted gateway)
      (hpermitted : permitted gateway command)
      (hrun : gateway.processCommand command reports = .ok (result, gateway', reports')) :
      Sessions initial permitted gateway'

def Reachable : Gateway ACCOUNTS RISK_ORDERS LEVELS ORDERS_PER_LEVEL → Prop :=
  Sessions (fun gateway ↦ gateway.Started ∨ gateway.Restored) fun _ _ ↦ True

def ReachableFromNew : Gateway ACCOUNTS RISK_ORDERS LEVELS ORDERS_PER_LEVEL → Prop :=
  Sessions Started fun _ _ ↦ True

end Gateway

/-! ## What reachable gateways represent -/

/-- A risk engine before its first order. -/
structure Risk.RiskEngineState.Unused (state : RiskEngineState) : Prop where
  consistent : state.Consistent
  reservations : state.reservations = []
  watermark : state.maximumOrderId = none
  positions : ∀ account ∈ state.accounts, account.settledPosition.val = 0

theorem Risk.RiskEngineState.Unused.registerAccount {state state' : RiskEngineState} (h : state.Unused)
    {id : AccountId} {limits : RiskLimits}
    (hok : state.registerAccount ACCOUNTS id limits = .ok ((), state')) : state'.Unused := by
  obtain ⟨hconsistent, hreservations, hwatermark⟩ := h.consistent.registerAccount hok
  refine ⟨hconsistent, hreservations.trans h.reservations, hwatermark.trans h.watermark, ?_⟩
  intro account' hmem'
  rcases RiskEngineState.positions_registerAccount hok account' hmem' with hzero | hmem
  · exact hzero
  · exact h.positions account' hmem

theorem Risk.RiskEngine.Fresh.represents (hA : ACCOUNTS * indexPlanes ≤ 2 ^ 32)
    {risk : RiskEngine ACCOUNTS RISK_ORDERS} (h : RiskEngine.Fresh risk) :
    ∃ state, risk.Represents state ∧ state.Unused := by
  induction h with
  | new => exact ⟨_, RiskEngine.Represents.new ACCOUNTS RISK_ORDERS, .empty, rfl, rfl,
      by simp [RiskEngineState.empty]⟩
  | @registerAccount engine engine' id limits result _ hrun ih =>
    obtain ⟨state, hrep, hunused⟩ := ih
    have himplements := hrep.registerAccount hA id limits
    cases hspec : state.registerAccount ACCOUNTS id limits with
    | error reason =>
      rw [himplements.of_error hspec] at hrun
      obtain ⟨_, rfl⟩ := Prod.ext_iff.mp (Except.ok.inj hrun)
      exact ⟨state, hrep, hunused⟩
    | ok outcome =>
      obtain ⟨_, state'⟩ := outcome
      obtain ⟨engine₁, hrun₁, hrep₁⟩ := himplements.of_ok hspec
      rw [hrun₁] at hrun
      obtain ⟨_, rfl⟩ := Prod.ext_iff.mp (Except.ok.inj hrun)
      exact ⟨state', hrep₁, hunused.registerAccount hspec⟩
  | setKillSwitch _ killed ih =>
    obtain ⟨state, hrep, hunused⟩ := ih
    exact ⟨_, hrep.setKillSwitch killed, hunused.consistent.setKillSwitch killed, hunused.reservations,
      hunused.watermark, hunused.positions⟩
  | @setAccountKillSwitch engine engine' id killed result _ hrun ih =>
    obtain ⟨state, hrep, hunused⟩ := ih
    have himplements := hrep.setAccountKillSwitch hA id killed
    cases hspec : state.setAccountKillSwitch id killed with
    | error reason =>
      rw [himplements.of_error hspec] at hrun
      obtain ⟨_, rfl⟩ := Prod.ext_iff.mp (Except.ok.inj hrun)
      exact ⟨state, hrep, hunused⟩
    | ok outcome =>
      obtain ⟨_, state'⟩ := outcome
      obtain ⟨engine₁, hrun₁, hrep₁⟩ := himplements.of_ok hspec
      rw [hrun₁] at hrun
      obtain ⟨_, rfl⟩ := Prod.ext_iff.mp (Except.ok.inj hrun)
      obtain ⟨hconsistent, hreservations, hwatermark⟩ := hunused.consistent.setAccountKillSwitch hspec
      refine ⟨state', hrep₁, hconsistent, hreservations.trans hunused.reservations,
        hwatermark.trans hunused.watermark, ?_⟩
      intro account' hmem'
      obtain ⟨account, hmem, hsame⟩ :=
        hunused.consistent.ordered.positions_setAccountKillSwitch hspec account' hmem'
      rw [hsame]
      exact hunused.positions account hmem

theorem Risk.RiskEngineState.Unused.invariant {state : RiskEngineState} (h : state.Unused)
    (LEVELS ORDERS : ℕ) (instrument : InstrumentId) :
    (Logical.Gateway.new state instrument).Invariant LEVELS ORDERS := by
  have hentries : (Logical.Gateway.new state instrument).book.entries = [] := rfl
  refine ⟨h.consistent, Logical.Book.Restorable.empty instrument, ?_, Nat.one_pos, ?_, ?_⟩
  · rw [hentries]
    exact List.Perm.of_eq h.reservations
  · rw [hentries]
    simp
  · intro maximum hmaximum
    have hnone : state.maximumOrderId = none := h.watermark
    rw [show (Logical.Gateway.new state instrument).risk = state from rfl, hnone] at hmaximum
    simp at hmaximum

namespace Gateway

variable {gateway : Gateway ACCOUNTS RISK_ORDERS LEVELS ORDERS_PER_LEVEL}

/-- A gateway that represents an agreeing logical gateway. -/
def Sound (gateway : Gateway ACCOUNTS RISK_ORDERS LEVELS ORDERS_PER_LEVEL) : Prop :=
  ∃ logical : Logical.Gateway, gateway.Represents logical ∧ logical.Invariant LEVELS ORDERS_PER_LEVEL

theorem Started.represents (hc : Capacities ACCOUNTS RISK_ORDERS LEVELS ORDERS_PER_LEVEL)
    (h : gateway.Started) :
    ∃ risk instrument, risk.Unused ∧ gateway.Represents (Logical.Gateway.new risk instrument) := by
  obtain ⟨risk, instrument, hfresh, rfl⟩ := h
  obtain ⟨state, hrep, hunused⟩ := hfresh.represents hc.accounts
  exact ⟨state, instrument, hunused, hrep, OrderBook.Represents.new instrument, rfl, rfl⟩

theorem Started.sound (hc : Capacities ACCOUNTS RISK_ORDERS LEVELS ORDERS_PER_LEVEL)
    (h : gateway.Started) : gateway.Sound := by
  obtain ⟨risk, instrument, hunused, hrep⟩ := h.represents hc
  exact ⟨_, hrep, hunused.invariant LEVELS ORDERS_PER_LEVEL instrument⟩

theorem Restored.sound (hc : Capacities ACCOUNTS RISK_ORDERS LEVELS ORDERS_PER_LEVEL)
    (h : gateway.Restored) : gateway.Sound := by
  obtain ⟨state, hstate⟩ := h
  obtain ⟨result, hresult, hspec⟩ := fromState_spec hc.index.addressable state
  rw [hstate] at hresult
  obtain ⟨logical, _, hrestorable, hrep⟩ := hspec gateway (Except.ok.inj hresult).symm
  exact ⟨logical, hrep, hrestorable.invariant⟩

/-- A command on a represented gateway returns, and ends in one of the described ways. -/
theorem Represents.commandStep (hc : Capacities ACCOUNTS RISK_ORDERS LEVELS ORDERS_PER_LEVEL)
    {logical : Logical.Gateway} (h : gateway.Represents logical)
    (hinvariant : logical.Invariant LEVELS ORDERS_PER_LEVEL) (command : Command) {REPORTS : ℕ}
    (reports : ReportBuffer REPORTS) :
    ∃ result gateway' reports' logical', gateway.processCommand command reports =
        .ok (result, gateway', reports') ∧ gateway'.Represents logical' ∧
      logical.CommandStep LEVELS ORDERS_PER_LEVEL command (result, logical', reports'.entries) := by
  obtain ⟨gateway', reports', hrun, hrep, hentries⟩ := h.processCommand hc command reports
  have hstep := hinvariant.processCommand hc.orders RISK_ORDERS REPORTS command
  refine ⟨_, gateway', reports', _, hrun, hrep, ?_⟩
  rw [hentries]
  exact hstep

/-- What holds at the start and is kept by every permitted command holds in every session. -/
theorem Sessions.represents (hc : Capacities ACCOUNTS RISK_ORDERS LEVELS ORDERS_PER_LEVEL)
    {initial : Gateway ACCOUNTS RISK_ORDERS LEVELS ORDERS_PER_LEVEL → Prop}
    {permitted : Gateway ACCOUNTS RISK_ORDERS LEVELS ORDERS_PER_LEVEL → Command → Prop}
    {property : Logical.Gateway → Prop}
    (hinitial : ∀ gateway, initial gateway → ∃ logical : Logical.Gateway, gateway.Represents logical ∧
      logical.Invariant LEVELS ORDERS_PER_LEVEL ∧ property logical)
    (hstep : ∀ (gateway : Gateway ACCOUNTS RISK_ORDERS LEVELS ORDERS_PER_LEVEL)
      (logical : Logical.Gateway) (command : Command) outcome, gateway.Represents logical →
      logical.Invariant LEVELS ORDERS_PER_LEVEL → permitted gateway command → property logical →
      logical.CommandStep LEVELS ORDERS_PER_LEVEL command outcome → property outcome.2.1)
    (h : Sessions initial permitted gateway) :
    ∃ logical : Logical.Gateway, gateway.Represents logical ∧
      logical.Invariant LEVELS ORDERS_PER_LEVEL ∧ property logical := by
  induction h with
  | start h => exact hinitial _ h
  | @step gateway gateway' REPORTS reports reports' command result _ hpermitted hrun ih =>
    obtain ⟨logical, hrep, hinvariant, hproperty⟩ := ih
    obtain ⟨_, gateway₁, _, logical', hrun₁, hrep', hcommand⟩ :=
      hrep.commandStep hc hinvariant command reports
    rw [hrun] at hrun₁
    obtain ⟨_, hnext⟩ := Prod.ext_iff.mp (Except.ok.inj hrun₁)
    obtain rfl : gateway' = gateway₁ := (Prod.ext_iff.mp hnext).1
    exact ⟨logical', hrep', hcommand.invariant hinvariant,
      hstep gateway logical command _ hrep hinvariant hpermitted hproperty hcommand⟩

theorem Reachable.sound (hc : Capacities ACCOUNTS RISK_ORDERS LEVELS ORDERS_PER_LEVEL)
    (h : gateway.Reachable) : gateway.Sound := by
  have hsound : ∀ gateway : Gateway ACCOUNTS RISK_ORDERS LEVELS ORDERS_PER_LEVEL,
      gateway.Started ∨ gateway.Restored → ∃ logical : Logical.Gateway, gateway.Represents logical ∧
        logical.Invariant LEVELS ORDERS_PER_LEVEL ∧ True := by
    intro gateway hinitial
    obtain ⟨logical, hrep, hinvariant⟩ := hinitial.elim (Started.sound hc) (Restored.sound hc)
    exact ⟨logical, hrep, hinvariant, trivial⟩
  obtain ⟨logical, hrep, hinvariant, _⟩ := h.represents hc hsound fun _ _ _ _ _ _ _ _ _ ↦ trivial
  exact ⟨logical, hrep, hinvariant⟩

/-! ## A session

The smallest gateway, with one account and one resting order. -/

def sampleLimits : RiskLimits := ⟨10, 1000, 10, 5, ⟨1, by decide⟩, ⟨100, by decide⟩⟩

theorem sampleLimits_registered :
    ((RiskEngine.new 1 1).registerAccount 7 sampleLimits).toOption.isSome = true := by decide

def sampleRisk : RiskEngine 1 1 :=
  (((RiskEngine.new 1 1).registerAccount 7 sampleLimits).toOption.get sampleLimits_registered).2

def sampleStart : Gateway 1 1 1 1 := Gateway.new sampleRisk 1

theorem sampleStart_started : sampleStart.Started :=
  ⟨sampleRisk, 1, .registerAccount .new (Run.eq_ok_get sampleLimits_registered), rfl⟩

def sampleOrder : Command := .newOrder ⟨1, 7, 1, ⟨50, by decide⟩, 5, 1, .buy, .gtc⟩

theorem sampleOrder_returns :
    (sampleStart.processCommand sampleOrder (ReportBuffer.new 1)).toOption.isSome = true := by
  decide

def sampleGateway : Gateway 1 1 1 1 :=
  ((sampleStart.processCommand sampleOrder (ReportBuffer.new 1)).toOption.get sampleOrder_returns).2.1

theorem sampleGateway_exports : sampleGateway.exportState.toOption.isSome = true := by decide

theorem sampleGateway_reachableFromNew : sampleGateway.ReachableFromNew :=
  .step (.start sampleStart_started) trivial (Run.eq_ok_get sampleOrder_returns)

theorem ReachableFromNew.reachable (h : gateway.ReachableFromNew) : gateway.Reachable := by
  induction h with
  | start h => exact .start (.inl h)
  | step _ _ hrun ih => exact .step ih trivial hrun

end Gateway

end DeterministicExchange
