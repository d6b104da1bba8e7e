import DeterministicExchange.Gateway.BookEffect
import DeterministicExchange.Gateway.History
import DeterministicExchange.Model.BookRefinement

/-!
# What no command changes

A gateway keeps its instrument, and its accounts keep their ids and limits. Two
gateways that agree keep agreeing.
-/

namespace DeterministicExchange

open Machine Risk

variable {ACCOUNTS RISK_ORDERS LEVELS ORDERS REPORTS : ℕ}

/-- The accounts with their limits, by id. -/
def Risk.RiskEngineState.profile (state : RiskEngineState) : List (AccountId × RiskLimits) :=
  state.accounts.map fun account ↦ (account.id, account.limits)

/-- The instrument, and the accounts with their limits. -/
def Gateway.profile (gateway : Gateway ACCOUNTS RISK_ORDERS LEVELS ORDERS) :
    InstrumentId × List (AccountId × RiskLimits) :=
  (gateway.book.instrument, gateway.risk.exportState.profile)

namespace Logical.Gateway

def profile (gateway : Logical.Gateway) : InstrumentId × List (AccountId × RiskLimits) :=
  (gateway.book.instrument, gateway.risk.profile)

variable {gateway : Logical.Gateway} {command : Command}

theorem BookEffect.instrument {capacity : ℕ} {book book' : Logical.Book} {result : Result}
    {reports : List ExecutionReport}
    (h : BookEffect LEVELS ORDERS capacity book command result reports book') :
    book'.instrument = book.instrument := by
  cases h with
  | submitted hsubmit => exact Model.submit_instrument hsubmit
  | cancelled hcancel => exact Model.cancel_instrument hcancel
  | replaced hreplace => exact Model.replace_instrument hreplace
  | rejected _ _ => rfl

/-- Equal profiles with the kill switches are equal without. -/
theorem profile_of_kept {state state' : RiskEngineState}
    (h : state'.accounts.map AccountRiskState.profile = state.accounts.map AccountRiskState.profile) :
    state'.profile = state.profile := by
  have hdrop (accounts : List AccountRiskState) :
      accounts.map (fun account ↦ (account.id, account.limits)) =
        (accounts.map AccountRiskState.profile).map fun profile ↦ (profile.1, profile.2.1) := by
    rw [List.map_map]
    rfl
  unfold RiskEngineState.profile
  rw [hdrop, h, ← hdrop]

theorem CommandStep.profile {outcome : Result × Logical.Gateway × List ExecutionReport}
    (hstep : CommandStep LEVELS ORDERS gateway command outcome) :
    outcome.2.1.risk.profile = gateway.risk.profile := by
  cases hstep with
  | outOfSequence _ => rfl
  | exhausted _ _ => rfl
  | @newOrder admitted order outcome hadmitted _ _ hstep =>
    have hrisk : admitted.risk = gateway.risk := by rw [hadmitted.rest]
    rw [← hrisk]
    cases hstep with
    | stale _ => rfl
    | refused _ _ => rfl
    | unplaced _ _ => rfl
    | accepted _ _ _ _ htraded => exact profile_of_kept htraded.kept.profiles
  | @cancelOrder admitted cancel outcome hadmitted _ _ hstep =>
    have hrisk : admitted.risk = gateway.risk := by rw [hadmitted.rest]
    rw [← hrisk]
    cases hstep with
    | refused _ _ => rfl
    | unplaced _ _ => rfl
    | accepted _ _ _ _ hamended => exact profile_of_kept hamended.kept.profiles
  | @replaceOrder admitted replace outcome hadmitted _ _ hstep =>
    have hrisk : admitted.risk = gateway.risk := by rw [hadmitted.rest]
    rw [← hrisk]
    cases hstep with
    | refused _ _ => rfl
    | unplaced _ _ => rfl
    | accepted _ _ _ _ hamended => exact profile_of_kept hamended.kept.profiles

end Logical.Gateway

namespace Gateway

variable {gateway gateway' : Gateway ACCOUNTS RISK_ORDERS LEVELS ORDERS} {logical : Logical.Gateway}

theorem Represents.profile (h : gateway.Represents logical) : gateway.profile = logical.profile := by
  obtain ⟨place, views, _, hbook⟩ := h.book
  unfold Gateway.profile Logical.Gateway.profile
  rw [h.risk.exportState, ← hbook]
  rfl

theorem Represents.profile_processCommand (hc : Capacities ACCOUNTS RISK_ORDERS LEVELS ORDERS)
    (h : gateway.Represents logical) (hinvariant : logical.Invariant LEVELS ORDERS) {command : Command}
    {reports reports' : ReportBuffer REPORTS} {result : Except GatewayError GatewayOutcome}
    (hrun : gateway.processCommand command reports = .ok (result, gateway', reports')) :
    gateway'.profile = gateway.profile := by
  obtain ⟨gateway₁, reports₁, hrun₁, hrep, _⟩ := h.processCommand hc command reports
  simp only [hrun, Except.ok.injEq, Prod.mk.injEq] at hrun₁
  obtain ⟨_, rfl, _⟩ := hrun₁
  rw [hrep.profile, h.profile]
  have hbook := (hinvariant.bookEffect hc.orders RISK_ORDERS REPORTS command).instrument
  have hrisk := (hinvariant.processCommand hc.orders RISK_ORDERS REPORTS command).profile
  unfold Logical.Gateway.profile
  rw [hbook, hrisk]

/-- Whatever the commands of a history, the profile is that of its first gateway. -/
theorem History.profile (hc : Capacities ACCOUNTS RISK_ORDERS LEVELS ORDERS) {commands : List Command}
    (hhistory : History REPORTS gateway commands gateway') (h : gateway.Represents logical)
    (hinvariant : logical.Invariant LEVELS ORDERS) : gateway'.profile = gateway.profile := by
  induction hhistory generalizing logical with
  | nil => rfl
  | cons haccepts hrun _ ih =>
    obtain ⟨_, _, logical₁, hrep₁, hinvariant₁, _⟩ := h.accepted hc hinvariant haccepts hrun
    exact (ih hrep₁ hinvariant₁).trans (h.profile_processCommand hc hinvariant hrun)

/-- A history counts its commands. -/
theorem History.expectedSequence (hc : Capacities ACCOUNTS RISK_ORDERS LEVELS ORDERS)
    {commands : List Command} (hhistory : History REPORTS gateway commands gateway') (h : gateway.Sound) :
    gateway'.expectedSequence.val = gateway.expectedSequence.val + commands.length := by
  obtain ⟨logical, hrep, hinvariant⟩ := h
  obtain ⟨logical', hrep', _, hnext, _⟩ := hrep.history hc hhistory hinvariant
  rw [hrep.expectedSequence, hrep'.expectedSequence, hnext]

/-- A history determines the gateway that it leads to. -/
theorem History.unique {commands : List Command} {last last' : Gateway ACCOUNTS RISK_ORDERS LEVELS ORDERS}
    (h : History REPORTS gateway commands last) (h' : History REPORTS gateway commands last') :
    last = last' := by
  induction h with
  | nil =>
    cases h'
    rfl
  | cons _ hrun _ ih =>
    cases h' with
    | cons _ hrun' hrest' =>
      -- A command clears the buffer that it is given.
      obtain ⟨_, hnext⟩ := Prod.mk.inj (Except.ok.inj (hrun.symm.trans hrun'))
      obtain ⟨rfl, _⟩ := Prod.mk.inj hnext
      exact ih hrest'

theorem Started.expectedSequence (h : gateway.Started) : gateway.expectedSequence.val = 1 := by
  obtain ⟨risk, instrument, _, hgateway⟩ := h
  rw [hgateway]
  rfl

/-! ## Twins -/

/-- Gateways that represent one logical gateway, under its invariant. -/
def Twins (gateway gateway' : Gateway ACCOUNTS RISK_ORDERS LEVELS ORDERS) : Prop :=
  ∃ logical : Logical.Gateway, gateway.Represents logical ∧ gateway'.Represents logical ∧
    logical.Invariant LEVELS ORDERS

theorem Twins.symm (h : gateway.Twins gateway') : gateway'.Twins gateway := by
  obtain ⟨logical, hrep, hrep', hinvariant⟩ := h
  exact ⟨logical, hrep', hrep, hinvariant⟩

theorem Twins.profile (h : gateway.Twins gateway') : gateway'.profile = gateway.profile := by
  obtain ⟨logical, hrep, hrep', _⟩ := h
  rw [hrep.profile, hrep'.profile]

theorem Twins.expectedSequence (h : gateway.Twins gateway') :
    gateway.expectedSequence = gateway'.expectedSequence := by
  obtain ⟨logical, hrep, hrep', _⟩ := h
  rw [hrep.expectedSequence, hrep'.expectedSequence]

theorem Twins.exportState (hc : Capacities ACCOUNTS RISK_ORDERS LEVELS ORDERS) (h : gateway.Twins gateway') :
    ∃ state, gateway.exportState = .ok state ∧ gateway'.exportState = .ok state := by
  obtain ⟨logical, hrep, hrep', _⟩ := h
  exact ⟨_, hrep.exportState hc.index.addressable, hrep'.exportState hc.index.addressable⟩

/-- Twins have the same histories, and stay twins. -/
theorem Twins.history (hc : Capacities ACCOUNTS RISK_ORDERS LEVELS ORDERS) (h : gateway.Twins gateway')
    {commands : List Command} {last : Gateway ACCOUNTS RISK_ORDERS LEVELS ORDERS}
    (hhistory : History REPORTS gateway commands last) :
    ∃ last', History REPORTS gateway' commands last' ∧ last.Twins last' := by
  obtain ⟨logical, hrep, hrep', hinvariant⟩ := h
  obtain ⟨logical', hlast, hinvariant', _, htwins⟩ := hrep.history hc hhistory hinvariant
  obtain ⟨last', hhistory', hlast'⟩ := htwins gateway' hrep'
  exact ⟨last', hhistory', logical', hlast, hlast', hinvariant'⟩

end Gateway

end DeterministicExchange
