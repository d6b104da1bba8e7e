import DeterministicExchange.Gateway.Bisimulation
import DeterministicExchange.Gateway.Lifecycle

/-!
# Histories of accepted commands

A history is a run of commands that all carry the expected sequence. Its commands
are numbered without a gap, each of them ends as business does, and gateways
that represent the same logical gateway share all of their histories.
-/

namespace DeterministicExchange

open Machine Book Risk

namespace Logical.Gateway

variable {LEVELS ORDERS : ℕ} {gateway : Gateway} {command : Command}
  {outcome : Result × Gateway × List ExecutionReport}

/-- Accepted by the gateway, or rejected by risk or by the book. -/
def Business (result : Result) : Prop :=
  match result with
  | .ok _ | .error (.risk _) | .error (.book _) => True
  | .error _ => False

theorem CommandStep.business (hstep : CommandStep LEVELS ORDERS gateway command outcome)
    (haccepts : gateway.Accepts command) : Business outcome.1 := by
  cases hstep with
  | outOfSequence hsequence => exact absurd haccepts.sequence hsequence
  | exhausted _ hmaximum => exact absurd hmaximum haccepts.not_exhausted
  | newOrder _ _ _ hstep => cases hstep <;> trivial
  | cancelOrder _ _ _ hstep => cases hstep <;> trivial
  | replaceOrder _ _ _ hstep => cases hstep <;> trivial

theorem CommandStep.next_sequence (hstep : CommandStep LEVELS ORDERS gateway command outcome)
    (haccepts : gateway.Accepts command) :
    outcome.2.1.expectedSequence.val = gateway.expectedSequence.val + 1 := by
  cases hstep with
  | outOfSequence hsequence => exact absurd haccepts.sequence hsequence
  | exhausted _ hmaximum => exact absurd hmaximum haccepts.not_exhausted
  | newOrder hadmitted _ _ hstep =>
    cases hstep with
    | stale _ | refused _ _ | unplaced _ _ => exact hadmitted.next
    | accepted _ _ _ _ htraded => exact htraded.kept.expected ▸ hadmitted.next
  | cancelOrder hadmitted _ _ hstep | replaceOrder hadmitted _ _ hstep =>
    cases hstep with
    | refused _ | unplaced _ => exact hadmitted.next
    | accepted _ _ _ _ hamended => exact hamended.kept.expected ▸ hadmitted.next

end Logical.Gateway

namespace Gateway

variable {ACCOUNTS RISK_ORDERS LEVELS ORDERS_PER_LEVEL REPORTS : ℕ}
  {gateway gateway' : Gateway ACCOUNTS RISK_ORDERS LEVELS ORDERS_PER_LEVEL}

/-- The command has the expected sequence, and that sequence has a successor. -/
def Accepts (gateway : Gateway ACCOUNTS RISK_ORDERS LEVELS ORDERS_PER_LEVEL) (command : Command) : Prop :=
  ∃ next, checkSequence gateway.expectedSequence command.sequence = .ok next

/-- Accepted commands processed in turn, each with a report buffer of capacity `REPORTS`. -/
inductive History (REPORTS : ℕ) : Gateway ACCOUNTS RISK_ORDERS LEVELS ORDERS_PER_LEVEL → List Command →
    Gateway ACCOUNTS RISK_ORDERS LEVELS ORDERS_PER_LEVEL → Prop where
  | nil {gateway : Gateway ACCOUNTS RISK_ORDERS LEVELS ORDERS_PER_LEVEL} : History REPORTS gateway [] gateway
  | cons {gateway next last : Gateway ACCOUNTS RISK_ORDERS LEVELS ORDERS_PER_LEVEL} {command : Command}
      {commands : List Command} {reports reports' : ReportBuffer REPORTS}
      {result : Except GatewayError GatewayOutcome} (haccepts : gateway.Accepts command)
      (hrun : gateway.processCommand command reports = .ok (result, next, reports'))
      (hrest : History REPORTS next commands last) : History REPORTS gateway (command :: commands) last

theorem History.append {last : Gateway ACCOUNTS RISK_ORDERS LEVELS ORDERS_PER_LEVEL}
    {commands commands' : List Command} (h : History REPORTS gateway commands gateway')
    (h' : History REPORTS gateway' commands' last) :
    History REPORTS gateway (commands ++ commands') last := by
  induction h with
  | nil => exact h'
  | cons haccepts hrun _ ih => exact .cons haccepts hrun (ih h')

/-- One accepted command: its number, its outcome, and the same step of every alike gateway. -/
theorem Represents.accepted (hc : Capacities ACCOUNTS RISK_ORDERS LEVELS ORDERS_PER_LEVEL)
    {logical : Logical.Gateway} (h : gateway.Represents logical)
    (hinvariant : logical.Invariant LEVELS ORDERS_PER_LEVEL) {command : Command}
    (haccepts : gateway.Accepts command) {reports reports' : ReportBuffer REPORTS}
    {result : Except GatewayError GatewayOutcome}
    (hrun : gateway.processCommand command reports = .ok (result, gateway', reports')) :
    command.sequence = logical.expectedSequence ∧ Logical.Gateway.Business result ∧
      ∃ logical' : Logical.Gateway, gateway'.Represents logical' ∧
        logical'.Invariant LEVELS ORDERS_PER_LEVEL ∧
        logical'.expectedSequence.val = logical.expectedSequence.val + 1 ∧
        ∀ twin : Gateway ACCOUNTS RISK_ORDERS LEVELS ORDERS_PER_LEVEL, twin.Represents logical →
          ∀ buffer : ReportBuffer REPORTS, ∃ twin' buffer',
            twin.processCommand command buffer = .ok (result, twin', buffer') ∧
              twin'.Represents logical' := by
  have haccepts' : logical.Accepts command := by
    unfold Logical.Gateway.Accepts
    rw [← h.expectedSequence]
    exact haccepts
  obtain ⟨gateway₁, reports₁, hrun₁, hrep, _⟩ := h.processCommand hc command reports
  simp only [hrun, Except.ok.injEq, Prod.mk.injEq] at hrun₁
  obtain ⟨rfl, rfl, rfl⟩ := hrun₁
  have hstep := hinvariant.processCommand hc.orders RISK_ORDERS REPORTS command
  refine ⟨haccepts'.sequence, hstep.business haccepts', _, hrep, hstep.invariant hinvariant,
    hstep.next_sequence haccepts', ?_⟩
  intro twin htwin buffer
  obtain ⟨twin', buffer', hrun', hrep', _⟩ := htwin.processCommand hc command buffer
  exact ⟨twin', buffer', hrun', hrep'⟩

/-- A history can be interrupted after any number of commands. -/
theorem History.of_append {last : Gateway ACCOUNTS RISK_ORDERS LEVELS ORDERS_PER_LEVEL}
    {commands commands' : List Command} (h : History REPORTS gateway (commands ++ commands') last) :
    ∃ current, History REPORTS gateway commands current ∧ History REPORTS current commands' last := by
  induction commands generalizing gateway with
  | nil => exact ⟨gateway, .nil, h⟩
  | cons command commands ih =>
    cases h with
    | cons haccepts hrun hrest =>
      obtain ⟨current, hfirst, hlast⟩ := ih hrest
      exact ⟨current, .cons haccepts hrun hfirst, hlast⟩

/-- Accepted commands advance the sequence by one each, and alike gateways process them alike. -/
theorem Represents.history (hc : Capacities ACCOUNTS RISK_ORDERS LEVELS ORDERS_PER_LEVEL)
    {commands : List Command} (hhistory : History REPORTS gateway commands gateway')
    {logical : Logical.Gateway} (h : gateway.Represents logical)
    (hinvariant : logical.Invariant LEVELS ORDERS_PER_LEVEL) :
    ∃ logical' : Logical.Gateway, gateway'.Represents logical' ∧
      logical'.Invariant LEVELS ORDERS_PER_LEVEL ∧
      logical'.expectedSequence.val = logical.expectedSequence.val + commands.length ∧
      ∀ twin : Gateway ACCOUNTS RISK_ORDERS LEVELS ORDERS_PER_LEVEL, twin.Represents logical →
        ∃ twin', History REPORTS twin commands twin' ∧ twin'.Represents logical' := by
  induction hhistory generalizing logical with
  | nil => exact ⟨logical, h, hinvariant, rfl, fun twin htwin ↦ ⟨twin, .nil, htwin⟩⟩
  | cons haccepts hrun _ ih =>
    obtain ⟨_, _, logical₁, hrep₁, hinvariant₁, hnext, htwins⟩ := h.accepted hc hinvariant haccepts hrun
    obtain ⟨logical', hrep', hinvariant', hlast, hrest⟩ := ih hrep₁ hinvariant₁
    refine ⟨logical', hrep', hinvariant', ?_, ?_⟩
    · rw [hlast, hnext, List.length_cons]
      omega
    · intro twin htwin
      obtain ⟨twin₁, buffer', hrun₁, htwin₁⟩ := htwins twin htwin (ReportBuffer.new REPORTS)
      obtain ⟨twin', hhistory', htwin'⟩ := hrest twin₁ htwin₁
      refine ⟨twin', .cons ?_ hrun₁ hhistory', htwin'⟩
      unfold Accepts
      rw [htwin.expectedSequence, ← h.expectedSequence]
      exact haccepts

/-- The commands of a history are numbered from the expected sequence on. -/
theorem Represents.history_sequences (hc : Capacities ACCOUNTS RISK_ORDERS LEVELS ORDERS_PER_LEVEL)
    {commands : List Command} (hhistory : History REPORTS gateway commands gateway')
    {logical : Logical.Gateway} (h : gateway.Represents logical)
    (hinvariant : logical.Invariant LEVELS ORDERS_PER_LEVEL) :
    commands.map (fun command ↦ command.sequence.val) =
      List.range' logical.expectedSequence.val commands.length := by
  induction hhistory generalizing logical with
  | nil => rfl
  | cons haccepts hrun _ ih =>
    obtain ⟨hsequence, _, logical₁, hrep₁, hinvariant₁, hnext, _⟩ := h.accepted hc hinvariant haccepts hrun
    rw [List.map_cons, ih hrep₁ hinvariant₁, List.length_cons, List.range'_succ, hnext, hsequence]

end Gateway

end DeterministicExchange
