import DeterministicExchange.Gateway.Agreement
import DeterministicExchange.Gateway.Rejection

/-!
# Traces

A trace lists the commands a gateway has processed, each with the gateway before
and after it, its result and its reports. What a step of the logical gateway keeps
along a trace holds of the whole trace.
-/

namespace DeterministicExchange.Gateway

open Machine Book Risk

variable {ACCOUNTS RISK_ORDERS LEVELS ORDERS_PER_LEVEL : ℕ}

/-- One processed command. -/
structure Transition (ACCOUNTS RISK_ORDERS LEVELS ORDERS_PER_LEVEL : ℕ) where
  before : Gateway ACCOUNTS RISK_ORDERS LEVELS ORDERS_PER_LEVEL
  command : Command
  result : Except GatewayError GatewayOutcome
  reports : List ExecutionReport
  after : Gateway ACCOUNTS RISK_ORDERS LEVELS ORDERS_PER_LEVEL

/-- The command had the expected sequence, and that sequence has a successor. -/
def Transition.SequenceAccepted (transition : Transition ACCOUNTS RISK_ORDERS LEVELS ORDERS_PER_LEVEL) :
    Prop :=
  ∃ next, checkSequence transition.before.expectedSequence transition.command.sequence = .ok next

/-- The commands processed from `start` on, in order, up to the last gateway. Every command has its own
report buffer, of any capacity. -/
inductive Trace (start : Gateway ACCOUNTS RISK_ORDERS LEVELS ORDERS_PER_LEVEL) :
    List (Transition ACCOUNTS RISK_ORDERS LEVELS ORDERS_PER_LEVEL) →
      Gateway ACCOUNTS RISK_ORDERS LEVELS ORDERS_PER_LEVEL → Prop where
  | nil : Trace start [] start
  | snoc {transitions : List (Transition ACCOUNTS RISK_ORDERS LEVELS ORDERS_PER_LEVEL)}
      {gateway gateway' : Gateway ACCOUNTS RISK_ORDERS LEVELS ORDERS_PER_LEVEL} {REPORTS : ℕ}
      {reports reports' : ReportBuffer REPORTS} {command : Command}
      {result : Except GatewayError GatewayOutcome} (h : Trace start transitions gateway)
      (hrun : gateway.processCommand command reports = .ok (result, gateway', reports')) :
      Trace start (transitions ++ [⟨gateway, command, result, reports'.entries, gateway'⟩]) gateway'

/-- The logical step behind a transition. -/
structure Transition.Follows (transition : Transition ACCOUNTS RISK_ORDERS LEVELS ORDERS_PER_LEVEL)
    (logical logical' : Logical.Gateway) : Prop where
  before : transition.before.Represents logical
  after : transition.after.Represents logical'
  invariant : logical.Invariant LEVELS ORDERS_PER_LEVEL
  step : logical.CommandStep LEVELS ORDERS_PER_LEVEL transition.command
    (transition.result, logical', transition.reports)

theorem Transition.Follows.invariant' {transition : Transition ACCOUNTS RISK_ORDERS LEVELS ORDERS_PER_LEVEL}
    {logical logical' : Logical.Gateway} (h : transition.Follows logical logical') :
    logical'.Invariant LEVELS ORDERS_PER_LEVEL := h.step.invariant h.invariant

variable {start gateway gateway' : Gateway ACCOUNTS RISK_ORDERS LEVELS ORDERS_PER_LEVEL}
  {transitions : List (Transition ACCOUNTS RISK_ORDERS LEVELS ORDERS_PER_LEVEL)}

/-- What a command does on a represented gateway, as a transition. -/
theorem Represents.follows (hc : Capacities ACCOUNTS RISK_ORDERS LEVELS ORDERS_PER_LEVEL)
    {logical : Logical.Gateway} (h : gateway.Represents logical)
    (hinvariant : logical.Invariant LEVELS ORDERS_PER_LEVEL) {command : Command} {REPORTS : ℕ}
    {reports reports' : ReportBuffer REPORTS} {result : Except GatewayError GatewayOutcome}
    (hrun : gateway.processCommand command reports = .ok (result, gateway', reports')) :
    ∃ logical', Transition.Follows ⟨gateway, command, result, reports'.entries, gateway'⟩
      logical logical' := by
  obtain ⟨result₁, gateway₁, reports₁, logical', hrun₁, hrep, hstep⟩ :=
    h.commandStep hc hinvariant command reports
  rw [hrun] at hrun₁
  obtain ⟨rfl, hnext⟩ := Prod.ext_iff.mp (Except.ok.inj hrun₁)
  obtain ⟨rfl, rfl⟩ := Prod.ext_iff.mp hnext
  exact ⟨logical', h, hrep, hinvariant, hstep⟩

/-- What holds at the start of a trace and is kept by every logical step holds at its end. -/
theorem Trace.represents (hc : Capacities ACCOUNTS RISK_ORDERS LEVELS ORDERS_PER_LEVEL)
    (property : List (Transition ACCOUNTS RISK_ORDERS LEVELS ORDERS_PER_LEVEL) → Logical.Gateway → Prop)
    {initial : Logical.Gateway} (hstart : start.Represents initial)
    (hinvariant : initial.Invariant LEVELS ORDERS_PER_LEVEL) (hinitial : property [] initial)
    (hstep : ∀ transitions transition logical logical', Transition.Follows transition logical logical' →
      property transitions logical → property (transitions ++ [transition]) logical')
    (h : Trace start transitions gateway) :
    ∃ logical : Logical.Gateway, gateway.Represents logical ∧
      logical.Invariant LEVELS ORDERS_PER_LEVEL ∧ property transitions logical := by
  induction h with
  | nil => exact ⟨initial, hstart, hinvariant, hinitial⟩
  | snoc _ hrun ih =>
    obtain ⟨logical, hrep, hinvariant, hproperty⟩ := ih
    obtain ⟨logical', hfollows⟩ := hrep.follows hc hinvariant hrun
    exact ⟨logical', hfollows.after, hfollows.invariant', hstep _ _ _ _ hfollows hproperty⟩

end DeterministicExchange.Gateway

/-! ## Steps -/

namespace DeterministicExchange.Logical.Gateway

open Machine

variable {LEVELS ORDERS : ℕ} {gateway gateway' : Gateway} {command : Command} {order : NewOrder}
  {orderId : OrderId} {accountId : AccountId} {asked : List Entry → Prop}
  {outcome : Result × Gateway × List ExecutionReport}

theorem AmendStep.received {outcome : Result × Gateway}
    (hstep : AmendStep LEVELS ORDERS gateway orderId accountId asked outcome) :
    outcome.2.maximumReceivedOrderId = gateway.maximumReceivedOrderId := by
  cases hstep with
  | refused _ _ => rfl
  | unplaced _ _ => rfl
  | accepted _ _ _ _ hamended => exact hamended.received

/-- A replace or a cancel adds no order. -/
theorem AmendStep.origin {outcome : Result × Gateway}
    (hstep : AmendStep LEVELS ORDERS gateway orderId accountId asked outcome) {entry' : Entry}
    (hentry' : entry' ∈ outcome.2.book.entries) :
    ∃ entry ∈ gateway.book.entries, entry.2.2.id = entry'.2.2.id := by
  cases hstep with
  | refused _ _ => exact ⟨entry', hentry', rfl⟩
  | unplaced _ _ => exact ⟨entry', hentry', rfl⟩
  | accepted _ _ _ _ hamended =>
    by_cases hnamed : entry'.2.2.id = orderId
    · obtain ⟨entry, hentry, hid, _⟩ := hamended.target
      exact ⟨entry, hentry, hid.trans hnamed.symm⟩
    · have hothers := mem_others.mpr ⟨hentry', hnamed⟩
      rw [hamended.others] at hothers
      exact ⟨entry', (mem_others.mp hothers).1, rfl⟩

/-- The watermark of received ids never falls. -/
theorem CommandStep.received_mono (hstep : CommandStep LEVELS ORDERS gateway command outcome)
    {received : OrderId} (hreceived : received ∈ gateway.maximumReceivedOrderId) :
    ∃ received' ∈ outcome.2.1.maximumReceivedOrderId, received ≤ received' := by
  cases hstep with
  | outOfSequence _ => exact ⟨received, hreceived, le_rfl⟩
  | exhausted _ _ => exact ⟨received, hreceived, le_rfl⟩
  | @newOrder admitted order _ hadmitted _ _ hstep =>
    rw [hadmitted.rest] at hstep
    cases hstep with
    | stale _ => exact ⟨received, hreceived, le_rfl⟩
    | refused hfresh _ => exact ⟨order.orderId, rfl, (hfresh received hreceived).le⟩
    | unplaced hfresh _ => exact ⟨order.orderId, rfl, (hfresh received hreceived).le⟩
    | accepted hfresh _ _ _ htraded =>
      exact ⟨order.orderId, htraded.received, (hfresh received hreceived).le⟩
  | cancelOrder hadmitted _ _ hstep =>
    rw [hadmitted.rest] at hstep
    exact ⟨received, by rw [hstep.received]; exact hreceived, le_rfl⟩
  | replaceOrder hadmitted _ _ hstep =>
    rw [hadmitted.rest] at hstep
    exact ⟨received, by rw [hstep.received]; exact hreceived, le_rfl⟩

/-- A new order whose id is above every received one. -/
def Fresh (gateway : Gateway) (orderId : OrderId) : Prop :=
  ∀ received ∈ gateway.maximumReceivedOrderId, received < orderId

/-- An order that rests after a command rested before it, or is the new order of the command. -/
theorem CommandStep.origin (hstep : CommandStep LEVELS ORDERS gateway command outcome) {entry' : Entry}
    (hentry' : entry' ∈ outcome.2.1.book.entries) :
    (∃ entry ∈ gateway.book.entries, entry.2.2.id = entry'.2.2.id) ∨ gateway.Fresh entry'.2.2.id := by
  cases hstep with
  | outOfSequence _ => exact .inl ⟨entry', hentry', rfl⟩
  | exhausted _ _ => exact .inl ⟨entry', hentry', rfl⟩
  | @newOrder admitted order _ hadmitted _ _ hstep =>
    rw [hadmitted.rest] at hstep
    cases hstep with
    | stale _ => exact .inl ⟨entry', hentry', rfl⟩
    | refused hfresh _ => exact .inl ⟨entry', hentry', rfl⟩
    | unplaced hfresh _ => exact .inl ⟨entry', hentry', rfl⟩
    | accepted hfresh _ _ _ htraded =>
      rcases htraded.origin hentry' with hrest | ⟨entry, hentry, hafter⟩
      · refine .inr ?_
        unfold takerRest at hrest
        split at hrest
        · rw [List.mem_singleton.mp hrest]
          exact hfresh
        · simp at hrest
      · exact .inl ⟨entry, hentry, (afterReports_eq_some hafter).2.2.1.symm⟩
  | cancelOrder hadmitted _ _ hstep =>
    rw [hadmitted.rest] at hstep
    exact .inl (hstep.origin hentry')
  | replaceOrder hadmitted _ _ hstep =>
    rw [hadmitted.rest] at hstep
    exact .inl (hstep.origin hentry')

/-- An accepted new order. -/
theorem CommandStep.accepted (hstep : CommandStep LEVELS ORDERS gateway (.newOrder order) outcome)
    {result : GatewayOutcome} (hok : outcome.1 = .ok result) :
    ∃ summary, result = .newOrder summary ∧ gateway.Fresh order.orderId ∧
      { gateway with expectedSequence := outcome.2.1.expectedSequence }.Traded LEVELS ORDERS order summary
        outcome.2.2 outcome.2.1 := by
  cases hstep with
  | outOfSequence _ => simp at hok
  | exhausted _ _ => simp at hok
  | @newOrder admitted order' _ hadmitted _ hcommand hstep =>
    obtain rfl : order = order' := by simpa using hcommand
    rw [hadmitted.rest] at hstep
    cases hstep with
    | stale _ => simp at hok
    | refused _ _ => simp at hok
    | unplaced _ _ => simp at hok
    | accepted hfresh summary after reports htraded =>
      refine ⟨summary, (Except.ok.inj hok).symm, hfresh, ?_⟩
      have hexpected : after.expectedSequence = admitted.expectedSequence := htraded.kept.expected
      show { gateway with expectedSequence := after.expectedSequence }.Traded LEVELS ORDERS order summary
        reports after
      rw [hexpected]
      exact htraded
  | cancelOrder _ _ hcommand _ => simp at hcommand
  | replaceOrder _ _ hcommand _ => simp at hcommand

/-- Only accepted new orders are reported. -/
theorem CommandStep.reported (hstep : CommandStep LEVELS ORDERS gateway command outcome)
    (hreports : outcome.2.2 ≠ []) :
    ∃ order result, command = .newOrder order ∧ outcome.1 = .ok result := by
  cases hstep with
  | outOfSequence _ => simp at hreports
  | exhausted _ _ => simp at hreports
  | @newOrder admitted order _ _ _ hcommand hstep =>
    cases hstep with
    | stale _ => simp at hreports
    | refused _ _ => simp at hreports
    | unplaced _ _ => simp at hreports
    | accepted _ summary _ _ _ => exact ⟨order, _, hcommand, rfl⟩
  | cancelOrder _ _ _ _ => simp at hreports
  | replaceOrder _ _ _ _ => simp at hreports

end DeterministicExchange.Logical.Gateway
