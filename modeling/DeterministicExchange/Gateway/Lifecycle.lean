import DeterministicExchange.Gateway.Trace

/-!
# Lifecycle of orders

Order ids are used once. An order that has left the book, or never reached it, is
retired: it is at most the watermark of received ids and does not rest. Retired
orders stay retired, so they are never reported, cancelled or replaced again.
-/

namespace DeterministicExchange

open Machine Book Risk

namespace Logical.Gateway

variable {LEVELS ORDERS : ℕ} {gateway : Gateway} {command : Command} {order : NewOrder}
  {orderId : OrderId} {outcome : Result × Gateway × List ExecutionReport}

/-- An id that no order has or will have. -/
def Retired (gateway : Gateway) (orderId : OrderId) : Prop :=
  (∃ received ∈ gateway.maximumReceivedOrderId, orderId ≤ received) ∧
    ∀ entry ∈ gateway.book.entries, entry.2.2.id ≠ orderId

theorem Retired.not_fresh (h : gateway.Retired orderId) : ¬ gateway.Fresh orderId := by
  obtain ⟨⟨received, hreceived, hle⟩, _⟩ := h
  intro hfresh
  exact absurd (hfresh received hreceived) (not_lt.mpr hle)

/-- Retired orders stay retired. -/
theorem CommandStep.retired (hstep : CommandStep LEVELS ORDERS gateway command outcome)
    (h : gateway.Retired orderId) : outcome.2.1.Retired orderId := by
  constructor
  · obtain ⟨received, hreceived, hle⟩ := h.1
    obtain ⟨received', hreceived', hle'⟩ := hstep.received_mono hreceived
    exact ⟨received', hreceived', hle.trans hle'⟩
  · intro entry' hentry' hid
    rcases hstep.origin hentry' with ⟨entry, hentry, hsame⟩ | hfresh
    · exact h.2 entry hentry (hsame.trans hid)
    · exact h.not_fresh (hid ▸ hfresh)

/-- A retired order is no party to a report. -/
theorem CommandStep.retired_reports (hstep : CommandStep LEVELS ORDERS gateway command outcome)
    (h : gateway.Retired orderId) {report : ExecutionReport} (hreport : report ∈ outcome.2.2) :
    report.makerOrderId ≠ orderId ∧ report.takerOrderId ≠ orderId := by
  obtain ⟨order, result, rfl, hok⟩ := hstep.reported (List.ne_nil_of_mem hreport)
  obtain ⟨summary, _, hfresh, htraded⟩ := hstep.accepted hok
  obtain ⟨htaker, entry, hentry, hmaker, _⟩ := htraded.parties report hreport
  constructor
  · rw [← hmaker]
    exact h.2 entry hentry
  · rw [htaker]
    intro heq
    exact h.not_fresh (heq ▸ hfresh)

/-- A replace or a cancel that names an order which does not rest. -/
theorem AmendStep.unknown {accountId : AccountId} {asked : List Entry → Prop} {outcome : Result × Gateway}
    (hstep : AmendStep LEVELS ORDERS gateway orderId accountId asked outcome)
    (habsent : ∀ entry ∈ gateway.book.entries, entry.2.2.id ≠ orderId) :
    outcome.1 = .error (.risk .unknownOrder) := by
  cases hstep with
  | refused reason hunknown => rw [hunknown habsent]
  | unplaced reason hknown =>
    obtain ⟨entry, hentry, hid⟩ := hknown
    exact absurd hid (habsent entry hentry)
  | accepted _ _ _ _ hamended =>
    obtain ⟨entry, hentry, hid, _⟩ := hamended.target
    exact absurd hid (habsent entry hentry)

end Logical.Gateway

/-- The order that a cancel or a replace names. -/
def Command.names : Command → Option OrderId
  | .newOrder _ => none
  | .cancelOrder cancel => some cancel.orderId
  | .replaceOrder replace => some replace.orderId

namespace Logical.Gateway

variable {LEVELS ORDERS : ℕ} {gateway : Gateway} {command : Command} {order : NewOrder}
  {orderId : OrderId} {outcome : Result × Gateway × List ExecutionReport}

/-- The command had the expected sequence, and that sequence has a successor. -/
def Accepts (gateway : Gateway) (command : Command) : Prop :=
  ∃ next, DeterministicExchange.Gateway.checkSequence gateway.expectedSequence command.sequence = .ok next

theorem Accepts.sequence (h : gateway.Accepts command) : command.sequence = gateway.expectedSequence := by
  by_contra hne
  obtain ⟨next, hnext⟩ := h
  rw [DeterministicExchange.Gateway.checkSequence_of_ne hne] at hnext
  simp at hnext

theorem Accepts.not_exhausted (h : gateway.Accepts command) :
    gateway.expectedSequence ≠ Unsigned.maxValue 64 := by
  intro hmaximum
  have hsequence := h.sequence
  obtain ⟨next, hnext⟩ := h
  rw [DeterministicExchange.Gateway.checkSequence_exhausted hsequence hmaximum] at hnext
  simp at hnext

theorem CommandStep.retired_unknown (hstep : CommandStep LEVELS ORDERS gateway command outcome)
    (haccepts : gateway.Accepts command) (h : gateway.Retired orderId)
    (hnames : command.names = some orderId) : outcome.1 = .error (.risk .unknownOrder) := by
  cases hstep with
  | outOfSequence hsequence => exact absurd haccepts.sequence hsequence
  | exhausted _ hmaximum => exact absurd hmaximum haccepts.not_exhausted
  | newOrder _ _ hcommand _ =>
    rw [hcommand] at hnames
    simp [Command.names] at hnames
  | cancelOrder hadmitted _ hcommand hstep =>
    rw [hcommand] at hnames
    rw [hadmitted.rest] at hstep
    obtain rfl := Option.some.inj hnames
    exact hstep.unknown h.2
  | replaceOrder hadmitted _ hcommand hstep =>
    rw [hcommand] at hnames
    rw [hadmitted.rest] at hstep
    obtain rfl := Option.some.inj hnames
    exact hstep.unknown h.2

/-- An admitted new order raises the watermark to its id; one below the watermark is a duplicate. -/
theorem CommandStep.received (hstep : CommandStep LEVELS ORDERS gateway (.newOrder order) outcome)
    (haccepts : gateway.Accepts (.newOrder order)) :
    (∃ received ∈ outcome.2.1.maximumReceivedOrderId, order.orderId ≤ received) ∧
      (outcome.1 ≠ .error (.risk .duplicateOrderId) → gateway.Fresh order.orderId) := by
  cases hstep with
  | outOfSequence hsequence => exact absurd haccepts.sequence hsequence
  | exhausted _ hmaximum => exact absurd hmaximum haccepts.not_exhausted
  | @newOrder admitted order' _ hadmitted _ hcommand hstep =>
    obtain rfl : order = order' := by simpa using hcommand
    rw [hadmitted.rest] at hstep
    cases hstep with
    | stale hstale => exact ⟨hstale, fun hne ↦ absurd rfl hne⟩
    | refused hfresh _ => exact ⟨⟨_, rfl, le_rfl⟩, fun _ ↦ hfresh⟩
    | unplaced hfresh _ => exact ⟨⟨_, rfl, le_rfl⟩, fun _ ↦ hfresh⟩
    | accepted hfresh _ _ _ htraded => exact ⟨⟨_, htraded.received, le_rfl⟩, fun _ ↦ hfresh⟩
  | cancelOrder _ _ hcommand _ => simp at hcommand
  | replaceOrder _ _ hcommand _ => simp at hcommand

/-! ## How orders end -/

theorem Invariant.absent_of_fresh (h : gateway.Invariant LEVELS ORDERS) (hfresh : gateway.Fresh orderId) :
    ∀ entry ∈ gateway.book.entries, entry.2.2.id ≠ orderId := by
  intro entry hentry heq
  obtain ⟨received, hreceived, hle⟩ := h.id_le hentry
  exact absurd (hfresh received hreceived) (not_lt.mpr (heq ▸ hle))

/-- A new order of which nothing rests is retired. -/
theorem Traded.retired {gateway' : Gateway} {summary : MatchSummary} {reports : List ExecutionReport}
    (h : gateway.Traded LEVELS ORDERS order summary reports gateway')
    (hnothing : summary.restingQuantity.val = 0) : gateway'.Retired order.orderId := by
  refine ⟨⟨_, h.received, le_rfl⟩, ?_⟩
  intro entry hentry hid
  have hown : entry ∈ Logical.own order.orderId gateway'.book.entries := mem_own.mpr ⟨hentry, hid⟩
  have hnone : takerRest order summary.restingQuantity = [] := if_neg (by omega)
  rw [h.own, hnone] at hown
  simp at hown

/-- A maker that traded all of its quantity is retired. -/
theorem CommandStep.retired_maker (hstep : CommandStep LEVELS ORDERS gateway command outcome)
    (hinvariant : gateway.Invariant LEVELS ORDERS) {entry : Entry} (hentry : entry ∈ gateway.book.entries)
    (htraded : tradedWith entry.2.2.id outcome.2.2 = entry.2.2.quantity.val) :
    outcome.2.1.Retired entry.2.2.id := by
  have hpos := hinvariant.book.compatible.quantity_pos entry hentry
  have hreports : outcome.2.2 ≠ [] := by
    intro hnil
    rw [hnil, tradedWith_nil] at htraded
    omega
  obtain ⟨order, result, rfl, hok⟩ := hstep.reported hreports
  obtain ⟨summary, _, hfresh, hafter⟩ := hstep.accepted hok
  have hbefore := hinvariant.id_le hentry
  constructor
  · obtain ⟨received, hreceived, hle⟩ := hbefore
    obtain ⟨received', hreceived', hle'⟩ := hstep.received_mono hreceived
    exact ⟨received', hreceived', hle.trans hle'⟩
  · intro entry' hentry' hid
    rcases hafter.origin hentry' with hrest | ⟨prior, hprior, hleft⟩
    · unfold takerRest at hrest
      split at hrest
      · rw [List.mem_singleton.mp hrest] at hid
        exact hinvariant.absent_of_fresh hfresh entry hentry hid.symm
      · simp at hrest
    · obtain ⟨_, _, hsame, _, _, hquantity, hpositive⟩ := afterReports_eq_some hleft
      have hprior' : prior = entry :=
        List.inj_on_of_nodup_map hinvariant.book.ids hprior hentry (hsame.symm.trans hid)
      rw [hprior', htraded] at hquantity
      omega

/-- A cancelled order is retired. -/
theorem CommandStep.retired_cancel {cancel : CancelOrder} {result : GatewayOutcome}
    (hstep : CommandStep LEVELS ORDERS gateway (.cancelOrder cancel) outcome)
    (hinvariant : gateway.Invariant LEVELS ORDERS) (hok : outcome.1 = .ok result) :
    outcome.2.1.Retired cancel.orderId := by
  have hmono : ∀ received ∈ gateway.maximumReceivedOrderId,
      ∃ received' ∈ outcome.2.1.maximumReceivedOrderId, received ≤ received' :=
    fun _ hreceived ↦ hstep.received_mono hreceived
  cases hstep with
  | outOfSequence _ => simp at hok
  | exhausted _ _ => simp at hok
  | newOrder _ _ hcommand _ => simp at hcommand
  | @cancelOrder admitted cancel' _ hadmitted _ hcommand hstep =>
    obtain rfl : cancel = cancel' := by simpa using hcommand
    rw [hadmitted.rest] at hstep
    cases hstep with
    | refused _ _ => simp at hok
    | unplaced _ _ => simp at hok
    | accepted _ after new hasked hamended =>
      obtain ⟨entry, hentry, hid, _⟩ := hamended.target
      obtain ⟨received, hreceived, hle⟩ := hinvariant.id_le hentry
      obtain ⟨received', hreceived', hle'⟩ := hmono received hreceived
      refine ⟨⟨received', hreceived', hid ▸ hle.trans hle'⟩, ?_⟩
      intro entry' hentry' hid'
      have hown := mem_own.mpr ⟨hentry', hid'⟩
      rw [hamended.own, hasked] at hown
      simp at hown
  | replaceOrder _ _ hcommand _ => simp at hcommand

/-- A new order rejected by risk or by the book, but not as a duplicate, is retired. -/
theorem CommandStep.retired_rejected (hstep : CommandStep LEVELS ORDERS gateway (.newOrder order) outcome)
    (hinvariant : gateway.Invariant LEVELS ORDERS) {reason : RejectReason}
    (herror : outcome.1 = .error (.risk reason) ∨ outcome.1 = .error (.book reason))
    (hreason : reason ≠ .duplicateOrderId) : outcome.2.1.Retired order.orderId := by
  cases hstep with
  | outOfSequence _ => simp at herror
  | exhausted _ _ => simp at herror
  | @newOrder admitted order' _ hadmitted _ hcommand hstep =>
    obtain rfl : order = order' := by simpa using hcommand
    rw [hadmitted.rest] at hstep
    cases hstep with
    | stale _ =>
      have hduplicate : .duplicateOrderId = reason := by simpa using herror
      exact absurd hduplicate.symm hreason
    | refused hfresh _ => exact ⟨⟨_, rfl, le_rfl⟩, hinvariant.absent_of_fresh hfresh⟩
    | unplaced hfresh _ => exact ⟨⟨_, rfl, le_rfl⟩, hinvariant.absent_of_fresh hfresh⟩
    | accepted _ _ _ _ _ => simp at herror
  | cancelOrder _ _ hcommand _ => simp at hcommand
  | replaceOrder _ _ hcommand _ => simp at hcommand

end Logical.Gateway

/-! ## Traces -/

namespace Gateway

variable {ACCOUNTS RISK_ORDERS LEVELS ORDERS_PER_LEVEL : ℕ}
  {start gateway : Gateway ACCOUNTS RISK_ORDERS LEVELS ORDERS_PER_LEVEL}
  {transitions : List (Transition ACCOUNTS RISK_ORDERS LEVELS ORDERS_PER_LEVEL)}

namespace Transition

variable {transition later : Transition ACCOUNTS RISK_ORDERS LEVELS ORDERS_PER_LEVEL}
  {logical logical' : Logical.Gateway} {orderId : OrderId}

/-- The transition in which an order ends: it is filled, cancelled, discarded or rejected. -/
inductive Ends (transition : Transition ACCOUNTS RISK_ORDERS LEVELS ORDERS_PER_LEVEL) :
    OrderId → Prop where
  | filledTaker (order : NewOrder) (summary : MatchSummary)
      (hcommand : transition.command = .newOrder order)
      (hresult : transition.result = .ok (.newOrder summary))
      (hfilled : summary.filledQuantity = order.quantity) : Ends transition order.orderId
  | filledMaker (location : OrderLocation) (order : RestingOrder)
      (hrests : transition.before.book.RestsAt location order)
      (hfilled : Logical.tradedWith order.id transition.reports = order.quantity.val) :
      Ends transition order.id
  | discarded (order : NewOrder) (summary : MatchSummary)
      (hcommand : transition.command = .newOrder order)
      (hresult : transition.result = .ok (.newOrder summary))
      (hdiscarded : 0 < summary.discardedQuantity.val) : Ends transition order.orderId
  | cancelled (cancel : CancelOrder) (outcome : GatewayOutcome)
      (hcommand : transition.command = .cancelOrder cancel)
      (hresult : transition.result = .ok outcome) : Ends transition cancel.orderId
  | rejected (order : NewOrder) (reason : RejectReason)
      (hcommand : transition.command = .newOrder order)
      (hresult : transition.result = .error (.risk reason) ∨ transition.result = .error (.book reason))
      (hreason : reason ≠ .duplicateOrderId) : Ends transition order.orderId

/-- The transition receives a new order in sequence. -/
def Receives (transition : Transition ACCOUNTS RISK_ORDERS LEVELS ORDERS_PER_LEVEL)
    (orderId : OrderId) : Prop :=
  transition.SequenceAccepted ∧ ∃ order, transition.command = .newOrder order ∧ order.orderId = orderId

/-- The transition accepts a new order. -/
def AcceptsOrder (transition : Transition ACCOUNTS RISK_ORDERS LEVELS ORDERS_PER_LEVEL)
    (orderId : OrderId) : Prop :=
  ∃ order outcome, transition.command = .newOrder order ∧ order.orderId = orderId ∧
    transition.result = .ok outcome

end Transition

/-- No order with this id rests or is reserved for. -/
def Gone (gateway : Gateway ACCOUNTS RISK_ORDERS LEVELS ORDERS_PER_LEVEL) (orderId : OrderId) : Prop :=
  (∀ location order, gateway.book.RestsAt location order → order.id ≠ orderId) ∧
    ∀ slot r, gateway.risk.ReservesAt slot r → r.orderId ≠ orderId

theorem Represents.gone {logical : Logical.Gateway} (h : gateway.Represents logical)
    (hinvariant : logical.Invariant LEVELS ORDERS_PER_LEVEL) {orderId : OrderId}
    (hretired : logical.Retired orderId) : gateway.Gone orderId := by
  constructor
  · intro location order hrests
    obtain ⟨price, hprice⟩ := hrests.exists_price
    exact hretired.2 _ (h.book.entry_of_restsAtPrice hprice)
  · intro slot r hreserves hid
    obtain ⟨entry, hentry, hsame⟩ := hinvariant.exists_entry (h.risk.mem_of_reservesAt hreserves)
    exact hretired.2 entry hentry (hsame.trans hid)

/-- What a transition fixes for every later one: ids are not received again, and an order that ended
is absent, never reported, and unknown to every cancel and replace. -/
structure Precedes (transition later : Transition ACCOUNTS RISK_ORDERS LEVELS ORDERS_PER_LEVEL) : Prop where
  once : ∀ orderId, transition.AcceptsOrder orderId → ¬ later.AcceptsOrder orderId
  duplicate : ∀ orderId orderId', transition.Receives orderId → later.Receives orderId' →
    orderId' ≤ orderId → later.result = .error (.risk .duplicateOrderId)
  gone : ∀ orderId, transition.Ends orderId → later.before.Gone orderId ∧ later.after.Gone orderId
  reports : ∀ orderId, transition.Ends orderId → ∀ report ∈ later.reports,
    report.makerOrderId ≠ orderId ∧ report.takerOrderId ≠ orderId
  unknown : ∀ orderId, transition.Ends orderId → later.SequenceAccepted →
    later.command.names = some orderId → later.result = .error (.risk .unknownOrder)

namespace Transition

variable {transition : Transition ACCOUNTS RISK_ORDERS LEVELS ORDERS_PER_LEVEL}
  {logical logical' : Logical.Gateway} {orderId : OrderId}

theorem Follows.accepts (h : transition.Follows logical logical') (haccepted : transition.SequenceAccepted) :
    logical.Accepts transition.command := by
  obtain ⟨next, hnext⟩ := haccepted
  exact ⟨next, by rw [← h.before.expectedSequence]; exact hnext⟩

/-- An order that ends is retired. -/
theorem Follows.ends (h : transition.Follows logical logical') (hends : transition.Ends orderId) :
    logical'.Retired orderId := by
  have hstep := h.step
  cases hends with
  | filledTaker order summary hcommand hresult hfilled =>
    rw [hcommand] at hstep
    obtain ⟨summary', hsummary, _, htraded⟩ := hstep.accepted hresult
    obtain rfl : summary = summary' := by simpa using hsummary
    have haccounted := htraded.accounted
    rw [hfilled] at haccounted
    exact htraded.retired (by omega)
  | filledMaker location order hrests hfilled =>
    obtain ⟨price, hprice⟩ := hrests.exists_price
    exact hstep.retired_maker h.invariant (h.before.book.entry_of_restsAtPrice hprice) hfilled
  | discarded order summary hcommand hresult hdiscarded =>
    rw [hcommand] at hstep
    obtain ⟨summary', hsummary, _, htraded⟩ := hstep.accepted hresult
    obtain rfl : summary = summary' := by simpa using hsummary
    exact htraded.retired (htraded.remainder.resolve_right (by omega))
  | cancelled cancel outcome hcommand hresult =>
    rw [hcommand] at hstep
    exact hstep.retired_cancel h.invariant hresult
  | rejected order reason hcommand hresult hreason =>
    rw [hcommand] at hstep
    exact hstep.retired_rejected h.invariant hresult hreason

/-- A received id is at most the watermark. -/
theorem Follows.receives (h : transition.Follows logical logical') (hreceives : transition.Receives orderId) :
    (∃ received ∈ logical'.maximumReceivedOrderId, orderId ≤ received) ∧
      (transition.result ≠ .error (.risk .duplicateOrderId) → logical.Fresh orderId) := by
  obtain ⟨haccepted, order, hcommand, rfl⟩ := hreceives
  have haccepts := h.accepts haccepted
  have hstep := h.step
  rw [hcommand] at hstep haccepts
  exact hstep.received haccepts

theorem Follows.acceptsOrder (h : transition.Follows logical logical')
    (haccepts : transition.AcceptsOrder orderId) :
    logical.Fresh orderId ∧ ∃ received ∈ logical'.maximumReceivedOrderId, orderId ≤ received := by
  obtain ⟨order, outcome, hcommand, rfl, hresult⟩ := haccepts
  have hstep := h.step
  rw [hcommand] at hstep
  obtain ⟨_, _, hfresh, htraded⟩ := hstep.accepted hresult
  exact ⟨hfresh, order.orderId, htraded.received, le_rfl⟩

end Transition

/-- What a trace knows of its transitions at its end. -/
structure Lifecycle (transitions : List (Transition ACCOUNTS RISK_ORDERS LEVELS ORDERS_PER_LEVEL))
    (logical : Logical.Gateway) : Prop where
  received : ∀ transition ∈ transitions, ∀ orderId,
    transition.Receives orderId ∨ transition.AcceptsOrder orderId →
      ∃ received ∈ logical.maximumReceivedOrderId, orderId ≤ received
  retired : ∀ transition ∈ transitions, ∀ orderId, transition.Ends orderId → logical.Retired orderId
  gone : ∀ transition ∈ transitions, ∀ orderId, transition.Ends orderId → transition.after.Gone orderId
  ordered : transitions.Pairwise Precedes

theorem Lifecycle.snoc {logical logical' : Logical.Gateway}
    {transition : Transition ACCOUNTS RISK_ORDERS LEVELS ORDERS_PER_LEVEL} (h : Lifecycle transitions logical)
    (hfollows : transition.Follows logical logical') :
    Lifecycle (transitions ++ [transition]) logical' := by
  have hinvariant' := hfollows.invariant'
  refine ⟨?_, ?_, ?_, ?_⟩
  · intro t ht orderId hreceives
    rcases List.mem_append.mp ht with ht | ht
    · obtain ⟨received, hreceived, hle⟩ := h.received t ht orderId hreceives
      obtain ⟨received', hreceived', hle'⟩ := hfollows.step.received_mono hreceived
      exact ⟨received', hreceived', hle.trans hle'⟩
    · rw [List.mem_singleton.mp ht] at hreceives
      rcases hreceives with hreceives | haccepts
      · exact (hfollows.receives hreceives).1
      · exact (hfollows.acceptsOrder haccepts).2
  · intro t ht orderId hends
    rcases List.mem_append.mp ht with ht | ht
    · exact hfollows.step.retired (h.retired t ht orderId hends)
    · rw [List.mem_singleton.mp ht] at hends
      exact hfollows.ends hends
  · intro t ht orderId hends
    rcases List.mem_append.mp ht with ht | ht
    · exact h.gone t ht orderId hends
    · rw [List.mem_singleton.mp ht] at hends ⊢
      exact hfollows.after.gone hinvariant' (hfollows.ends hends)
  · rw [List.pairwise_append]
    refine ⟨h.ordered, List.pairwise_singleton _ _, ?_⟩
    intro t ht later hlater
    rw [List.mem_singleton.mp hlater]
    refine ⟨?_, ?_, ?_, ?_, ?_⟩
    · intro orderId haccepts haccepts'
      obtain ⟨received, hreceived, hle⟩ := h.received t ht orderId (.inr haccepts)
      exact absurd ((hfollows.acceptsOrder haccepts').1 received hreceived) (not_lt.mpr hle)
    · intro orderId orderId' hreceives hreceives' hle
      obtain ⟨received, hreceived, hle'⟩ := h.received t ht orderId (.inl hreceives)
      by_contra hother
      have hfresh := (hfollows.receives hreceives').2 hother
      exact absurd (hfresh received hreceived) (not_lt.mpr (hle.trans hle'))
    · intro orderId hends
      have hretired := h.retired t ht orderId hends
      exact ⟨hfollows.before.gone hfollows.invariant hretired,
        hfollows.after.gone hinvariant' (hfollows.step.retired hretired)⟩
    · intro orderId hends report hreport
      exact hfollows.step.retired_reports (h.retired t ht orderId hends) hreport
    · intro orderId hends haccepted hnames
      exact hfollows.step.retired_unknown (hfollows.accepts haccepted)
        (h.retired t ht orderId hends) hnames

/-- Along every trace of a new gateway, order ids are used once and orders that ended stay ended. -/
theorem trace_lifecycle (hc : Capacities ACCOUNTS RISK_ORDERS LEVELS ORDERS_PER_LEVEL)
    (hstart : start.Started) (h : Trace start transitions gateway) :
    transitions.Pairwise Precedes ∧
      ∀ transition ∈ transitions, ∀ orderId, transition.Ends orderId → transition.after.Gone orderId := by
  obtain ⟨initial, hrep, hinvariant⟩ := hstart.sound hc
  obtain ⟨_, _, _, hlifecycle⟩ := h.represents hc Lifecycle hrep hinvariant
    ⟨by simp, by simp, by simp, List.Pairwise.nil⟩
    fun _ _ _ _ hfollows hlifecycle ↦ hlifecycle.snoc hfollows
  exact ⟨hlifecycle.ordered, hlifecycle.gone⟩

/-! A trace of the sample session: the resting order is cancelled twice. -/

def sampleCancel (sequence : SequenceNumber) : Command := .cancelOrder ⟨1, 7, 1, sequence⟩

theorem sampleCancel_returns :
    (sampleGateway.processCommand (sampleCancel 2) (ReportBuffer.new 1)).toOption.isSome = true := by
  decide

def sampleCancelled : Gateway 1 1 1 1 :=
  ((sampleGateway.processCommand (sampleCancel 2) (ReportBuffer.new 1)).toOption.get
    sampleCancel_returns).2.1

theorem sampleCancel_result :
    ((sampleGateway.processCommand (sampleCancel 2) (ReportBuffer.new 1)).toOption.get
      sampleCancel_returns).1 = .ok (.cancelled ⟨1, 7, 5⟩) := by
  decide

theorem sampleCancel_again :
    (sampleCancelled.processCommand (sampleCancel 3) (ReportBuffer.new 1)).map Prod.fst =
      .ok (.error (.risk .unknownOrder)) := by
  decide

theorem sampleCancelled_lifecycle :
    ∃ transitions gateway, Trace sampleStart transitions gateway ∧
      (∃ transition ∈ transitions, transition.Ends 1) ∧ transitions.Pairwise Precedes ∧
      ∀ transition ∈ transitions, ∀ orderId, transition.Ends orderId → transition.after.Gone orderId := by
  obtain ⟨_, hagain⟩ := Run.exists_eq_ok sampleCancel_again
  have htrace := ((Trace.nil.snoc (Run.eq_ok_get sampleOrder_returns)).snoc
    (Run.eq_ok_get sampleCancel_returns)).snoc hagain
  refine ⟨_, _, htrace, ⟨_, List.mem_append_left _ (List.mem_append_right _ (List.mem_singleton_self _)),
    .cancelled ⟨1, 7, 1, 2⟩ _ rfl sampleCancel_result⟩, ?_⟩
  exact trace_lifecycle ⟨by decide, by decide, by decide, by decide⟩ sampleStart_started htrace

end Gateway

end DeterministicExchange
