import DeterministicExchange.Book.PriceTime
import DeterministicExchange.Gateway.Trace

/-!
# What a command reports

An accepted command answers with the ids it was sent with. A new order has one
report for each fill, whose quantities add up to its filled quantity; a cancel and
a replace have none. A rejected command reports nothing and leaves both tops of
the book as they were.
-/

namespace DeterministicExchange

open Machine Book

namespace Logical.Gateway

/-- The answer to an accepted command, and its reports. -/
inductive Answers : Command → GatewayOutcome → List ExecutionReport → Prop where
  | newOrder {order : NewOrder} {summary : MatchSummary} {reports : List ExecutionReport}
      (hfilled : (reports.map fun report ↦ report.quantity.val).sum = summary.filledQuantity.val)
      (htaker : ∀ report ∈ reports,
        report.takerOrderId = order.orderId ∧ report.instrumentId = order.instrumentId) :
      Answers (.newOrder order) (.newOrder summary) reports
  | cancelled {cancel : CancelOrder} {quantity : Quantity} :
      Answers (.cancelOrder cancel) (.cancelled ⟨cancel.orderId, cancel.accountId, quantity⟩) []
  | replaced {replace : ReplaceOrder} {oldQuantity : Quantity} {priorityLost : Bool} :
      Answers (.replaceOrder replace) (.replaced ⟨replace.orderId, replace.accountId, oldQuantity,
        replace.quantity, replace.price, priorityLost⟩) []

variable {RISK_ORDERS LEVELS ORDERS capacity : ℕ} {gateway gateway' : Logical.Gateway}
  {outcome : GatewayOutcome} {reports : List ExecutionReport}

theorem release_ok {orderId : OrderId} {result : Result}
    (h : gateway.release orderId result = (.ok outcome, gateway')) : result = .ok outcome := by
  unfold release at h
  split at h
  · exact absurd (congrArg Prod.fst h) nofun
  · exact congrArg Prod.fst h

theorem processNewOrder_ok {order : NewOrder}
    (h : gateway.processNewOrder RISK_ORDERS LEVELS ORDERS capacity order =
      (.ok outcome, gateway', reports)) :
    ∃ summary fills book', outcome = .newOrder summary ∧
      gateway.book.submit LEVELS ORDERS capacity order = .ok (summary, fills, book') ∧
      reports = fills.map (Fill.report order) := by
  unfold processNewOrder at h
  split at h
  · exact absurd (congrArg Prod.fst h) nofun
  dsimp only at h
  split at h
  · exact absurd (congrArg Prod.fst h) nofun
  split at h
  · obtain ⟨hresult, _⟩ := Prod.mk.inj h
    exact absurd (release_ok (Prod.ext hresult rfl)) nofun
  next summary fills book' hsubmit =>
  split at h
  · exact absurd (congrArg Prod.fst h) nofun
  split at h
  · obtain ⟨hresult, hrest⟩ := Prod.mk.inj h
    have hanswer := release_ok (Prod.ext hresult rfl)
    exact ⟨summary, fills, book', (Except.ok.inj hanswer).symm, hsubmit, (Prod.mk.inj hrest).2.symm⟩
  · obtain ⟨hresult, hrest⟩ := Prod.mk.inj h
    exact ⟨summary, fills, book', (Except.ok.inj hresult).symm, hsubmit, (Prod.mk.inj hrest).2.symm⟩

theorem processCancel_ok {cancel : CancelOrder} (h : gateway.processCancel cancel = (.ok outcome, gateway')) :
    ∃ quantity, outcome = .cancelled ⟨cancel.orderId, cancel.accountId, quantity⟩ := by
  unfold processCancel at h
  split at h
  · exact absurd (congrArg Prod.fst h) nofun
  split at h
  · exact absurd (congrArg Prod.fst h) nofun
  next cancelled book' hcancel =>
  split at h
  · exact absurd (congrArg Prod.fst h) nofun
  have hresult := congrArg Prod.fst h
  dsimp only at hresult
  split at hresult
  · exact absurd hresult nofun
  unfold Book.cancel at hcancel
  split at hcancel
  · exact absurd hcancel nofun
  next side price order howned =>
  obtain ⟨hfind, howner⟩ := Book.owned_ok howned
  have hid : order.id = cancel.orderId := (Book.mem_of_find hfind).2
  refine ⟨order.quantity, ?_⟩
  rw [← hid, ← howner, ← Except.ok.inj hresult, ← (Prod.mk.inj (Except.ok.inj hcancel)).1]

theorem processReplace_ok {replace : ReplaceOrder}
    (h : gateway.processReplace LEVELS ORDERS replace = (.ok outcome, gateway')) :
    ∃ oldQuantity priorityLost, outcome = .replaced ⟨replace.orderId, replace.accountId, oldQuantity,
      replace.quantity, replace.price, priorityLost⟩ := by
  unfold processReplace at h
  split at h
  · exact absurd (congrArg Prod.fst h) nofun
  split at h
  · next replaced book' hreplace =>
    rw [← Except.ok.inj (congrArg Prod.fst h)]
    unfold Book.replace at hreplace
    split at hreplace
    · exact absurd hreplace nofun
    next old _ =>
    dsimp only at hreplace
    split at hreplace
    · exact absurd hreplace nofun
    split at hreplace
    · exact absurd hreplace nofun
    split at hreplace
    · exact ⟨old.quantity, false, congrArg _ (Prod.mk.inj (Except.ok.inj hreplace)).1.symm⟩
    split at hreplace
    · exact absurd hreplace nofun
    · exact ⟨old.quantity, true, congrArg _ (Prod.mk.inj (Except.ok.inj hreplace)).1.symm⟩
  · split at h
    · exact absurd (congrArg Prod.fst h) nofun
    · exact absurd (congrArg Prod.fst h) nofun

/-- An accepted command is answered and reported. -/
theorem answers_of_ok (horderly : gateway.book.Orderly) {command : Command}
    (h : gateway.processCommand RISK_ORDERS LEVELS ORDERS capacity command =
      (.ok outcome, gateway', reports)) :
    Answers command outcome reports := by
  unfold processCommand at h
  split at h
  · exact absurd (congrArg Prod.fst h) nofun
  next next _ =>
  cases command with
  | newOrder order =>
    obtain ⟨summary, fills, book', rfl, hsubmit, rfl⟩ := processNewOrder_ok h
    have hsubmitted := Book.Orderly.submit horderly hsubmit
    exact .newOrder hsubmitted.filled fun report hmem ↦
      ⟨(hsubmitted.taker report hmem).1, (hsubmitted.taker report hmem).2.1⟩
  | cancelOrder cancel =>
    obtain ⟨hresult, hrest⟩ := Prod.mk.inj h
    obtain ⟨quantity, rfl⟩ := processCancel_ok (Prod.ext hresult rfl)
    rw [← (Prod.mk.inj hrest).2]
    exact .cancelled
  | replaceOrder replace =>
    obtain ⟨hresult, hrest⟩ := Prod.mk.inj h
    obtain ⟨oldQuantity, priorityLost, rfl⟩ := processReplace_ok (Prod.ext hresult rfl)
    rw [← (Prod.mk.inj hrest).2]
    exact .replaced

/-- A rejected command leaves the book as it was and reports nothing. -/
theorem CommandStep.rejected {command : Command} {outcome : Result × Logical.Gateway × List ExecutionReport}
    (hstep : CommandStep LEVELS ORDERS gateway command outcome) {error : GatewayError}
    (herror : outcome.1 = .error error) : outcome.2.1.book = gateway.book ∧ outcome.2.2 = [] := by
  cases hstep with
  | outOfSequence _ => exact ⟨rfl, rfl⟩
  | exhausted _ _ => exact ⟨rfl, rfl⟩
  | newOrder hadmitted _ _ hstep =>
    have hbook := congrArg Logical.Gateway.book hadmitted.rest
    cases hstep with
    | stale _ => exact ⟨hbook, rfl⟩
    | refused _ _ => exact ⟨hbook, rfl⟩
    | unplaced _ _ => exact ⟨hbook, rfl⟩
    | accepted _ _ _ _ _ => exact absurd herror nofun
  | cancelOrder hadmitted _ _ hstep | replaceOrder hadmitted _ _ hstep =>
    have hbook := congrArg Logical.Gateway.book hadmitted.rest
    cases hstep with
    | refused _ _ => exact ⟨hbook, rfl⟩
    | unplaced _ _ => exact ⟨hbook, rfl⟩
    | accepted _ _ _ _ _ => exact absurd herror nofun

end Logical.Gateway

namespace Gateway

variable {ACCOUNTS RISK_ORDERS LEVELS ORDERS_PER_LEVEL REPORTS : ℕ}
  {gateway gateway' : Gateway ACCOUNTS RISK_ORDERS LEVELS ORDERS_PER_LEVEL}

/-- Accepted commands are answered; rejected ones report nothing and leave the tops of the book. -/
structure Transition.Reported (transition : Transition ACCOUNTS RISK_ORDERS LEVELS ORDERS_PER_LEVEL) :
    Prop where
  accepted : ∀ outcome, transition.result = .ok outcome →
    Logical.Gateway.Answers transition.command outcome transition.reports
  rejected : ∀ error, transition.result = .error error → transition.reports = [] ∧
    ∀ side, transition.after.topLevel side = transition.before.topLevel side

theorem Represents.reported (hc : Capacities ACCOUNTS RISK_ORDERS LEVELS ORDERS_PER_LEVEL)
    {logical : Logical.Gateway} (h : gateway.Represents logical)
    (hinvariant : logical.Invariant LEVELS ORDERS_PER_LEVEL) {command : Command}
    {reports reports' : ReportBuffer REPORTS} {result : Except GatewayError GatewayOutcome}
    (hrun : gateway.processCommand command reports = .ok (result, gateway', reports')) :
    Transition.Reported ⟨gateway, command, result, reports'.entries, gateway'⟩ := by
  obtain ⟨gateway₁, reports₁, hrun₁, hrep, hentries⟩ := h.processCommand hc command reports
  have hstep := hinvariant.processCommand hc.orders RISK_ORDERS REPORTS command
  simp only [hrun, Except.ok.injEq, Prod.mk.injEq] at hrun₁
  obtain ⟨rfl, rfl, rfl⟩ := hrun₁
  constructor
  · intro outcome hresult
    apply Logical.Gateway.answers_of_ok h.book.orderly
    exact Prod.ext hresult (Prod.ext rfl hentries.symm)
  · intro error hresult
    obtain ⟨hbook, hreports⟩ := hstep.rejected hresult
    refine ⟨hentries.trans hreports, fun side ↦ ?_⟩
    have hafter : gateway'.topLevel side = _ := hrep.book.topLevel side
    have hbefore : gateway.topLevel side = _ := h.book.topLevel side
    rw [hafter, hbefore, hbook]

end Gateway

end DeterministicExchange
