import DeterministicExchange.Gateway.Reachable

/-!
# Failures and rejections of commands

On a reachable gateway every command returns, the state of risk is never in
doubt, and a rejected command changes only the sequence and the watermarks.
-/

namespace DeterministicExchange.Gateway

open Machine Book Risk

variable {ACCOUNTS RISK_ORDERS LEVELS ORDERS_PER_LEVEL REPORTS : ℕ}
  {gateway gateway' : Gateway ACCOUNTS RISK_ORDERS LEVELS ORDERS_PER_LEVEL}

/-- A command that is not admitted changes nothing. -/
theorem processCommand_of_not_admitted {command : Command} {reports : ReportBuffer REPORTS}
    {error : GatewayError} (h : checkSequence gateway.expectedSequence command.sequence = .error error) :
    gateway.processCommand command reports = .ok (.error error, gateway, reports.clear) := by
  unfold processCommand
  rw [h]

theorem checkSequence_exhausted {expected received : SequenceNumber} (hsequence : received = expected)
    (hmaximum : expected = Unsigned.maxValue 64) :
    checkSequence expected received = .error (.riskState .arithmeticOverflow) := by
  rw [hsequence, hmaximum]
  rfl

theorem checkSequence_of_ne {expected received : SequenceNumber} (h : received ≠ expected) :
    checkSequence expected received = .error (.sequence expected received) := if_pos h

/-- Every command on a reachable gateway returns. The state of risk is reported as doubtful only at
the end of the sequence space, and nothing has changed then. -/
theorem reachable_command_returns (hc : Capacities ACCOUNTS RISK_ORDERS LEVELS ORDERS_PER_LEVEL)
    (h : gateway.Reachable) (command : Command) (reports : ReportBuffer REPORTS) :
    ∃ result gateway' reports', gateway.processCommand command reports =
        .ok (result, gateway', reports') ∧
      ∀ reason, result = .error (.riskState reason) →
        reason = .arithmeticOverflow ∧ command.sequence = gateway.expectedSequence ∧
          gateway.expectedSequence = Unsigned.maxValue 64 ∧ gateway' = gateway := by
  obtain ⟨logical, hrep, hinvariant⟩ := h.sound hc
  obtain ⟨result, gateway', reports', logical', hrun, _, hstep⟩ :=
    hrep.commandStep hc hinvariant command reports
  refine ⟨result, gateway', reports', hrun, ?_⟩
  intro reason hresult
  obtain ⟨hreason, hsequence, hmaximum, _⟩ := hstep.riskState hresult
  rw [← hrep.expectedSequence] at hsequence hmaximum
  refine ⟨hreason, hsequence, hmaximum, ?_⟩
  rw [processCommand_of_not_admitted (checkSequence_exhausted hsequence hmaximum)] at hrun
  exact (Prod.ext_iff.mp (Prod.ext_iff.mp (Except.ok.inj hrun)).2).1.symm

theorem sampleGateway_replace_returns :
    ∃ result gateway' reports', sampleGateway.processCommand
        (.replaceOrder ⟨1, 7, 1, 2, ⟨60, by decide⟩, 6⟩) (ReportBuffer.new 1) =
        .ok (result, gateway', reports') ∧
      ∀ reason, result = .error (.riskState reason) →
        reason = .arithmeticOverflow ∧ (2 : SequenceNumber) = sampleGateway.expectedSequence ∧
          sampleGateway.expectedSequence = Unsigned.maxValue 64 ∧ gateway' = sampleGateway :=
  reachable_command_returns ⟨by decide, by decide, by decide, by decide⟩
    sampleGateway_reachableFromNew.reachable _ _

/-! ## Rejections -/

/-- The received watermark after a command. -/
def receivedAfter (watermark : Option OrderId) : Command → Option OrderId
  | .newOrder order => some (watermark.elim order.orderId (max order.orderId))
  | _ => watermark

/-- The risk watermark after a rejection by the book. -/
def riskWatermarkAfter (watermark : Option OrderId) : Command → Option OrderId
  | .newOrder order => some order.orderId
  | _ => watermark

/-- What a rejection by risk or by the book leaves as it was. -/
structure Unaffected (gateway gateway' : Gateway ACCOUNTS RISK_ORDERS LEVELS ORDERS_PER_LEVEL)
    (command : Command) (riskWatermark : Option OrderId) : Prop where
  book : gateway'.book.exportState = gateway.book.exportState
  accounts : gateway'.risk.exportState.accounts = gateway.risk.exportState.accounts
  reservations : gateway'.risk.exportState.reservations = gateway.risk.exportState.reservations
  killed : gateway'.risk.killed = gateway.risk.killed
  expectedSequence : gateway'.expectedSequence.val = gateway.expectedSequence.val + 1
  received : gateway'.maximumReceivedOrderId = receivedAfter gateway.maximumReceivedOrderId command
  riskWatermark : gateway'.risk.maximumOrderId = riskWatermark

/-- What a gateway keeps when a command is rejected with `error`. -/
def Framed (gateway gateway' : Gateway ACCOUNTS RISK_ORDERS LEVELS ORDERS_PER_LEVEL)
    (command : Command) : GatewayError → Prop
  | .sequence _ _ => gateway' = gateway
  | .risk _ => gateway.Unaffected gateway' command gateway.risk.maximumOrderId
  | .book _ => gateway.Unaffected gateway' command
      (riskWatermarkAfter gateway.risk.maximumOrderId command)
  | _ => True

/-- A rejection that leaves the admitted gateway as it was, up to the watermarks. -/
theorem Represents.unaffected (hc : Capacities ACCOUNTS RISK_ORDERS LEVELS ORDERS_PER_LEVEL)
    {logical admitted logical' : Logical.Gateway} (h : gateway.Represents logical)
    (h' : gateway'.Represents logical') {command : Command} {watermark : Option OrderId}
    (hadmitted : logical.Admitted command admitted)
    (hrejected : logical' = { admitted with
      risk := { admitted.risk with maximumOrderId := watermark }
      maximumReceivedOrderId := receivedAfter admitted.maximumReceivedOrderId command }) :
    gateway.Unaffected gateway' command watermark := by
  have hrest := hadmitted.rest
  have hrisk : admitted.risk = logical.risk := by rw [hrest]
  have hbook : logical'.book = logical.book := by rw [hrejected, hrest]
  have hreceived : admitted.maximumReceivedOrderId = logical.maximumReceivedOrderId := by rw [hrest]
  have hexport := h.risk.exportState
  have hexport' : gateway'.risk.exportState = { logical.risk with maximumOrderId := watermark } := by
    rw [h'.risk.exportState, hrejected, hrisk]
  refine ⟨?_, ?_, ?_, ?_, ?_, ?_, ?_⟩
  · rw [h'.book.exportState (addressable hc.book), h.book.exportState (addressable hc.book), hbook]
  · rw [hexport, hexport']
  · rw [hexport, hexport']
  · calc
      gateway'.risk.killed = gateway'.risk.exportState.killed := rfl
      _ = gateway.risk.exportState.killed := by rw [hexport, hexport']
  · rw [h.expectedSequence, h'.expectedSequence, hrejected]
    exact hadmitted.next
  · rw [h'.maximumReceived, h.maximumReceived, hrejected, ← hreceived]
  · exact congrArg RiskEngineState.maximumOrderId hexport'

theorem receivedAfter_stale {watermark : Option OrderId} {order : NewOrder}
    (h : ∃ maximum ∈ watermark, order.orderId ≤ maximum) :
    receivedAfter watermark (.newOrder order) = watermark := by
  obtain ⟨maximum, hmem, hle⟩ := h
  rw [Option.mem_def.mp hmem]
  show some (max order.orderId maximum) = some maximum
  rw [max_eq_right hle]

theorem receivedAfter_fresh {watermark : Option OrderId} {order : NewOrder}
    (h : ∀ maximum ∈ watermark, maximum < order.orderId) :
    receivedAfter watermark (.newOrder order) = some order.orderId := by
  cases watermark with
  | none => rfl
  | some maximum =>
    show some (max order.orderId maximum) = some order.orderId
    rw [max_eq_left (h maximum rfl).le]

theorem watermarks_of_amend {command : Command} (h : ∀ order, command ≠ .newOrder order) :
    (∀ watermark, receivedAfter watermark command = watermark) ∧
      ∀ watermark, riskWatermarkAfter watermark command = watermark := by
  cases command with
  | newOrder order => exact absurd rfl (h order)
  | cancelOrder _ => exact ⟨fun _ ↦ rfl, fun _ ↦ rfl⟩
  | replaceOrder _ => exact ⟨fun _ ↦ rfl, fun _ ↦ rfl⟩

theorem Represents.admitted_watermark {logical admitted : Logical.Gateway} (h : gateway.Represents logical)
    {command : Command} (hadmitted : logical.Admitted command admitted) :
    gateway.risk.maximumOrderId = admitted.risk.maximumOrderId := by
  rw [hadmitted.rest]
  exact congrArg RiskEngineState.maximumOrderId h.risk.exportState

theorem Represents.amend_framed (hc : Capacities ACCOUNTS RISK_ORDERS LEVELS ORDERS_PER_LEVEL)
    {logical admitted logical' : Logical.Gateway} (h : gateway.Represents logical)
    (h' : gateway'.Represents logical') {command : Command} (hadmitted : logical.Admitted command admitted)
    (hcommand : ∀ order, command ≠ .newOrder order) {orderId : OrderId} {accountId : AccountId}
    {asked : List Logical.Entry → Prop} {error : GatewayError} {reports : List ExecutionReport}
    {outcome : Logical.Gateway.Result × Logical.Gateway}
    (hstep : admitted.AmendStep LEVELS ORDERS_PER_LEVEL orderId accountId asked outcome)
    (houtcome : (Except.error error, logical', reports) = (outcome.1, outcome.2, [])) :
    gateway.Framed gateway' command error ∧ reports = [] := by
  have hwatermark := h.admitted_watermark hadmitted
  obtain ⟨hreceived, hriskWatermark⟩ := watermarks_of_amend hcommand
  cases hstep with
  | refused reason _ =>
    obtain ⟨rfl, rfl, hentries⟩ := by simpa using houtcome
    refine ⟨h.unaffected hc h' hadmitted ?_, hentries⟩
    rw [hreceived, hwatermark]
  | unplaced reason _ =>
    obtain ⟨rfl, rfl, hentries⟩ := by simpa using houtcome
    refine ⟨h.unaffected hc h' hadmitted ?_, hentries⟩
    rw [hreceived, hriskWatermark, hwatermark]
  | accepted _ _ _ _ _ => simp at houtcome

/-- A rejected command publishes no report and leaves everything but the sequence and the watermarks
of order ids as it was. -/
theorem reachable_rejection_framed (hc : Capacities ACCOUNTS RISK_ORDERS LEVELS ORDERS_PER_LEVEL)
    (h : gateway.Reachable) {command : Command} {reports reports' : ReportBuffer REPORTS}
    {error : GatewayError}
    (hrun : gateway.processCommand command reports = .ok (.error error, gateway', reports')) :
    gateway.Framed gateway' command error ∧ reports'.entries = [] := by
  obtain ⟨logical, hrep, hinvariant⟩ := h.sound hc
  obtain ⟨result, gateway₁, reports₁, logical', hrun₁, hrep', hstep⟩ :=
    hrep.commandStep hc hinvariant command reports
  rw [hrun] at hrun₁
  obtain ⟨hresult, hnext⟩ := Prod.ext_iff.mp (Except.ok.inj hrun₁)
  obtain ⟨rfl, rfl⟩ := Prod.ext_iff.mp hnext
  obtain rfl : Except.error error = result := hresult
  generalize houtcome : (Except.error error, logical', reports'.entries) = outcome at hstep
  cases hstep with
  | outOfSequence hsequence =>
    obtain ⟨herror, _, hentries⟩ := by simpa using houtcome
    subst herror
    rw [← hrep.expectedSequence] at hsequence
    rw [processCommand_of_not_admitted (checkSequence_of_ne hsequence)] at hrun
    obtain ⟨_, hnext⟩ := Prod.ext_iff.mp (Except.ok.inj hrun)
    exact ⟨(Prod.ext_iff.mp hnext).1.symm, hentries⟩
  | exhausted hsequence hmaximum =>
    obtain ⟨herror, _, hentries⟩ := by simpa using houtcome
    subst herror
    exact ⟨trivial, hentries⟩
  | @newOrder admitted order _ hadmitted hready hcommand hstep =>
    have hwatermark := hrep.admitted_watermark hadmitted
    subst hcommand
    cases hstep with
    | stale hstale =>
      obtain ⟨rfl, rfl, hentries⟩ := by simpa using houtcome
      refine ⟨hrep.unaffected hc hrep' hadmitted ?_, hentries⟩
      rw [receivedAfter_stale hstale, hwatermark]
    | refused hfresh reason =>
      obtain ⟨rfl, rfl, hentries⟩ := by simpa using houtcome
      refine ⟨hrep.unaffected hc hrep' hadmitted ?_, hentries⟩
      rw [receivedAfter_fresh hfresh, hwatermark]
    | unplaced hfresh reason =>
      obtain ⟨rfl, rfl, hentries⟩ := by simpa using houtcome
      refine ⟨hrep.unaffected hc hrep' hadmitted ?_, hentries⟩
      rw [receivedAfter_fresh hfresh]
      rfl
    | accepted _ _ _ _ _ => simp at houtcome
  | @cancelOrder admitted cancel _ hadmitted hready hcommand hstep =>
    exact hrep.amend_framed hc hrep' hadmitted (by simp [hcommand]) hstep houtcome
  | @replaceOrder admitted replace _ hadmitted hready hcommand hstep =>
    exact hrep.amend_framed hc hrep' hadmitted (by simp [hcommand]) hstep houtcome

theorem sampleGateway_replace_rejected :
    ∃ gateway' reports', sampleGateway.processCommand (.replaceOrder ⟨1, 7, 1, 2, ⟨60, by decide⟩, 0⟩)
        (ReportBuffer.new 1) = .ok (.error (.book .invalidQuantity), gateway', reports') ∧
      sampleGateway.Framed gateway' (.replaceOrder ⟨1, 7, 1, 2, ⟨60, by decide⟩, 0⟩)
        (.book .invalidQuantity) ∧ reports'.entries = [] := by
  have hresult : (sampleGateway.processCommand (.replaceOrder ⟨1, 7, 1, 2, ⟨60, by decide⟩, 0⟩)
      (ReportBuffer.new 1)).map Prod.fst = .ok (.error (.book .invalidQuantity)) := by decide
  obtain ⟨⟨gateway', reports'⟩, hrun⟩ := Run.exists_eq_ok hresult
  exact ⟨gateway', reports', hrun, reachable_rejection_framed
    ⟨by decide, by decide, by decide, by decide⟩ sampleGateway_reachableFromNew.reachable hrun⟩

end DeterministicExchange.Gateway
