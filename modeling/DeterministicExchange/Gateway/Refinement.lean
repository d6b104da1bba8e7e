import DeterministicExchange.Book.Submit
import DeterministicExchange.Gateway.Logical
import DeterministicExchange.Risk.Refinement

/-!
# Refinement of the gateway

A gateway whose book and risk engine represent logical states processes every
command as the logical gateway does: it never faults, returns the same result
and the same reports, and ends in a gateway that represents the logical outcome.
-/

namespace DeterministicExchange

open Machine Book Risk

variable {ACCOUNTS RISK_ORDERS LEVELS ORDERS_PER_LEVEL REPORTS : ℕ}

/-- Levels hold at least one order, and the positions of every index fit 32 bits. -/
structure Capacities (ACCOUNTS RISK_ORDERS LEVELS ORDERS_PER_LEVEL : ℕ) : Prop where
  orders : 0 < ORDERS_PER_LEVEL
  book : indexCapacity LEVELS ORDERS_PER_LEVEL ≤ 2 ^ 32
  accounts : ACCOUNTS * indexPlanes ≤ 2 ^ 32
  reservations : RISK_ORDERS * indexPlanes ≤ 2 ^ 32

/-- The bounds under which every index position fits a word. -/
structure IndexCapacities (ACCOUNTS RISK_ORDERS LEVELS ORDERS_PER_LEVEL : ℕ) : Prop where
  book : indexCapacity LEVELS ORDERS_PER_LEVEL ≤ 2 ^ 32
  accounts : ACCOUNTS * indexPlanes ≤ 2 ^ 32
  reservations : RISK_ORDERS * indexPlanes ≤ 2 ^ 32

theorem Capacities.index (hc : Capacities ACCOUNTS RISK_ORDERS LEVELS ORDERS_PER_LEVEL) :
    IndexCapacities ACCOUNTS RISK_ORDERS LEVELS ORDERS_PER_LEVEL :=
  ⟨hc.book, hc.accounts, hc.reservations⟩

structure Gateway.Represents (gateway : Gateway ACCOUNTS RISK_ORDERS LEVELS ORDERS_PER_LEVEL)
    (logical : Logical.Gateway) : Prop where
  risk : gateway.risk.Represents logical.risk
  book : gateway.book.Represents logical.book
  expectedSequence : gateway.expectedSequence = logical.expectedSequence
  maximumReceived : gateway.maximumReceivedOrderId = logical.maximumReceivedOrderId

section Fills

variable {risk : RiskEngine ACCOUNTS RISK_ORDERS} {logical : RiskEngineState}

theorem recordFills_refines (hA : ACCOUNTS * indexPlanes ≤ 2 ^ 32)
    (hR : RISK_ORDERS * indexPlanes ≤ 2 ^ 32) (reports : List ExecutionReport)
    (h : risk.Represents logical) :
    ∃ risk', Gateway.recordFills reports risk =
        .ok ((Logical.Gateway.recordFills reports logical).1, risk') ∧
      risk'.Represents (Logical.Gateway.recordFills reports logical).2 := by
  induction reports generalizing risk logical with
  | nil => exact ⟨risk, rfl, h⟩
  | cons report reports ih =>
    rw [Gateway.recordFills, Logical.Gateway.recordFills]
    have hmaker := h.recordFill hA hR report.makerOrderId report.quantity
    cases hspec : logical.recordFill report.makerOrderId report.quantity with
    | error reason =>
      rw [hmaker.of_error hspec]
      exact ⟨risk, rfl, h⟩
    | ok outcome =>
      obtain ⟨risk₁, hrun, h₁⟩ := hmaker.of_ok hspec
      simp only [hrun, Run.ok_bind]
      have htaker := h₁.recordFill hA hR report.takerOrderId report.quantity
      cases hspec₁ : outcome.2.recordFill report.takerOrderId report.quantity with
      | error reason =>
        rw [htaker.of_error hspec₁]
        exact ⟨risk₁, rfl, h₁⟩
      | ok outcome₁ =>
        obtain ⟨risk₂, hrun₁, h₂⟩ := htaker.of_ok hspec₁
        simp only [hrun₁, Run.ok_bind]
        exact ih h₂

end Fills

namespace Gateway.Represents

variable {gateway : Gateway ACCOUNTS RISK_ORDERS LEVELS ORDERS_PER_LEVEL} {logical : Logical.Gateway}

/-- A new order is processed as the logical gateway does. -/
theorem processNewOrder (hc : Capacities ACCOUNTS RISK_ORDERS LEVELS ORDERS_PER_LEVEL)
    (h : gateway.Represents logical) (order : NewOrder) {reports : ReportBuffer REPORTS}
    (hreports : reports.entries = []) :
    ∃ gateway' reports', gateway.processNewOrder order reports =
        .ok ((logical.processNewOrder RISK_ORDERS LEVELS ORDERS_PER_LEVEL REPORTS order).1, gateway',
          reports') ∧
      gateway'.Represents
        (logical.processNewOrder RISK_ORDERS LEVELS ORDERS_PER_LEVEL REPORTS order).2.1 ∧
      reports'.entries =
        (logical.processNewOrder RISK_ORDERS LEVELS ORDERS_PER_LEVEL REPORTS order).2.2 := by
  have hcapacity : reports.remainingCapacity = REPORTS := by
    unfold ReportBuffer.remainingCapacity ReportBuffer.len
    rw [hreports]
    rfl
  unfold Gateway.processNewOrder Logical.Gateway.processNewOrder
  rw [h.maximumReceived]
  by_cases hduplicate : (logical.maximumReceivedOrderId.any fun maximum ↦ order.orderId ≤ maximum) = true
  · rw [if_pos hduplicate, if_pos hduplicate]
    exact ⟨gateway, reports, rfl, h, hreports⟩
  rw [if_neg hduplicate, if_neg hduplicate]
  have hreserve := h.risk.checkAndReserve hc.accounts hc.reservations order
  simp only
  cases hreserveSpec : logical.risk.checkAndReserve RISK_ORDERS order with
  | error reason =>
    rw [hreserve.of_error hreserveSpec]
    exact ⟨_, reports, rfl, ⟨h.risk, h.book, h.expectedSequence, rfl⟩, hreports⟩
  | ok reserved =>
    obtain ⟨risk₁, hrun₁, hrisk₁⟩ := hreserve.of_ok hreserveSpec
    simp only [hrun₁, Run.ok_bind]
    have hsubmit := h.book.submit hc.orders hc.book order reports
    rw [hcapacity] at hsubmit
    cases hsubmitSpec : logical.book.submit LEVELS ORDERS_PER_LEVEL REPORTS order with
    | error error =>
      rw [hsubmit.of_error hsubmitSpec]
      have hsettle := hrisk₁.settle hc.accounts hc.reservations order.orderId 0
      simp only [Run.ok_bind, Logical.Gateway.release]
      cases hsettleSpec : reserved.2.settle order.orderId 0 with
      | error reason =>
        rw [hsettle.of_error hsettleSpec]
        exact ⟨_, reports, rfl, ⟨hrisk₁, h.book, h.expectedSequence, rfl⟩, hreports⟩
      | ok settled =>
        obtain ⟨risk₂, hrun₂, hrisk₂⟩ := hsettle.of_ok hsettleSpec
        rw [hrun₂]
        exact ⟨_, reports, rfl, ⟨hrisk₂, h.book, h.expectedSequence, rfl⟩, hreports⟩
    | ok submitted =>
      obtain ⟨summary, fills, book'⟩ := submitted
      obtain ⟨⟨book₁, reports₁⟩, hrun, hbook₁, hentries⟩ := hsubmit.of_ok hsubmitSpec
      rw [hreports, List.nil_append] at hentries
      have hentries' : reports₁.entries = fills.map (Logical.Fill.report order) := hentries
      obtain ⟨risk₂, hfills, hrisk₂⟩ := recordFills_refines hc.accounts hc.reservations
        (fills.map (Logical.Fill.report order)) hrisk₁
      simp only [hrun, Run.ok_bind, hentries', hfills]
      cases hrecorded : Logical.Gateway.recordFills (fills.map (Logical.Fill.report order))
          reserved.2 with
      | mk result risk' =>
        rw [hrecorded] at hrisk₂
        cases result with
        | error reason =>
          exact ⟨_, reports₁, rfl, ⟨hrisk₂, hbook₁, h.expectedSequence, rfl⟩, hentries'⟩
        | ok _ =>
          simp only
          by_cases hdiscard : summary.restingQuantity.val = 0 ∧
              summary.filledQuantity.val < order.quantity.val
          · rw [if_pos hdiscard, if_pos hdiscard]
            have hsettle := hrisk₂.settle hc.accounts hc.reservations order.orderId 0
            simp only [Logical.Gateway.release]
            cases hsettleSpec : risk'.settle order.orderId 0 with
            | error reason =>
              rw [hsettle.of_error hsettleSpec]
              exact ⟨_, reports₁, rfl, ⟨hrisk₂, hbook₁, h.expectedSequence, rfl⟩, hentries'⟩
            | ok settled =>
              obtain ⟨risk₃, hrun₃, hrisk₃⟩ := hsettle.of_ok hsettleSpec
              rw [hrun₃]
              exact ⟨_, reports₁, rfl, ⟨hrisk₃, hbook₁, h.expectedSequence, rfl⟩, hentries'⟩
          · rw [if_neg hdiscard, if_neg hdiscard]
            exact ⟨_, reports₁, rfl, ⟨hrisk₂, hbook₁, h.expectedSequence, rfl⟩, hentries'⟩

theorem processReplace (hc : Capacities ACCOUNTS RISK_ORDERS LEVELS ORDERS_PER_LEVEL)
    (h : gateway.Represents logical) (replace : ReplaceOrder) :
    ∃ gateway', gateway.processReplace replace =
        .ok ((logical.processReplace LEVELS ORDERS_PER_LEVEL replace).1, gateway') ∧
      gateway'.Represents (logical.processReplace LEVELS ORDERS_PER_LEVEL replace).2 := by
  unfold Gateway.processReplace Logical.Gateway.processReplace
  have hadjust := h.risk.adjustReservation hc.accounts hc.reservations replace.orderId
    replace.accountId replace.price replace.quantity
  cases hadjustSpec : logical.risk.adjustReservation replace.orderId replace.accountId replace.price
      replace.quantity with
  | error reason =>
    rw [hadjust.of_error hadjustSpec]
    exact ⟨_, rfl, h.risk, h.book, h.expectedSequence, h.maximumReceived⟩
  | ok adjusted =>
    obtain ⟨⟨released, prior⟩, risk'⟩ := adjusted
    obtain ⟨risk₁, hrun₁, hrisk₁⟩ := hadjust.of_ok hadjustSpec
    simp only [hrun₁, Run.ok_bind]
    have hreplace := h.book.replace hc.orders hc.book replace
    cases hreplaceSpec : logical.book.replace LEVELS ORDERS_PER_LEVEL replace with
    | ok replaced =>
      obtain ⟨book₁, hrun₂, hbook₁⟩ := hreplace.of_ok hreplaceSpec
      rw [hrun₂]
      exact ⟨_, rfl, hrisk₁, hbook₁, h.expectedSequence, h.maximumReceived⟩
    | error error =>
      rw [hreplace.of_error hreplaceSpec]
      simp only [Run.ok_bind]
      have hrestore := hrisk₁.restoreReservation hc.accounts hc.reservations replace.orderId
        replace.accountId prior
      cases hrestoreSpec : risk'.restoreReservation replace.orderId replace.accountId prior with
      | error reason =>
        rw [hrestore.of_error hrestoreSpec]
        exact ⟨_, rfl, hrisk₁, h.book, h.expectedSequence, h.maximumReceived⟩
      | ok restored =>
        obtain ⟨risk₂, hrun₃, hrisk₂⟩ := hrestore.of_ok hrestoreSpec
        rw [hrun₃]
        exact ⟨_, rfl, hrisk₂, h.book, h.expectedSequence, h.maximumReceived⟩

theorem processCancel (hc : Capacities ACCOUNTS RISK_ORDERS LEVELS ORDERS_PER_LEVEL)
    (h : gateway.Represents logical) (cancel : CancelOrder) :
    ∃ gateway', gateway.processCancel cancel = .ok ((logical.processCancel cancel).1, gateway') ∧
      gateway'.Represents (logical.processCancel cancel).2 := by
  unfold Gateway.processCancel Logical.Gateway.processCancel
  rw [h.risk.canCancel hc.reservations cancel.orderId cancel.accountId]
  cases logical.risk.canCancel cancel.orderId cancel.accountId with
  | error reason => exact ⟨gateway, rfl, h⟩
  | ok _ =>
    have hcancel := h.book.cancel hc.book cancel
    cases hcancelSpec : logical.book.cancel cancel with
    | error error =>
      rw [hcancel.of_error hcancelSpec]
      exact ⟨_, rfl, h.risk, h.book, h.expectedSequence, h.maximumReceived⟩
    | ok cancelled =>
      obtain ⟨book₁, hrun₁, hbook₁⟩ := hcancel.of_ok hcancelSpec
      have hrelease := h.risk.cancelReservation hc.accounts hc.reservations cancel.orderId
        cancel.accountId
      simp only [hrun₁, Run.ok_bind]
      cases hreleaseSpec : logical.risk.cancelReservation cancel.orderId cancel.accountId with
      | error reason =>
        rw [hrelease.of_error hreleaseSpec]
        exact ⟨_, rfl, h.risk, hbook₁, h.expectedSequence, h.maximumReceived⟩
      | ok released =>
        obtain ⟨risk₁, hrun₂, hrisk₁⟩ := hrelease.of_ok hreleaseSpec
        simp only [hrun₂, Run.ok_bind]
        by_cases hquantity : released.1 ≠ cancelled.1.quantity
        · rw [if_pos hquantity, if_pos hquantity]
          exact ⟨_, rfl, hrisk₁, hbook₁, h.expectedSequence, h.maximumReceived⟩
        · rw [if_neg hquantity, if_neg hquantity]
          exact ⟨_, rfl, hrisk₁, hbook₁, h.expectedSequence, h.maximumReceived⟩

theorem dispatch (hc : Capacities ACCOUNTS RISK_ORDERS LEVELS ORDERS_PER_LEVEL)
    (h : gateway.Represents logical) (command : Command) {reports : ReportBuffer REPORTS}
    (hreports : reports.entries = []) :
    ∃ gateway' reports', gateway.dispatch command reports =
        .ok ((logical.dispatch RISK_ORDERS LEVELS ORDERS_PER_LEVEL REPORTS command).1, gateway',
          reports') ∧
      gateway'.Represents (logical.dispatch RISK_ORDERS LEVELS ORDERS_PER_LEVEL REPORTS command).2.1 ∧
      reports'.entries = (logical.dispatch RISK_ORDERS LEVELS ORDERS_PER_LEVEL REPORTS command).2.2 := by
  cases command with
  | newOrder order => exact h.processNewOrder hc order hreports
  | cancelOrder cancel =>
    obtain ⟨gateway', hrun, h'⟩ := h.processCancel hc cancel
    refine ⟨gateway', reports, ?_, h', hreports⟩
    unfold Gateway.dispatch
    simp only [hrun, Run.ok_bind]
    rfl
  | replaceOrder replace =>
    obtain ⟨gateway', hrun, h'⟩ := h.processReplace hc replace
    refine ⟨gateway', reports, ?_, h', hreports⟩
    unfold Gateway.dispatch
    simp only [hrun, Run.ok_bind]
    rfl

/-- Every command is processed as the logical gateway does. -/
theorem processCommand (hc : Capacities ACCOUNTS RISK_ORDERS LEVELS ORDERS_PER_LEVEL)
    (h : gateway.Represents logical) (command : Command) (reports : ReportBuffer REPORTS) :
    ∃ gateway' reports', gateway.processCommand command reports =
        .ok ((logical.processCommand RISK_ORDERS LEVELS ORDERS_PER_LEVEL REPORTS command).1, gateway',
          reports') ∧
      gateway'.Represents
        (logical.processCommand RISK_ORDERS LEVELS ORDERS_PER_LEVEL REPORTS command).2.1 ∧
      reports'.entries =
        (logical.processCommand RISK_ORDERS LEVELS ORDERS_PER_LEVEL REPORTS command).2.2 := by
  unfold Gateway.processCommand Logical.Gateway.processCommand
  rw [h.expectedSequence]
  cases checkSequence logical.expectedSequence command.sequence with
  | error error => exact ⟨gateway, reports.clear, rfl, h, rfl⟩
  | ok next =>
    have hnext : { gateway with expectedSequence := next }.Represents
        { logical with expectedSequence := next } := ⟨h.risk, h.book, rfl, h.maximumReceived⟩
    exact hnext.dispatch hc command rfl

end Gateway.Represents

end DeterministicExchange
