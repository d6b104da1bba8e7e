import DeterministicExchange.Book.OrderBook
import DeterministicExchange.Risk.RiskEngine
import DeterministicExchange.Wire.Message

/-!
# Gateway

The command path of `hft-gateway`: sequence admission, risk reservation, book
mutation, and the settlement or the rollback of the reservation. A rejected
command returns the gateway as it is at that return.
-/

namespace DeterministicExchange

open Machine Book Risk

inductive GatewayError where
  | parse (error : Wire.ParseError)
  | sequence (expected received : SequenceNumber)
  | risk (reason : RejectReason)
  | book (reason : RejectReason)
  | riskState (reason : RejectReason)
  deriving DecidableEq, Repr

inductive GatewayOutcome where
  | newOrder (summary : MatchSummary)
  | cancelled (order : CancelledOrder)
  | replaced (order : ReplacedOrder)
  deriving DecidableEq, Repr

structure Gateway (ACCOUNTS RISK_ORDERS LEVELS ORDERS_PER_LEVEL : ℕ) where
  risk : RiskEngine ACCOUNTS RISK_ORDERS
  book : OrderBook LEVELS ORDERS_PER_LEVEL
  expectedSequence : SequenceNumber
  maximumReceivedOrderId : Option OrderId

namespace Gateway

variable {ACCOUNTS RISK_ORDERS LEVELS ORDERS_PER_LEVEL REPORTS : ℕ}

def new (risk : RiskEngine ACCOUNTS RISK_ORDERS) (instrument : InstrumentId) :
    Gateway ACCOUNTS RISK_ORDERS LEVELS ORDERS_PER_LEVEL where
  risk := risk
  book := OrderBook.new LEVELS ORDERS_PER_LEVEL instrument
  expectedSequence := 1
  maximumReceivedOrderId := none

def topLevel (gateway : Gateway ACCOUNTS RISK_ORDERS LEVELS ORDERS_PER_LEVEL) (side : Side) :
    Option TopLevel := gateway.book.topLevel side

/-- Sequence admission; the checked successor of the expected sequence. -/
def checkSequence (expected received : SequenceNumber) : Except GatewayError SequenceNumber :=
  if received ≠ expected then .error (.sequence expected received)
  else okOr (.riskState .arithmeticOverflow) (Unsigned.checkedAdd expected 1)

/-- Records the fills of one command, maker before taker, and stops at the first failure. -/
def recordFills : List ExecutionReport → RiskEngine ACCOUNTS RISK_ORDERS →
    Run (Except RejectReason Unit × RiskEngine ACCOUNTS RISK_ORDERS)
  | [], risk => .ok (.ok (), risk)
  | report :: reports, risk => do
    match ← risk.recordFill report.makerOrderId report.quantity with
    | (.error reason, risk) => return (.error reason, risk)
    | (.ok _, risk) =>
      match ← risk.recordFill report.takerOrderId report.quantity with
      | (.error reason, risk) => return (.error reason, risk)
      | (.ok _, risk) => recordFills reports risk

def processNewOrder (gateway : Gateway ACCOUNTS RISK_ORDERS LEVELS ORDERS_PER_LEVEL) (order : NewOrder)
    (reports : ReportBuffer REPORTS) :
    Run (Except GatewayError GatewayOutcome ×
      Gateway ACCOUNTS RISK_ORDERS LEVELS ORDERS_PER_LEVEL × ReportBuffer REPORTS) :=
  if gateway.maximumReceivedOrderId.any fun maximum ↦ order.orderId ≤ maximum then
    .ok (.error (.risk .duplicateOrderId), gateway, reports)
  else do
    let gateway := { gateway with maximumReceivedOrderId := some order.orderId }
    match ← gateway.risk.checkAndReserve order with
    | (.error reason, risk) => return (.error (.risk reason), { gateway with risk := risk }, reports)
    | (.ok _, risk) =>
      match ← gateway.book.submit order reports with
      | (.error error, book, reports) =>
        match ← risk.settle order.orderId 0 with
        | (.error reason, risk) =>
          return (.error (.riskState reason), { gateway with risk := risk, book := book }, reports)
        | (.ok _, risk) =>
          return (.error (.book error), { gateway with risk := risk, book := book }, reports)
      | (.ok summary, book, reports) =>
        match ← recordFills reports.entries risk with
        | (.error reason, risk) =>
          return (.error (.riskState reason), { gateway with risk := risk, book := book }, reports)
        | (.ok _, risk) =>
          if summary.restingQuantity.val = 0 ∧ summary.filledQuantity.val < order.quantity.val then
            match ← risk.settle order.orderId 0 with
            | (.error reason, risk) =>
              return (.error (.riskState reason), { gateway with risk := risk, book := book }, reports)
            | (.ok _, risk) =>
              return (.ok (.newOrder summary), { gateway with risk := risk, book := book }, reports)
          else
            return (.ok (.newOrder summary), { gateway with risk := risk, book := book }, reports)

/-- Risk is amended first; a book rejection restores the prior total. -/
def processReplace (gateway : Gateway ACCOUNTS RISK_ORDERS LEVELS ORDERS_PER_LEVEL)
    (replace : ReplaceOrder) :
    Run (Except GatewayError GatewayOutcome × Gateway ACCOUNTS RISK_ORDERS LEVELS ORDERS_PER_LEVEL) := do
  match ← gateway.risk.adjustReservation replace.orderId replace.accountId replace.price
      replace.quantity with
  | (.error reason, risk) => return (.error (.risk reason), { gateway with risk := risk })
  | (.ok (_, priorRemaining), risk) =>
    match ← gateway.book.replace replace with
    | (.ok replaced, book) =>
      return (.ok (.replaced replaced), { gateway with risk := risk, book := book })
    | (.error error, book) =>
      match ← risk.restoreReservation replace.orderId replace.accountId priorRemaining with
      | (.error reason, risk) =>
        return (.error (.riskState reason), { gateway with risk := risk, book := book })
      | (.ok _, risk) => return (.error (.book error), { gateway with risk := risk, book := book })

def processCancel (gateway : Gateway ACCOUNTS RISK_ORDERS LEVELS ORDERS_PER_LEVEL)
    (cancel : CancelOrder) :
    Run (Except GatewayError GatewayOutcome × Gateway ACCOUNTS RISK_ORDERS LEVELS ORDERS_PER_LEVEL) :=
  match gateway.risk.canCancel cancel.orderId cancel.accountId with
  | .error reason => .ok (.error (.risk reason), gateway)
  | .ok _ => do
    match ← gateway.book.cancel cancel with
    | (.error error, book) => return (.error (.book error), { gateway with book := book })
    | (.ok cancelled, book) =>
      match ← gateway.risk.cancelReservation cancel.orderId cancel.accountId with
      | (.error reason, risk) =>
        return (.error (.riskState reason), { gateway with risk := risk, book := book })
      | (.ok released, risk) =>
        if released ≠ cancelled.quantity then
          return (.error (.riskState .arithmeticOverflow), { gateway with risk := risk, book := book })
        else return (.ok (.cancelled cancelled), { gateway with risk := risk, book := book })

/-- Processes one admitted command. -/
def dispatch (gateway : Gateway ACCOUNTS RISK_ORDERS LEVELS ORDERS_PER_LEVEL) (command : Command)
    (reports : ReportBuffer REPORTS) :
    Run (Except GatewayError GatewayOutcome ×
      Gateway ACCOUNTS RISK_ORDERS LEVELS ORDERS_PER_LEVEL × ReportBuffer REPORTS) :=
  match command with
  | .newOrder order => gateway.processNewOrder order reports
  | .cancelOrder cancel => do
    let (result, gateway) ← gateway.processCancel cancel
    return (result, gateway, reports)
  | .replaceOrder replace => do
    let (result, gateway) ← gateway.processReplace replace
    return (result, gateway, reports)

def processCommand (gateway : Gateway ACCOUNTS RISK_ORDERS LEVELS ORDERS_PER_LEVEL)
    (command : Command) (reports : ReportBuffer REPORTS) :
    Run (Except GatewayError GatewayOutcome ×
      Gateway ACCOUNTS RISK_ORDERS LEVELS ORDERS_PER_LEVEL × ReportBuffer REPORTS) :=
  let reports := reports.clear
  match checkSequence gateway.expectedSequence command.sequence with
  | .error error => .ok (.error error, gateway, reports)
  | .ok next => { gateway with expectedSequence := next }.dispatch command reports

def processFrame (gateway : Gateway ACCOUNTS RISK_ORDERS LEVELS ORDERS_PER_LEVEL)
    (frame : Codec.Bytes) (reports : ReportBuffer REPORTS) :
    Run (Except GatewayError GatewayOutcome ×
      Gateway ACCOUNTS RISK_ORDERS LEVELS ORDERS_PER_LEVEL × ReportBuffer REPORTS) := do
  let reports := reports.clear
  match ← Wire.parseMessage frame with
  | .error error => return (.error (.parse error), gateway, reports)
  | .ok message =>
    match checkSequence gateway.expectedSequence (← message.sequence) with
    | .error error => return (.error error, gateway, reports)
    | .ok next => dispatch { gateway with expectedSequence := next } (← message.toCommand) reports

end Gateway

end DeterministicExchange
