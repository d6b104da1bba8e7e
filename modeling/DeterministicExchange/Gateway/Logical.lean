import DeterministicExchange.Book.Logical
import DeterministicExchange.Gateway.Gateway
import DeterministicExchange.Risk.Logical

/-!
# Logical gateway

The command path over the logical book and the logical risk state. Commands are
total: every command has a result, a list of execution reports and a next state.
-/

namespace DeterministicExchange.Logical

open Machine DeterministicExchange.Book DeterministicExchange.Risk

structure Gateway where
  risk : RiskEngineState
  book : Book
  expectedSequence : SequenceNumber
  maximumReceivedOrderId : Option OrderId

namespace Gateway

abbrev Result := Except GatewayError GatewayOutcome

def new (risk : RiskEngineState) (instrument : InstrumentId) : Gateway where
  risk := risk
  book := Book.empty instrument
  expectedSequence := 1
  maximumReceivedOrderId := none

/-- Records fills, maker before taker, up to the first failure. -/
def recordFills : List ExecutionReport → RiskEngineState → Except RejectReason Unit × RiskEngineState
  | [], risk => (.ok (), risk)
  | report :: reports, risk =>
    match risk.recordFill report.makerOrderId report.quantity with
    | .error reason => (.error reason, risk)
    | .ok (_, risk) =>
      match risk.recordFill report.takerOrderId report.quantity with
      | .error reason => (.error reason, risk)
      | .ok (_, risk) => recordFills reports risk

/-- Releases the reservation of an order that does not rest, and returns `result` if that succeeds. -/
def release (gateway : Gateway) (orderId : OrderId) (result : Result) : Result × Gateway :=
  match gateway.risk.settle orderId 0 with
  | .error reason => (.error (.riskState reason), gateway)
  | .ok (_, risk) => (result, { gateway with risk := risk })

def processNewOrder (RISK_ORDERS LEVELS ORDERS capacity : ℕ) (gateway : Gateway) (order : NewOrder) :
    Result × Gateway × List ExecutionReport :=
  if gateway.maximumReceivedOrderId.any fun maximum ↦ order.orderId ≤ maximum then
    (.error (.risk .duplicateOrderId), gateway, [])
  else
    let gateway := { gateway with maximumReceivedOrderId := some order.orderId }
    match gateway.risk.checkAndReserve RISK_ORDERS order with
    | .error reason => (.error (.risk reason), gateway, [])
    | .ok (_, risk) =>
      match gateway.book.submit LEVELS ORDERS capacity order with
      | .error error =>
        let (result, gateway) := { gateway with risk := risk }.release order.orderId (.error (.book error))
        (result, gateway, [])
      | .ok (summary, fills, book) =>
        let reports := fills.map (Fill.report order)
        match recordFills reports risk with
        | (.error reason, risk) =>
          (.error (.riskState reason), { gateway with risk := risk, book := book }, reports)
        | (.ok _, risk) =>
          let gateway := { gateway with risk := risk, book := book }
          if summary.restingQuantity.val = 0 ∧ summary.filledQuantity.val < order.quantity.val then
            let (result, gateway) := gateway.release order.orderId (.ok (.newOrder summary))
            (result, gateway, reports)
          else (.ok (.newOrder summary), gateway, reports)

def processReplace (LEVELS ORDERS : ℕ) (gateway : Gateway) (replace : ReplaceOrder) : Result × Gateway :=
  match gateway.risk.adjustReservation replace.orderId replace.accountId replace.price
      replace.quantity with
  | .error reason => (.error (.risk reason), gateway)
  | .ok ((_, prior), risk) =>
    match gateway.book.replace LEVELS ORDERS replace with
    | .ok (replaced, book) => (.ok (.replaced replaced), { gateway with risk := risk, book := book })
    | .error error =>
      match risk.restoreReservation replace.orderId replace.accountId prior with
      | .error reason => (.error (.riskState reason), { gateway with risk := risk })
      | .ok (_, risk) => (.error (.book error), { gateway with risk := risk })

def processCancel (gateway : Gateway) (cancel : CancelOrder) : Result × Gateway :=
  match gateway.risk.canCancel cancel.orderId cancel.accountId with
  | .error reason => (.error (.risk reason), gateway)
  | .ok _ =>
    match gateway.book.cancel cancel with
    | .error error => (.error (.book error), gateway)
    | .ok (cancelled, book) =>
      match gateway.risk.cancelReservation cancel.orderId cancel.accountId with
      | .error reason => (.error (.riskState reason), { gateway with book := book })
      | .ok (released, risk) =>
        (if released ≠ cancelled.quantity then .error (.riskState .arithmeticOverflow)
          else .ok (.cancelled cancelled), { gateway with risk := risk, book := book })

def dispatch (RISK_ORDERS LEVELS ORDERS capacity : ℕ) (gateway : Gateway) :
    Command → Result × Gateway × List ExecutionReport
  | .newOrder order => gateway.processNewOrder RISK_ORDERS LEVELS ORDERS capacity order
  | .cancelOrder cancel =>
    let (result, gateway) := gateway.processCancel cancel
    (result, gateway, [])
  | .replaceOrder replace =>
    let (result, gateway) := gateway.processReplace LEVELS ORDERS replace
    (result, gateway, [])

def processCommand (RISK_ORDERS LEVELS ORDERS capacity : ℕ) (gateway : Gateway) (command : Command) :
    Result × Gateway × List ExecutionReport :=
  match DeterministicExchange.Gateway.checkSequence gateway.expectedSequence command.sequence with
  | .error error => (.error error, gateway, [])
  | .ok next => { gateway with expectedSequence := next }.dispatch RISK_ORDERS LEVELS ORDERS capacity command

end Gateway

end DeterministicExchange.Logical
