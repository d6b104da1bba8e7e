import DeterministicExchange.Machine.Integer
import DeterministicExchange.Machine.Run

/-!
# Shared exchange types

Identifiers, commands, rejections and execution reports of `hft-types`. The
report buffer stores its live prefix; its capacity bound is part of the type.
-/

namespace DeterministicExchange

open Machine

abbrev OrderId := U64
abbrev AccountId := U32
abbrev InstrumentId := U32
abbrev PriceTicks := I64
abbrev Quantity := U64
abbrev SequenceNumber := U64

inductive Side where
  | buy
  | sell
  deriving DecidableEq, Repr

def Side.opposite : Side → Side
  | .buy => .sell
  | .sell => .buy

inductive TimeInForce where
  | gtc
  | ioc
  | fok
  | postOnly
  deriving DecidableEq, Repr

structure NewOrder where
  orderId : OrderId
  accountId : AccountId
  instrumentId : InstrumentId
  price : PriceTicks
  quantity : Quantity
  sequence : SequenceNumber
  side : Side
  timeInForce : TimeInForce
  deriving DecidableEq, Repr

structure ReplaceOrder where
  orderId : OrderId
  accountId : AccountId
  instrumentId : InstrumentId
  sequence : SequenceNumber
  price : PriceTicks
  quantity : Quantity
  deriving DecidableEq, Repr

structure CancelOrder where
  orderId : OrderId
  accountId : AccountId
  instrumentId : InstrumentId
  sequence : SequenceNumber
  deriving DecidableEq, Repr

inductive Command where
  | newOrder (order : NewOrder)
  | cancelOrder (cancel : CancelOrder)
  | replaceOrder (replace : ReplaceOrder)
  deriving DecidableEq, Repr

def Command.instrumentId : Command → InstrumentId
  | .newOrder order => order.instrumentId
  | .cancelOrder cancel => cancel.instrumentId
  | .replaceOrder replace => replace.instrumentId

def Command.sequence : Command → SequenceNumber
  | .newOrder order => order.sequence
  | .cancelOrder cancel => cancel.sequence
  | .replaceOrder replace => replace.sequence

inductive RejectReason where
  | invalidInstrument
  | invalidPrice
  | invalidQuantity
  | quantityLimit
  | notionalLimit
  | positionLimit
  | openOrderLimit
  | priceCollar
  | duplicateOrderId
  | unknownOrder
  | notOrderOwner
  | killSwitch
  | unknownAccount
  | arithmeticOverflow
  | orderCapacity
  | priceLevelCapacity
  | priceLevelOrderCapacity
  | reportCapacity
  | insufficientLiquidity
  | postOnlyWouldTrade
  | replaceWouldCross
  deriving DecidableEq, Repr

inductive OrderState where
  | accepted
  | partiallyFilled
  | filled
  | rejected (reason : RejectReason)
  deriving DecidableEq, Repr

structure ExecutionReport where
  makerOrderId : OrderId
  takerOrderId : OrderId
  instrumentId : InstrumentId
  price : PriceTicks
  quantity : Quantity
  sequence : SequenceNumber
  deriving DecidableEq, Repr

structure MatchSummary where
  state : OrderState
  filledQuantity : Quantity
  restingQuantity : Quantity
  discardedQuantity : Quantity
  reportCount : ℕ
  deriving DecidableEq, Repr

/-- A fixed-capacity report buffer. Entries beyond the live prefix are never observed. -/
structure ReportBuffer (N : ℕ) where
  entries : List ExecutionReport
  length_le : entries.length ≤ N
  deriving DecidableEq

namespace ReportBuffer

variable {N : ℕ}

def new (N : ℕ) : ReportBuffer N := ⟨[], Nat.zero_le N⟩

def clear (_ : ReportBuffer N) : ReportBuffer N := new N

def push (reports : ReportBuffer N) (report : ExecutionReport) :
    Except RejectReason (ReportBuffer N) :=
  if h : reports.entries.length < N then
    .ok ⟨reports.entries ++ [report], by simpa using h⟩
  else .error .reportCapacity

def len (reports : ReportBuffer N) : ℕ := reports.entries.length

def remainingCapacity (reports : ReportBuffer N) : ℕ := N - reports.len

@[ext] theorem ext {a b : ReportBuffer N} (h : a.entries = b.entries) : a = b := by
  cases a
  cases b
  congr

theorem push_of_lt {reports : ReportBuffer N} (report : ExecutionReport) (h : reports.len < N) :
    ∃ reports', reports.push report = .ok reports' ∧
      reports'.entries = reports.entries ++ [report] := by
  have h' : reports.entries.length < N := h
  refine ⟨⟨reports.entries ++ [report], by simpa using h'⟩, ?_, rfl⟩
  unfold push
  rw [dif_pos h']

theorem push_of_full {reports : ReportBuffer N} (report : ExecutionReport) (h : N ≤ reports.len) :
    reports.push report = .error .reportCapacity := by
  have h' : ¬ reports.entries.length < N := Nat.not_lt.mpr h
  unfold push
  rw [dif_neg h']

end ReportBuffer

end DeterministicExchange
