import DeterministicExchange.Container.BoundedQueue
import DeterministicExchange.Gateway.Frame
import DeterministicExchange.Gateway.History

/-!
# Event publication

The event engine of `hft-events`: one command with checked sequence and event
capacity is processed, and its result is published as one batch. The events of
a batch carry the sequence of the command and are numbered from zero.
-/

namespace DeterministicExchange.Events

open Machine Book

structure EventId where
  commandSequence : SequenceNumber
  ordinal : U16
  deriving DecidableEq, Repr

inductive CommandKind where
  | newOrder
  | cancel
  | replace
  deriving DecidableEq, Repr

structure Accepted where
  id : EventId
  orderId : OrderId
  accountId : AccountId
  instrumentId : InstrumentId
  state : OrderState
  filledQuantity : Quantity
  restingQuantity : Quantity
  discardedQuantity : Quantity
  deriving DecidableEq, Repr

structure Rejected where
  id : EventId
  command : CommandKind
  orderId : OrderId
  accountId : AccountId
  instrumentId : InstrumentId
  reason : RejectReason
  deriving DecidableEq, Repr

structure Trade where
  id : EventId
  makerOrderId : OrderId
  takerOrderId : OrderId
  instrumentId : InstrumentId
  price : PriceTicks
  quantity : Quantity
  deriving DecidableEq, Repr

structure Cancelled where
  id : EventId
  orderId : OrderId
  accountId : AccountId
  instrumentId : InstrumentId
  quantity : Quantity
  deriving DecidableEq, Repr

structure Replaced where
  id : EventId
  orderId : OrderId
  accountId : AccountId
  instrumentId : InstrumentId
  oldQuantity : Quantity
  newQuantity : Quantity
  price : PriceTicks
  priorityLost : Bool
  deriving DecidableEq, Repr

structure TopOfBook where
  id : EventId
  instrumentId : InstrumentId
  bid : Option TopLevel
  ask : Option TopLevel
  deriving DecidableEq, Repr

inductive Event where
  | accepted (event : Accepted)
  | rejected (event : Rejected)
  | trade (event : Trade)
  | cancelled (event : Cancelled)
  | replaced (event : Replaced)
  | topOfBook (event : TopOfBook)
  deriving DecidableEq, Repr

def Event.id : Event → EventId
  | .accepted event => event.id
  | .rejected event => event.id
  | .trade event => event.id
  | .cancelled event => event.id
  | .replaced event => event.id
  | .topOfBook event => event.id

inductive EventEngineConfigError where
  | batchTooSmall
  | tooManyEvents
  deriving DecidableEq, Repr

inductive EventEngineError where
  | backpressured
  | gateway (error : GatewayError)
  | eventCapacityInvariant
  | publicationInvariant
  deriving DecidableEq, Repr

/-- The live prefix of a batch of fixed capacity. -/
structure EventBatch (N : ℕ) where
  entries : List Event
  length_le : entries.length ≤ N
  deriving DecidableEq, Repr

namespace EventBatch

variable {N : ℕ}

def new (N : ℕ) : EventBatch N := ⟨[], Nat.zero_le N⟩

/-- Appends an event; a full batch is an error of the configuration. -/
def pushPreflighted (batch : EventBatch N) (event : Event) : Except EventEngineError (EventBatch N) :=
  if h : batch.entries.length < N then .ok ⟨batch.entries ++ [event], by simpa using h⟩
  else .error .eventCapacityInvariant

/-- Every event carries the sequence, and the ordinals count from zero. -/
def Numbered (batch : EventBatch N) (sequence : SequenceNumber) : Prop :=
  batch.entries.map (fun event ↦ (event.id.commandSequence, event.id.ordinal.val)) =
    (List.range batch.entries.length).map fun ordinal ↦ (sequence, ordinal)

end EventBatch

structure CommandIdentity where
  kind : CommandKind
  orderId : OrderId
  accountId : AccountId
  instrumentId : InstrumentId
  deriving DecidableEq

def CommandIdentity.fromCommand : Command → CommandIdentity
  | .newOrder order => ⟨.newOrder, order.orderId, order.accountId, order.instrumentId⟩
  | .cancelOrder cancel => ⟨.cancel, cancel.orderId, cancel.accountId, cancel.instrumentId⟩
  | .replaceOrder replace => ⟨.replace, replace.orderId, replace.accountId, replace.instrumentId⟩

/-- The identity of the command that a parsed message encodes. -/
def CommandIdentity.fromMessage : Wire.BorrowedMessage → Run CommandIdentity
  | .newOrder bytes => do
    let order ← Wire.newOrderToOwned bytes
    return ⟨.newOrder, order.orderId, order.accountId, order.instrumentId⟩
  | .cancelOrder bytes => do
    let cancel ← Wire.cancelOrderToOwned bytes
    return ⟨.cancel, cancel.orderId, cancel.accountId, cancel.instrumentId⟩
  | .replaceOrder bytes => do
    let replace ← Wire.replaceOrderToOwned bytes
    return ⟨.replace, replace.orderId, replace.accountId, replace.instrumentId⟩

theorem CommandIdentity.fromMessage_of_toCommand {message : Wire.BorrowedMessage} {command : Command}
    (h : message.toCommand = .ok command) : fromMessage message = .ok (fromCommand command) := by
  cases message with
  | newOrder bytes =>
    obtain ⟨order, horder, hcommand⟩ := Run.bind_eq_ok.mp h
    obtain rfl := Except.ok.inj hcommand
    simp only [fromMessage, horder, Run.ok_bind]
    rfl
  | cancelOrder bytes =>
    obtain ⟨cancel, hcancel, hcommand⟩ := Run.bind_eq_ok.mp h
    obtain rfl := Except.ok.inj hcommand
    simp only [fromMessage, hcancel, Run.ok_bind]
    rfl
  | replaceOrder bytes =>
    obtain ⟨replace, hreplace, hcommand⟩ := Run.bind_eq_ok.mp h
    obtain rfl := Except.ok.inj hcommand
    simp only [fromMessage, hreplace, Run.ok_bind]
    rfl

def terminalEvent (outcome : GatewayOutcome) (command : CommandIdentity) (sequence : SequenceNumber)
    (ordinal : U16) : Event :=
  match outcome with
  | .newOrder summary => .accepted
    { id := ⟨sequence, ordinal⟩
      orderId := command.orderId
      accountId := command.accountId
      instrumentId := command.instrumentId
      state := summary.state
      filledQuantity := summary.filledQuantity
      restingQuantity := summary.restingQuantity
      discardedQuantity := summary.discardedQuantity }
  | .cancelled order => .cancelled
    { id := ⟨sequence, ordinal⟩
      orderId := order.orderId
      accountId := order.accountId
      instrumentId := command.instrumentId
      quantity := order.quantity }
  | .replaced order => .replaced
    { id := ⟨sequence, ordinal⟩
      orderId := order.orderId
      accountId := order.accountId
      instrumentId := command.instrumentId
      oldQuantity := order.oldQuantity
      newQuantity := order.newQuantity
      price := order.price
      priorityLost := order.priorityLost }

def tradeEvent (report : ExecutionReport) (sequence : SequenceNumber) (ordinal : U16) : Event :=
  .trade
    { id := ⟨sequence, ordinal⟩
      makerOrderId := report.makerOrderId
      takerOrderId := report.takerOrderId
      instrumentId := report.instrumentId
      price := report.price
      quantity := report.quantity }

section Publish

variable {N : ℕ}

/-- Appends the trades of a command; returns the next ordinal. -/
def pushTrades (sequence : SequenceNumber) :
    List ExecutionReport → U16 → EventBatch N → Run (Except EventEngineError (U16 × EventBatch N))
  | [], ordinal, batch => .ok (.ok (ordinal, batch))
  | report :: reports, ordinal, batch =>
    match batch.pushPreflighted (tradeEvent report sequence ordinal) with
    | .error error => .ok (.error error)
    | .ok batch => do
      let ordinal ← Run.addWord ordinal 1
      pushTrades sequence reports ordinal batch

/-- The batch of a result: the terminal event, the trades, and the top of the book if it changed. -/
def batchOf (N : ℕ) (command : CommandIdentity) (sequence : SequenceNumber)
    (before after : Option TopLevel × Option TopLevel) (reports : List ExecutionReport)
    (result : Except GatewayError GatewayOutcome) : Run (Except EventEngineError (EventBatch N)) :=
  match result with
  | .ok outcome =>
    match (EventBatch.new N).pushPreflighted (terminalEvent outcome command sequence 0) with
    | .error error => .ok (.error error)
    | .ok batch => do
      let ordinal ← Run.addWord (0 : U16) 1
      match ← pushTrades sequence reports ordinal batch with
      | .error error => return .error error
      | .ok (ordinal, batch) =>
        if before ≠ after then
          return batch.pushPreflighted
            (.topOfBook ⟨⟨sequence, ordinal⟩, command.instrumentId, after.1, after.2⟩)
        else return .ok batch
  | .error (.risk reason) | .error (.book reason) =>
    .ok ((EventBatch.new N).pushPreflighted (.rejected
      ⟨⟨sequence, 0⟩, command.kind, command.orderId, command.accountId, command.instrumentId, reason⟩))
  | .error error => .ok (.error (.gateway error))

end Publish

/-- A gateway and the queue of published batches. -/
structure BoundedEventEngine (ACCOUNTS RISK_ORDERS LEVELS ORDERS_PER_LEVEL BATCH : ℕ) where
  gateway : Gateway ACCOUNTS RISK_ORDERS LEVELS ORDERS_PER_LEVEL
  queue : List (EventBatch BATCH)

namespace BoundedEventEngine

variable {ACCOUNTS RISK_ORDERS LEVELS ORDERS_PER_LEVEL BATCH : ℕ}
  (REPORTS QUEUE : ℕ)

/-- An engine on an empty queue, if one batch can hold the largest command result. -/
def tryNew (BATCH : ℕ) (gateway : Gateway ACCOUNTS RISK_ORDERS LEVELS ORDERS_PER_LEVEL) :
    Except EventEngineConfigError (BoundedEventEngine ACCOUNTS RISK_ORDERS LEVELS ORDERS_PER_LEVEL BATCH) :=
  if (Unsigned.maxValue 16).val - 1 < REPORTS then .error .tooManyEvents
  else if BATCH < REPORTS + 2 then .error .batchTooSmall
  else .ok ⟨gateway, []⟩

def tops (gateway : Gateway ACCOUNTS RISK_ORDERS LEVELS ORDERS_PER_LEVEL) :
    Option TopLevel × Option TopLevel := (gateway.topLevel .buy, gateway.topLevel .sell)

/-- Pushes the batch of a result. -/
def publishResult (engine : BoundedEventEngine ACCOUNTS RISK_ORDERS LEVELS ORDERS_PER_LEVEL BATCH)
    (command : CommandIdentity) (sequence : SequenceNumber)
    (before after : Option TopLevel × Option TopLevel) (reports : List ExecutionReport)
    (result : Except GatewayError GatewayOutcome) :
    Run (Except EventEngineError (EventBatch BATCH) ×
      BoundedEventEngine ACCOUNTS RISK_ORDERS LEVELS ORDERS_PER_LEVEL BATCH) := do
  match ← batchOf BATCH command sequence before after reports result with
  | .error error => return (.error error, engine)
  | .ok batch =>
    match BoundedQueue.tryPush QUEUE engine.queue batch with
    | (.error _, queue) => return (.error .publicationInvariant, { engine with queue := queue })
    | (.ok (), queue) => return (.ok batch, { engine with queue := queue })

/-- Processes an admitted command; a success returns the batch it has published. -/
def applyAdmittedCommand (engine : BoundedEventEngine ACCOUNTS RISK_ORDERS LEVELS ORDERS_PER_LEVEL BATCH)
    (command : Command) :
    Run (Except EventEngineError (EventBatch BATCH) ×
      BoundedEventEngine ACCOUNTS RISK_ORDERS LEVELS ORDERS_PER_LEVEL BATCH) := do
  let (result, gateway, reports) ← engine.gateway.processCommand command (ReportBuffer.new REPORTS)
  { engine with gateway := gateway }.publishResult QUEUE (.fromCommand command) command.sequence
    (tops engine.gateway) (tops gateway) reports.entries result

/-- Sequence and event capacity, checked before anything changes. -/
def preflight (engine : BoundedEventEngine ACCOUNTS RISK_ORDERS LEVELS ORDERS_PER_LEVEL BATCH)
    (sequence : SequenceNumber) : Except EventEngineError Unit :=
  match Gateway.checkSequence engine.gateway.expectedSequence sequence with
  | .error error => .error (.gateway error)
  | .ok _ => if BoundedQueue.hasCapacity QUEUE engine.queue then .ok () else .error .backpressured

/-- The check that hands out an admission of `command`. -/
def admitCommand (engine : BoundedEventEngine ACCOUNTS RISK_ORDERS LEVELS ORDERS_PER_LEVEL BATCH)
    (command : Command) : Except EventEngineError Unit :=
  engine.preflight QUEUE command.sequence

def processCommand (engine : BoundedEventEngine ACCOUNTS RISK_ORDERS LEVELS ORDERS_PER_LEVEL BATCH)
    (command : Command) :
    Run (Except EventEngineError (EventBatch BATCH) ×
      BoundedEventEngine ACCOUNTS RISK_ORDERS LEVELS ORDERS_PER_LEVEL BATCH) :=
  match engine.admitCommand QUEUE command with
  | .error error => .ok (.error error, engine)
  | .ok () => engine.applyAdmittedCommand REPORTS QUEUE command

def processFrame (engine : BoundedEventEngine ACCOUNTS RISK_ORDERS LEVELS ORDERS_PER_LEVEL BATCH)
    (frame : Codec.Bytes) :
    Run (Except EventEngineError (EventBatch BATCH) ×
      BoundedEventEngine ACCOUNTS RISK_ORDERS LEVELS ORDERS_PER_LEVEL BATCH) := do
  match ← Wire.parseMessage frame with
  | .error error => return (.error (.gateway (.parse error)), engine)
  | .ok message =>
    let sequence ← message.sequence
    match engine.preflight QUEUE sequence with
    | .error error => return (.error error, engine)
    | .ok () =>
      let command ← CommandIdentity.fromMessage message
      let (result, gateway, reports) ← engine.gateway.processFrame frame (ReportBuffer.new REPORTS)
      { engine with gateway := gateway }.publishResult QUEUE command sequence (tops engine.gateway)
        (tops gateway) reports.entries result

theorem tryNew_eq_ok {gateway : Gateway ACCOUNTS RISK_ORDERS LEVELS ORDERS_PER_LEVEL}
    {engine : BoundedEventEngine ACCOUNTS RISK_ORDERS LEVELS ORDERS_PER_LEVEL BATCH} :
    tryNew REPORTS BATCH gateway = .ok engine ↔
      REPORTS + 1 < 2 ^ 16 ∧ REPORTS + 2 ≤ BATCH ∧ engine = ⟨gateway, []⟩ := by
  have hmaximum : (Unsigned.maxValue 16).val = 65535 := rfl
  unfold tryNew
  rw [hmaximum]
  split
  · simp only [reduceCtorEq, false_iff]
    omega
  split
  · simp only [reduceCtorEq, false_iff]
    omega
  · rw [Except.ok.injEq]
    constructor
    · rintro rfl
      exact ⟨by omega, by omega, rfl⟩
    · rintro ⟨_, _, rfl⟩
      rfl

end BoundedEventEngine

/-! ## Batches of results -/

/-- The trades of the reports, under the ordinals from `ordinal` on. -/
def tradeEvents (sequence : SequenceNumber) : List ExecutionReport → ℕ → List Event
  | [], _ => []
  | report :: reports, ordinal =>
    tradeEvent report sequence (Fin.ofNat (2 ^ 16) ordinal) :: tradeEvents sequence reports (ordinal + 1)

theorem length_tradeEvents (sequence : SequenceNumber) (reports : List ExecutionReport) (ordinal : ℕ) :
    (tradeEvents sequence reports ordinal).length = reports.length := by
  induction reports generalizing ordinal with
  | nil => rfl
  | cons report reports ih => rw [tradeEvents, List.length_cons, ih, List.length_cons]

/-- The new top of the book, if it has changed. -/
def topEvents (command : CommandIdentity) (sequence : SequenceNumber)
    (before after : Option TopLevel × Option TopLevel) (ordinal : ℕ) : List Event :=
  if before ≠ after then
    [.topOfBook ⟨⟨sequence, Fin.ofNat (2 ^ 16) ordinal⟩, command.instrumentId, after.1, after.2⟩]
  else []

/-- The events that a result is published as: the terminal event, the trades in the order of the
reports, and the top of the book if it has changed. A rejection is a single event. -/
def resultEvents (command : CommandIdentity) (sequence : SequenceNumber)
    (before after : Option TopLevel × Option TopLevel) (reports : List ExecutionReport) :
    Except GatewayError GatewayOutcome → List Event
  | .ok outcome => terminalEvent outcome command sequence 0 ::
      (tradeEvents sequence reports 1 ++ topEvents command sequence before after (reports.length + 1))
  | .error (.risk reason) | .error (.book reason) =>
    [.rejected
      ⟨⟨sequence, 0⟩, command.kind, command.orderId, command.accountId, command.instrumentId, reason⟩]
  | .error _ => []

namespace EventBatch

variable {N : ℕ} {batch batch' : EventBatch N} {sequence : SequenceNumber} {event : Event}

theorem numbered_new (N : ℕ) (sequence : SequenceNumber) : (new N).Numbered sequence := rfl

theorem pushPreflighted_eq_ok :
    batch.pushPreflighted event = .ok batch' ↔
      batch.entries.length < N ∧ batch'.entries = batch.entries ++ [event] := by
  unfold pushPreflighted
  split
  · next hroom =>
    rw [Except.ok.injEq]
    constructor
    · rintro rfl
      exact ⟨hroom, rfl⟩
    · rintro ⟨_, hentries⟩
      cases batch'
      cases hentries
      rfl
  · next hfull => simp [hfull]

theorem pushPreflighted_of_lt (batch : EventBatch N) (event : Event) (h : batch.entries.length < N) :
    ∃ batch', batch.pushPreflighted event = .ok batch' ∧ batch'.entries = batch.entries ++ [event] :=
  ⟨⟨batch.entries ++ [event], by simpa using h⟩, pushPreflighted_eq_ok.mpr ⟨h, rfl⟩, rfl⟩

/-- An event with the next ordinal keeps the numbering. -/
theorem Numbered.push (h : batch.Numbered sequence) (hentries : batch'.entries = batch.entries ++ [event])
    (hsequence : event.id.commandSequence = sequence)
    (hordinal : event.id.ordinal.val = batch.entries.length) : batch'.Numbered sequence := by
  have hlast : (event.id.commandSequence, event.id.ordinal.val) = (sequence, batch.entries.length) := by
    rw [hsequence, hordinal]
  unfold Numbered at h ⊢
  rw [hentries, List.length_append, List.length_singleton, List.range_succ,
    List.map_append, List.map_append, h,
    List.map_singleton, List.map_singleton, hlast]

end EventBatch

@[simp] theorem terminalEvent_id (outcome : GatewayOutcome) (command : CommandIdentity)
    (sequence : SequenceNumber) (ordinal : U16) :
    (terminalEvent outcome command sequence ordinal).id = ⟨sequence, ordinal⟩ := by
  cases outcome <;> rfl

section Batch

variable {N : ℕ}

/-- Trades that fit are all appended, under the ordinals that follow. -/
theorem pushTrades_of_le {sequence : SequenceNumber} {reports : List ExecutionReport} {ordinal : U16}
    {batch : EventBatch N} (hfits : batch.entries.length + reports.length ≤ N)
    (hordinals : ordinal.val + reports.length < 2 ^ 16) (hordinal : ordinal.val = batch.entries.length)
    (hnumbered : batch.Numbered sequence) :
    ∃ ordinal' batch', pushTrades sequence reports ordinal batch = .ok (.ok (ordinal', batch')) ∧
      batch'.entries = batch.entries ++ tradeEvents sequence reports ordinal.val ∧
      ordinal'.val = ordinal.val + reports.length ∧ batch'.Numbered sequence := by
  induction reports generalizing ordinal batch with
  | nil => exact ⟨ordinal, batch, rfl, (List.append_nil _).symm, rfl, hnumbered⟩
  | cons report reports ih =>
    rw [List.length_cons] at hfits hordinals
    obtain ⟨pushed, hpush, hentries⟩ :=
      batch.pushPreflighted_of_lt (tradeEvent report sequence ordinal) (by omega)
    have hone : (1 : U16).val = 1 := rfl
    obtain ⟨next, hadd, hnext⟩ := Run.addWord_of_lt (a := ordinal) (b := 1) (by omega)
    have hlength : pushed.entries.length = batch.entries.length + 1 := by
      rw [hentries, List.length_append, List.length_singleton]
    have hordinals' : next.val + reports.length < 2 ^ 16 := by omega
    obtain ⟨ordinal', batch', hrest, hentries', hordinal', hnumbered'⟩ :=
      ih (by omega) hordinals' (by omega) (hnumbered.push hentries rfl hordinal)
    have hsame : Fin.ofNat (2 ^ 16) ordinal.val = ordinal := Fin.ofNat_val_eq_self ordinal
    refine ⟨ordinal', batch', ?_, ?_, ?_, hnumbered'⟩
    · rw [pushTrades, hpush]
      simp only [hadd, Run.ok_bind]
      exact hrest
    · rw [hentries', hentries, hnext, hone, tradeEvents, hsame, List.append_assoc, List.singleton_append]
    · rw [hordinal', hnext, List.length_cons]
      omega

/-- A result of business has its batch, if one batch can hold the largest command result. -/
theorem batchOf_of_business {REPORTS : ℕ} (hordinals : REPORTS + 1 < 2 ^ 16) (hbatch : REPORTS + 2 ≤ N)
    (command : CommandIdentity) (sequence : SequenceNumber) (before after : Option TopLevel × Option TopLevel)
    {reports : List ExecutionReport} (hreports : reports.length ≤ REPORTS)
    {result : Except GatewayError GatewayOutcome} (hbusiness : Logical.Gateway.Business result) :
    ∃ batch : EventBatch N, batchOf N command sequence before after reports result = .ok (.ok batch) ∧
      batch.entries = resultEvents command sequence before after reports result ∧
      batch.Numbered sequence := by
  have hempty : (EventBatch.new N).entries.length = 0 := rfl
  match result, hbusiness with
  | .ok outcome, _ =>
    obtain ⟨first, hpush, hentries⟩ := (EventBatch.new N).pushPreflighted_of_lt
      (terminalEvent outcome command sequence 0) (by omega)
    have hone : (1 : U16).val = 1 := rfl
    have hzero : (0 : U16).val = 0 := rfl
    obtain ⟨next, hadd, hnext⟩ := Run.addWord_of_lt (a := (0 : U16)) (b := 1) (by omega)
    have hlength : first.entries.length = 1 := by rw [hentries]; rfl
    have hordinals' : next.val + reports.length < 2 ^ 16 := by omega
    have hfirst : first.Numbered sequence :=
      (EventBatch.numbered_new N sequence).push hentries (by simp) (by simp [hempty])
    obtain ⟨ordinal, batch, htrades, hentries', hordinal, hnumbered⟩ :=
      pushTrades_of_le (by omega) hordinals' (by omega) hfirst
    rw [hentries, hnext, hzero, hone] at hentries'
    have hlength' : batch.entries.length = reports.length + 1 := by
      rw [hentries', List.length_append, length_tradeEvents]
      exact Nat.add_comm _ _
    have hlast : ordinal.val = reports.length + 1 := by omega
    unfold batchOf resultEvents topEvents
    simp only [hpush, hadd, htrades, Run.ok_bind, Run.pure_eq_ok]
    by_cases hchanged : before ≠ after
    · obtain ⟨last, hpushed, hentries''⟩ := batch.pushPreflighted_of_lt
        (.topOfBook ⟨⟨sequence, ordinal⟩, command.instrumentId, after.1, after.2⟩) (by omega)
      have hsame : Fin.ofNat (2 ^ 16) (reports.length + 1) = ordinal := by
        rw [← hlast, Fin.ofNat_val_eq_self]
      rw [if_pos hchanged, if_pos hchanged, hsame]
      refine ⟨last, congrArg Except.ok hpushed, ?_, hnumbered.push hentries'' rfl (hlast.trans hlength'.symm)⟩
      rw [hentries'', hentries', List.append_assoc]
      rfl
    · rw [if_neg hchanged, if_neg hchanged]
      refine ⟨batch, rfl, ?_, hnumbered⟩
      rw [hentries', List.append_nil]
      rfl
  | .error (.risk reason), _ | .error (.book reason), _ =>
    obtain ⟨batch, hpush, hentries⟩ := (EventBatch.new N).pushPreflighted_of_lt (.rejected
      ⟨⟨sequence, 0⟩, command.kind, command.orderId, command.accountId,
        command.instrumentId, reason⟩) (by omega)
    exact ⟨batch, congrArg Except.ok hpush, hentries,
      (EventBatch.numbered_new N sequence).push hentries rfl rfl⟩

end Batch

/-! ## Answers of the engine -/

section Answer

variable {N : ℕ}

theorem eq_of_pushPreflighted {batch : EventBatch N} {event : Event} {error : EventEngineError}
    (h : batch.pushPreflighted event = .error error) : error = .eventCapacityInvariant := by
  unfold EventBatch.pushPreflighted at h
  split at h
  · simp at h
  · exact (Except.error.inj h).symm

theorem eq_of_pushTrades {sequence : SequenceNumber} {reports : List ExecutionReport} {ordinal : U16}
    {batch : EventBatch N} {error : EventEngineError}
    (h : pushTrades sequence reports ordinal batch = .ok (.error error)) :
    error = .eventCapacityInvariant := by
  induction reports generalizing ordinal batch with
  | nil => simp [pushTrades] at h
  | cons report reports ih =>
    rw [pushTrades] at h
    split at h
    · next hpush =>
      obtain rfl := Except.error.inj (Except.ok.inj h)
      exact eq_of_pushPreflighted hpush
    · obtain ⟨next, _, hrest⟩ := Run.bind_eq_ok.mp h
      exact ih hrest

/-- Backpressure is reported before a command is processed, never by its result. -/
theorem batchOf_ne_backpressured {command : CommandIdentity} {sequence : SequenceNumber}
    {before after : Option TopLevel × Option TopLevel} {reports : List ExecutionReport}
    {result : Except GatewayError GatewayOutcome} :
    batchOf N command sequence before after reports result ≠ .ok (.error .backpressured) := by
  intro h
  have hpush {batch : EventBatch N} {event : Event} :
      (.ok (batch.pushPreflighted event) : Run (Except EventEngineError (EventBatch N))) ≠
        .ok (.error .backpressured) := fun heq ↦ by simpa using eq_of_pushPreflighted (Except.ok.inj heq)
  unfold batchOf at h
  split at h
  · split at h
    · next herror =>
      have hcapacity := eq_of_pushPreflighted herror
      obtain rfl := Except.error.inj (Except.ok.inj h)
      simp at hcapacity
    · obtain ⟨ordinal, _, hrest⟩ := Run.bind_eq_ok.mp h
      obtain ⟨outcome, htrades, hlast⟩ := Run.bind_eq_ok.mp hrest
      cases outcome with
      | error error =>
        have hcapacity := eq_of_pushTrades htrades
        obtain rfl := Except.error.inj (Except.ok.inj hlast)
        simp at hcapacity
      | ok pair =>
        simp only at hlast
        split at hlast
        · exact hpush hlast
        · simp at hlast
  · exact hpush h
  · exact hpush h
  · simp at h

end Answer

namespace BoundedEventEngine

variable {ACCOUNTS RISK_ORDERS LEVELS ORDERS_PER_LEVEL BATCH REPORTS QUEUE : ℕ}

/-- The engine that has published an outcome, or failed to. -/
def published (engine : BoundedEventEngine ACCOUNTS RISK_ORDERS LEVELS ORDERS_PER_LEVEL BATCH) :
    Except EventEngineError (EventBatch BATCH) →
      BoundedEventEngine ACCOUNTS RISK_ORDERS LEVELS ORDERS_PER_LEVEL BATCH
  | .ok batch => { engine with queue := engine.queue ++ [batch] }
  | .error _ => engine

/-- With room in the queue, the batch alone decides the answer. -/
theorem publishResult_of_room
    (engine : BoundedEventEngine ACCOUNTS RISK_ORDERS LEVELS ORDERS_PER_LEVEL BATCH)
    (hroom : engine.queue.length < QUEUE) (command : CommandIdentity)
    (sequence : SequenceNumber) (before after : Option TopLevel × Option TopLevel)
    (reports : List ExecutionReport) (result : Except GatewayError GatewayOutcome) :
    engine.publishResult QUEUE command sequence before after reports result =
      (batchOf BATCH command sequence before after reports result).map fun outcome ↦
        (outcome, engine.published outcome) := by
  unfold publishResult
  cases batchOf BATCH command sequence before after reports result with
  | error fault => rfl
  | ok outcome =>
    cases outcome with
    | error error => rfl
    | ok batch =>
      simp only [Run.ok_bind, BoundedQueue.tryPush_of_lt batch hroom]
      rfl

variable {engine : BoundedEventEngine ACCOUNTS RISK_ORDERS LEVELS ORDERS_PER_LEVEL BATCH}

theorem processCommand_of_refused {command : Command} {error : GatewayError}
    (h : Gateway.checkSequence engine.gateway.expectedSequence command.sequence = .error error) :
    engine.processCommand REPORTS QUEUE command = .ok (.error (.gateway error), engine) := by
  unfold processCommand admitCommand preflight
  rw [h]

theorem processCommand_of_accepts {command : Command} (haccepts : engine.gateway.Accepts command)
    (hroom : engine.queue.length < QUEUE) :
    engine.processCommand REPORTS QUEUE command = engine.applyAdmittedCommand REPORTS QUEUE command := by
  obtain ⟨next, hcheck⟩ := haccepts
  unfold processCommand admitCommand preflight BoundedQueue.hasCapacity
  rw [hcheck]
  simp only [decide_eq_true hroom, if_true]

end BoundedEventEngine

end DeterministicExchange.Events
