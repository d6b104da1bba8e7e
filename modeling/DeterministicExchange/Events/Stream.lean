import DeterministicExchange.Events.Publication
import DeterministicExchange.Gateway.Reports
import DeterministicExchange.Machine.Execution

/-!
# The event stream as an account of the gateway

A call of the event engine checks sequence and capacity, changes the gateway and
publishes a batch; a consumer may pop batches before, between and after these
steps. Whatever the interleaving, the batches popped and queued are those of the
commands the gateway has processed, one batch each and in their order.
-/

namespace DeterministicExchange.Events

open Machine Book

variable {ACCOUNTS RISK_ORDERS LEVELS ORDERS_PER_LEVEL BATCH : ℕ}

/-! ## Steps of producer and consumer -/

/-- The argument of `process_frame` or of `process_command`. -/
inductive Request where
  | frame (bytes : Codec.Bytes)
  | command (command : Command)

/-- Where the call that is going on has got to. -/
inductive Phase where
  | idle
  | admitted (identity : CommandIdentity) (sequence : SequenceNumber) (request : Request)
  | processed (identity : CommandIdentity) (sequence : SequenceNumber)
      (before after : Option TopLevel × Option TopLevel) (reports : List ExecutionReport)
      (result : Except GatewayError GatewayOutcome)

/-- The engine, the call going on, and what the consumer has popped. -/
structure EventSystem (ACCOUNTS RISK_ORDERS LEVELS ORDERS_PER_LEVEL BATCH : ℕ) where
  engine : BoundedEventEngine ACCOUNTS RISK_ORDERS LEVELS ORDERS_PER_LEVEL BATCH
  phase : Phase
  received : List (EventBatch BATCH)

inductive Action where
  | call (request : Request)
  | advance
  | pop

namespace BoundedEventEngine

variable (REPORTS QUEUE : ℕ)

/-- The part of a call before anything changes. -/
def prepare (engine : BoundedEventEngine ACCOUNTS RISK_ORDERS LEVELS ORDERS_PER_LEVEL BATCH) :
    Request → Run (Except EventEngineError (CommandIdentity × SequenceNumber))
  | .command command =>
    .ok ((engine.admitCommand QUEUE command).map fun _ ↦ (.fromCommand command, command.sequence))
  | .frame bytes => do
    match ← Wire.parseMessage bytes with
    | .error error => return .error (.gateway (.parse error))
    | .ok message =>
      let sequence ← message.sequence
      match engine.preflight QUEUE sequence with
      | .error error => return .error error
      | .ok () => return .ok (← CommandIdentity.fromMessage message, sequence)

/-- What a call does to the gateway. -/
def mutate (gateway : Gateway ACCOUNTS RISK_ORDERS LEVELS ORDERS_PER_LEVEL) :
    Request → Run (Except GatewayError GatewayOutcome ×
      Gateway ACCOUNTS RISK_ORDERS LEVELS ORDERS_PER_LEVEL × ReportBuffer REPORTS)
  | .command command => gateway.processCommand command (ReportBuffer.new REPORTS)
  | .frame bytes => gateway.processFrame bytes (ReportBuffer.new REPORTS)

def process (engine : BoundedEventEngine ACCOUNTS RISK_ORDERS LEVELS ORDERS_PER_LEVEL BATCH) :
    Request → Run (Except EventEngineError (EventBatch BATCH) ×
      BoundedEventEngine ACCOUNTS RISK_ORDERS LEVELS ORDERS_PER_LEVEL BATCH)
  | .command command => engine.processCommand REPORTS QUEUE command
  | .frame bytes => engine.processFrame REPORTS QUEUE bytes

end BoundedEventEngine

namespace EventSystem

variable (REPORTS QUEUE : ℕ)

def start (engine : BoundedEventEngine ACCOUNTS RISK_ORDERS LEVELS ORDERS_PER_LEVEL BATCH) :
    EventSystem ACCOUNTS RISK_ORDERS LEVELS ORDERS_PER_LEVEL BATCH := ⟨engine, .idle, []⟩

/-- One step of the producer or of the consumer, and the answer of a call that ends with it. -/
def step (system : EventSystem ACCOUNTS RISK_ORDERS LEVELS ORDERS_PER_LEVEL BATCH) : Action →
    Run (Option (Except EventEngineError Unit) ×
      EventSystem ACCOUNTS RISK_ORDERS LEVELS ORDERS_PER_LEVEL BATCH)
  | .call request =>
    match system.phase with
    | .idle => do
      match ← system.engine.prepare QUEUE request with
      | .error error => return (some (.error error), system)
      | .ok (identity, sequence) =>
        return (none, { system with phase := .admitted identity sequence request })
    | _ => .ok (none, system)
  | .advance =>
    match system.phase with
    | .idle => .ok (none, system)
    | .admitted identity sequence request => do
      let before := BoundedEventEngine.tops system.engine.gateway
      let (result, gateway, reports) ← BoundedEventEngine.mutate REPORTS system.engine.gateway request
      let after := BoundedEventEngine.tops gateway
      return (none, { system with
        engine := { system.engine with gateway := gateway }
        phase := .processed identity sequence before after reports.entries result })
    | .processed identity sequence before after reports result => do
      let (result, engine) ← system.engine.publishResult QUEUE identity sequence before after reports result
      return (some (result.map fun _ ↦ ()), { system with engine := engine, phase := .idle })
  | .pop =>
    match BoundedQueue.tryPop system.engine.queue with
    | (none, _) => .ok (none, system)
    | (some batch, queue) => .ok (none, { system with
        engine := { system.engine with queue := queue }
        received := system.received ++ [batch] })

/-- A call that nothing interrupts is a call of the engine. -/
theorem execute_call (engine : BoundedEventEngine ACCOUNTS RISK_ORDERS LEVELS ORDERS_PER_LEVEL BATCH)
    (received : List (EventBatch BATCH)) (request : Request) :
    (execute (step REPORTS QUEUE) ⟨engine, .idle, received⟩ [.call request, .advance, .advance]).map
        (fun outcome ↦ (outcome.1.reduceOption, outcome.2)) =
      (engine.process REPORTS QUEUE request).map fun outcome ↦
        ([outcome.1.map fun _ ↦ ()], ⟨outcome.2, .idle, received⟩) := by
  cases request with
  | command command =>
    unfold BoundedEventEngine.process BoundedEventEngine.processCommand
    simp only [execute, step, BoundedEventEngine.prepare]
    cases engine.admitCommand QUEUE command with
    | error error => rfl
    | ok _ =>
      unfold BoundedEventEngine.applyAdmittedCommand
      simp only [Except.map, Run.ok_bind, Run.pure_eq_ok, BoundedEventEngine.mutate]
      cases engine.gateway.processCommand command (ReportBuffer.new REPORTS) with
      | error fault => rfl
      | ok outcome =>
        simp only [Run.ok_bind]
        cases { engine with gateway := outcome.2.1 }.publishResult QUEUE (.fromCommand command)
            command.sequence (BoundedEventEngine.tops engine.gateway)
            (BoundedEventEngine.tops outcome.2.1) outcome.2.2.entries outcome.1 with
        | error fault => rfl
        | ok published => rfl
  | frame bytes =>
    unfold BoundedEventEngine.process BoundedEventEngine.processFrame
    simp only [execute, step, BoundedEventEngine.prepare]
    cases Wire.parseMessage bytes with
    | error fault => rfl
    | ok parsed =>
      cases parsed with
      | error error => rfl
      | ok message =>
        simp only [Run.ok_bind]
        cases message.sequence with
        | error fault => rfl
        | ok sequence =>
          simp only [Run.ok_bind]
          cases engine.preflight QUEUE sequence with
          | error error => rfl
          | ok _ =>
            simp only
            cases CommandIdentity.fromMessage message with
            | error fault => rfl
            | ok identity =>
              simp only [Run.ok_bind, Run.pure_eq_ok, BoundedEventEngine.mutate]
              cases engine.gateway.processFrame bytes (ReportBuffer.new REPORTS) with
              | error fault => rfl
              | ok outcome =>
                simp only [Run.ok_bind]
                cases { engine with gateway := outcome.2.1 }.publishResult QUEUE identity sequence
                    (BoundedEventEngine.tops engine.gateway) (BoundedEventEngine.tops outcome.2.1)
                    outcome.2.2.entries outcome.1 with
                | error fault => rfl
                | ok published => rfl

end EventSystem

/-! ## Commands and their batches -/

/-- The terminal event of a command: accepted, cancelled, replaced or rejected. -/
inductive Terminal (command : Command) : Except GatewayError GatewayOutcome → Event → Prop where
  | answer (outcome : GatewayOutcome) :
      Terminal command (.ok outcome) (terminalEvent outcome (.fromCommand command) command.sequence 0)
  | risk (reason : RejectReason) : Terminal command (.error (.risk reason))
      (.rejected ⟨⟨command.sequence, 0⟩, (CommandIdentity.fromCommand command).kind,
        (CommandIdentity.fromCommand command).orderId, (CommandIdentity.fromCommand command).accountId,
        (CommandIdentity.fromCommand command).instrumentId, reason⟩)
  | book (reason : RejectReason) : Terminal command (.error (.book reason))
      (.rejected ⟨⟨command.sequence, 0⟩, (CommandIdentity.fromCommand command).kind,
        (CommandIdentity.fromCommand command).orderId, (CommandIdentity.fromCommand command).accountId,
        (CommandIdentity.fromCommand command).instrumentId, reason⟩)

/-- The batch of a command: its terminal event, a trade for each report, and the tops of the book if
they have changed, numbered from zero. -/
structure Publishes (transition : Gateway.Transition ACCOUNTS RISK_ORDERS LEVELS ORDERS_PER_LEVEL)
    (batch : EventBatch BATCH) : Prop where
  entries : ∃ terminal, Terminal transition.command transition.result terminal ∧
    batch.entries = terminal :: (tradeEvents transition.command.sequence transition.reports 1 ++
      topEvents (.fromCommand transition.command) transition.command.sequence
        (BoundedEventEngine.tops transition.before) (BoundedEventEngine.tops transition.after)
        (transition.reports.length + 1))
  numbered : batch.Numbered transition.command.sequence
  reported : transition.Reported

/-- The tops of a consumer after one event. -/
def follow (tops : Option TopLevel × Option TopLevel) : Event → Option TopLevel × Option TopLevel
  | .topOfBook event => (event.bid, event.ask)
  | _ => tops

def followBatches (tops : Option TopLevel × Option TopLevel) (batches : List (EventBatch BATCH)) :
    Option TopLevel × Option TopLevel :=
  (batches.flatMap EventBatch.entries).foldl follow tops

theorem tops_eq_of_topLevel {gateway gateway' : Gateway ACCOUNTS RISK_ORDERS LEVELS ORDERS_PER_LEVEL}
    (h : ∀ side, gateway'.topLevel side = gateway.topLevel side) :
    BoundedEventEngine.tops gateway' = BoundedEventEngine.tops gateway :=
  Prod.ext (h .buy) (h .sell)

theorem foldl_follow_tradeEvents (tops : Option TopLevel × Option TopLevel) (sequence : SequenceNumber)
    (reports : List ExecutionReport) (ordinal : ℕ) :
    (tradeEvents sequence reports ordinal).foldl follow tops = tops := by
  induction reports generalizing ordinal with
  | nil => rfl
  | cons report reports ih => exact ih (ordinal + 1)

theorem foldl_follow_topEvents (command : CommandIdentity) (sequence : SequenceNumber)
    (before after : Option TopLevel × Option TopLevel) (ordinal : ℕ) :
    (topEvents command sequence before after ordinal).foldl follow before = after := by
  unfold topEvents
  by_cases hchanged : before ≠ after
  · rw [if_pos hchanged]
    rfl
  · rw [if_neg hchanged]
    exact not_not.mp hchanged

theorem Terminal.follow {command : Command} {result : Except GatewayError GatewayOutcome}
    {terminal : Event} (h : Terminal command result terminal) (tops : Option TopLevel × Option TopLevel) :
    follow tops terminal = tops := by
  cases h with
  | answer outcome => cases outcome <;> rfl
  | risk reason => rfl
  | book reason => rfl

/-- A consumer with the tops from before a command has those from after it when it has applied the
events of its batch. -/
theorem Publishes.follow {transition : Gateway.Transition ACCOUNTS RISK_ORDERS LEVELS ORDERS_PER_LEVEL}
    {batch : EventBatch BATCH} (h : Publishes transition batch) :
    batch.entries.foldl Events.follow (BoundedEventEngine.tops transition.before) =
      BoundedEventEngine.tops transition.after := by
  obtain ⟨terminal, hterminal, hentries⟩ := h.entries
  rw [hentries, List.foldl_cons, hterminal.follow, List.foldl_append, foldl_follow_tradeEvents,
    foldl_follow_topEvents]

/-- The events of a result of business are the batch of its command. -/
theorem publishes_of_resultEvents
    {transition : Gateway.Transition ACCOUNTS RISK_ORDERS LEVELS ORDERS_PER_LEVEL} {batch : EventBatch BATCH}
    (hbusiness : Logical.Gateway.Business transition.result) (hreported : transition.Reported)
    (hentries : batch.entries = resultEvents (.fromCommand transition.command) transition.command.sequence
      (BoundedEventEngine.tops transition.before) (BoundedEventEngine.tops transition.after)
      transition.reports transition.result)
    (hnumbered : batch.Numbered transition.command.sequence) : Publishes transition batch := by
  refine ⟨?_, hnumbered, hreported⟩
  obtain ⟨before, command, result, reports, after⟩ := transition
  have hrejected (error : GatewayError) (herror : result = .error error) (event : Event) :
      [event] = event :: (tradeEvents command.sequence reports 1 ++
        topEvents (.fromCommand command) command.sequence (BoundedEventEngine.tops before)
          (BoundedEventEngine.tops after) (reports.length + 1)) := by
    obtain ⟨hreports, htops⟩ := hreported.rejected error herror
    have hreports' : reports = [] := hreports
    have htops' : BoundedEventEngine.tops after = BoundedEventEngine.tops before := tops_eq_of_topLevel htops
    rw [hreports', htops', topEvents, if_neg (not_not.mpr rfl)]
    rfl
  match result, hbusiness with
  | .ok outcome, _ => exact ⟨_, .answer outcome, hentries⟩
  | .error (.risk reason), _ => exact ⟨_, .risk reason, hentries.trans (hrejected _ rfl _)⟩
  | .error (.book reason), _ => exact ⟨_, .book reason, hentries.trans (hrejected _ rfl _)⟩

/-! ## Traces and their batches -/

section Trace

variable {start gateway gateway' : Gateway ACCOUNTS RISK_ORDERS LEVELS ORDERS_PER_LEVEL}
  {transitions : List (Gateway.Transition ACCOUNTS RISK_ORDERS LEVELS ORDERS_PER_LEVEL)}
  {batches : List (EventBatch BATCH)}

theorem exists_of_forall₂_concat {A B : Type} {related : A → B → Prop} {as : List A} {a : A} {bs : List B}
    (h : List.Forall₂ related (as ++ [a]) bs) :
    ∃ bs' b, bs = bs' ++ [b] ∧ List.Forall₂ related as bs' ∧ related a b := by
  induction as generalizing bs with
  | nil =>
    obtain ⟨b, bs', hab, hnil, rfl⟩ := List.forall₂_cons_left_iff.mp h
    rw [List.forall₂_nil_left_iff.mp hnil]
    exact ⟨[], b, rfl, .nil, hab⟩
  | cons first as ih =>
    obtain ⟨b, bs', hfirst, hrest, rfl⟩ := List.forall₂_cons_left_iff.mp h
    obtain ⟨bs'', last, rfl, hbs, hlast⟩ := ih hrest
    exact ⟨b :: bs'', last, rfl, .cons hfirst hbs, hlast⟩

theorem followBatches_concat (tops : Option TopLevel × Option TopLevel) (batches : List (EventBatch BATCH))
    (batch : EventBatch BATCH) :
    followBatches tops (batches ++ [batch]) = batch.entries.foldl follow (followBatches tops batches) := by
  unfold followBatches
  rw [List.flatMap_append, List.foldl_append, List.flatMap_singleton]

/-- Every part of a trace is one. -/
theorem exists_trace_of_append (h : Gateway.Trace start transitions gateway) :
    ∀ before after, transitions = before ++ after → ∃ current, Gateway.Trace start before current := by
  induction h with
  | nil =>
    intro before after heq
    rw [(List.append_eq_nil_iff.mp heq.symm).1]
    exact ⟨start, .nil⟩
  | snoc h hrun ih =>
    intro before after heq
    rcases List.eq_nil_or_concat after with rfl | ⟨after', last, rfl⟩
    · rw [List.append_nil] at heq
      rw [← heq]
      exact ⟨_, h.snoc hrun⟩
    · rw [List.concat_eq_append, ← List.append_assoc] at heq
      exact ih before after' (List.append_inj' heq rfl).1

/-- The tops of a gateway are those that a consumer of all of its batches has. -/
theorem followBatches_of_publishes (h : Gateway.Trace start transitions gateway)
    (hpublished : List.Forall₂ Publishes transitions batches) :
    followBatches (BoundedEventEngine.tops start) batches = BoundedEventEngine.tops gateway := by
  induction h generalizing batches with
  | nil =>
    rw [List.forall₂_nil_left_iff.mp hpublished]
    rfl
  | snoc _ _ ih =>
    obtain ⟨batches', batch, rfl, hbatches, hlast⟩ := exists_of_forall₂_concat hpublished
    rw [followBatches_concat, ih hbatches]
    exact hlast.follow

end Trace

/-! ## Steps of the system -/

section Steps

variable {REPORTS QUEUE : ℕ}
  {engine : BoundedEventEngine ACCOUNTS RISK_ORDERS LEVELS ORDERS_PER_LEVEL BATCH}
  {gateway gateway' : Gateway ACCOUNTS RISK_ORDERS LEVELS ORDERS_PER_LEVEL}

/-- The command that a request stands for. -/
def Request.Denotes (request : Request) (command : Command) : Prop :=
  match request with
  | .command other => other = command
  | .frame bytes => ∃ message, Wire.parseMessage bytes = .ok (.ok message) ∧
      message.toCommand = .ok command

/-- The refusals of a call, which come before anything changes. -/
inductive Refusal : EventEngineError → Prop where
  | backpressured : Refusal .backpressured
  | parse (error : Wire.ParseError) : Refusal (.gateway (.parse error))
  | sequence (expected received : SequenceNumber) : Refusal (.gateway (.sequence expected received))
  | exhausted : Refusal (.gateway (.riskState .arithmeticOverflow))

theorem preflight_cases (QUEUE : ℕ)
    (engine : BoundedEventEngine ACCOUNTS RISK_ORDERS LEVELS ORDERS_PER_LEVEL BATCH)
    (sequence : SequenceNumber) :
    (∃ error, engine.preflight QUEUE sequence = .error error ∧ Refusal error) ∨
      engine.preflight QUEUE sequence = .ok () ∧ engine.queue.length < QUEUE ∧
        ∃ next, Gateway.checkSequence engine.gateway.expectedSequence sequence = .ok next := by
  unfold BoundedEventEngine.preflight BoundedQueue.hasCapacity
  rcases Logical.Gateway.checkSequence_cases engine.gateway.expectedSequence sequence with
    ⟨_, hcheck⟩ | ⟨_, _, hcheck⟩ | ⟨next, _, _, hcheck⟩
  · rw [hcheck]
    exact .inl ⟨_, rfl, .sequence _ _⟩
  · rw [hcheck]
    exact .inl ⟨_, rfl, .exhausted⟩
  · rw [hcheck]
    by_cases hroom : engine.queue.length < QUEUE
    · exact .inr ⟨if_pos (decide_eq_true hroom), hroom, next, rfl⟩
    · exact .inl ⟨_, if_neg (by simpa using hroom), .backpressured⟩

/-- A call is refused, or admitted for the command that its argument stands for. -/
theorem prepare_cases (QUEUE : ℕ)
    (engine : BoundedEventEngine ACCOUNTS RISK_ORDERS LEVELS ORDERS_PER_LEVEL BATCH) (request : Request) :
    (∃ error, engine.prepare QUEUE request = .ok (.error error) ∧ Refusal error) ∨
      ∃ command, engine.prepare QUEUE request = .ok (.ok (.fromCommand command, command.sequence)) ∧
        request.Denotes command ∧ engine.gateway.Accepts command ∧ engine.queue.length < QUEUE := by
  cases request with
  | command command =>
    have hprepare : engine.prepare QUEUE (.command command) = .ok ((engine.preflight QUEUE
        command.sequence).map fun _ ↦ (.fromCommand command, command.sequence)) := rfl
    rw [hprepare]
    rcases preflight_cases QUEUE engine command.sequence with
      ⟨error, hpreflight, hrefusal⟩ | ⟨hpreflight, hroom, haccepts⟩
    · rw [hpreflight]
      exact .inl ⟨error, rfl, hrefusal⟩
    · rw [hpreflight]
      exact .inr ⟨command, rfl, rfl, haccepts, hroom⟩
  | frame bytes =>
    unfold BoundedEventEngine.prepare
    rcases Wire.parseMessage_cases bytes with ⟨error, hparse⟩ | ⟨message, command, hparse, hcommand, _⟩
    · simp only [hparse, Run.ok_bind]
      exact .inl ⟨_, rfl, .parse error⟩
    · have hsequence := Wire.sequence_of_toCommand hcommand
      simp only [hparse, hsequence, Run.ok_bind]
      rcases preflight_cases QUEUE engine command.sequence with
        ⟨error, hpreflight, hrefusal⟩ | ⟨hpreflight, hroom, haccepts⟩
      · rw [hpreflight]
        exact .inl ⟨error, rfl, hrefusal⟩
      · rw [hpreflight]
        simp only [CommandIdentity.fromMessage_of_toCommand hcommand, Run.ok_bind]
        exact .inr ⟨command, rfl, ⟨message, hparse, hcommand⟩, haccepts, hroom⟩

theorem Request.Denotes.mutate {request : Request} {command : Command} (h : request.Denotes command)
    (REPORTS : ℕ) (gateway : Gateway ACCOUNTS RISK_ORDERS LEVELS ORDERS_PER_LEVEL) :
    BoundedEventEngine.mutate REPORTS gateway request =
      gateway.processCommand command (ReportBuffer.new REPORTS) := by
  cases request with
  | command other =>
    obtain rfl : other = command := h
    rfl
  | frame bytes =>
    obtain ⟨message, hparse, hcommand⟩ := h
    exact gateway.processFrame_of_parse _ hparse hcommand

/-- The result of business is published when there is room for it. -/
theorem publishResult_of_lt (hordinals : REPORTS + 1 < 2 ^ 16) (hbatch : REPORTS + 2 ≤ BATCH)
    (hroom : engine.queue.length < QUEUE) (command : CommandIdentity) (sequence : SequenceNumber)
    (before after : Option TopLevel × Option TopLevel) {reports : List ExecutionReport}
    (hreports : reports.length ≤ REPORTS) {result : Except GatewayError GatewayOutcome}
    (hbusiness : Logical.Gateway.Business result) :
    ∃ batch : EventBatch BATCH,
      engine.publishResult QUEUE command sequence before after reports result =
        .ok (.ok batch, { engine with queue := engine.queue ++ [batch] }) ∧
      batch.entries = resultEvents command sequence before after reports result ∧
      batch.Numbered sequence := by
  obtain ⟨batch, hrun, hentries, hnumbered⟩ :=
    batchOf_of_business hordinals hbatch command sequence before after hreports hbusiness
  refine ⟨batch, ?_, hentries, hnumbered⟩
  unfold BoundedEventEngine.publishResult
  simp only [hrun, Run.ok_bind, BoundedQueue.tryPush_of_lt batch hroom]
  rfl

end Steps

/-! ## Runs of the system -/

/-- The commands whose batches are out: all but that of a call between the gateway and the queue. -/
def Phase.settled (phase : Phase)
    (transitions : List (Gateway.Transition ACCOUNTS RISK_ORDERS LEVELS ORDERS_PER_LEVEL)) :
    List (Gateway.Transition ACCOUNTS RISK_ORDERS LEVELS ORDERS_PER_LEVEL) :=
  match phase with
  | .processed .. => transitions.dropLast
  | _ => transitions

/-- The phase of a call whose command the gateway has processed. -/
def Phase.ofTransition (transition : Gateway.Transition ACCOUNTS RISK_ORDERS LEVELS ORDERS_PER_LEVEL) :
    Phase :=
  .processed (.fromCommand transition.command) transition.command.sequence
    (BoundedEventEngine.tops transition.before) (BoundedEventEngine.tops transition.after)
    transition.reports transition.result

/-- What the batches tell of the commands that the gateway has processed since `start`. -/
structure Accounted (start : Gateway ACCOUNTS RISK_ORDERS LEVELS ORDERS_PER_LEVEL)
    (system : EventSystem ACCOUNTS RISK_ORDERS LEVELS ORDERS_PER_LEVEL BATCH)
    (transitions : List (Gateway.Transition ACCOUNTS RISK_ORDERS LEVELS ORDERS_PER_LEVEL)) : Prop where
  trace : Gateway.Trace start transitions system.engine.gateway
  /-- Every processed command has consumed a sequence, without a gap. -/
  sequences : transitions.map (fun transition ↦ transition.command.sequence.val) =
    List.range' start.expectedSequence.val transitions.length
  expected : system.engine.gateway.expectedSequence.val =
    start.expectedSequence.val + transitions.length
  /-- Popped and queued batches are those of the commands, in order and one for each. -/
  published : List.Forall₂ Publishes (system.phase.settled transitions)
    (system.received ++ system.engine.queue)
  /-- After any number of batches the consumer has the tops from after as many commands. -/
  followed : ∀ batches rest, system.received ++ system.engine.queue = batches ++ rest →
    ∃ current, Gateway.Trace start (transitions.take batches.length) current ∧
      followBatches (BoundedEventEngine.tops start) batches = BoundedEventEngine.tops current
  /-- Between calls, all batches lead to the tops of the gateway. -/
  top : system.phase = .idle →
    followBatches (BoundedEventEngine.tops start) (system.received ++ system.engine.queue) =
      BoundedEventEngine.tops system.engine.gateway

/-- What the call that is going on relies on. -/
def EventSystem.Ready (REPORTS QUEUE : ℕ)
    (system : EventSystem ACCOUNTS RISK_ORDERS LEVELS ORDERS_PER_LEVEL BATCH)
    (transitions : List (Gateway.Transition ACCOUNTS RISK_ORDERS LEVELS ORDERS_PER_LEVEL)) : Prop :=
  match system.phase with
  | .idle => True
  | .admitted identity sequence request => ∃ command, identity = .fromCommand command ∧
      sequence = command.sequence ∧ request.Denotes command ∧ system.engine.gateway.Accepts command ∧
      system.engine.queue.length < QUEUE
  | .processed identity sequence before after reports result => ∃ earlier last,
      transitions = earlier ++ [last] ∧ identity = .fromCommand last.command ∧
      sequence = last.command.sequence ∧ before = BoundedEventEngine.tops last.before ∧
      after = BoundedEventEngine.tops last.after ∧ reports = last.reports ∧ result = last.result ∧
      Logical.Gateway.Business last.result ∧ last.Reported ∧ reports.length ≤ REPORTS ∧
      system.engine.queue.length < QUEUE

/-- The invariant of the system. -/
structure EventSystem.Sound (REPORTS QUEUE : ℕ)
    (start : Gateway ACCOUNTS RISK_ORDERS LEVELS ORDERS_PER_LEVEL)
    (system : EventSystem ACCOUNTS RISK_ORDERS LEVELS ORDERS_PER_LEVEL BATCH)
    (transitions : List (Gateway.Transition ACCOUNTS RISK_ORDERS LEVELS ORDERS_PER_LEVEL)) : Prop where
  trace : Gateway.Trace start transitions system.engine.gateway
  represents : ∃ logical : Logical.Gateway, system.engine.gateway.Represents logical ∧
    logical.Invariant LEVELS ORDERS_PER_LEVEL
  sequences : transitions.map (fun transition ↦ transition.command.sequence.val) =
    List.range' start.expectedSequence.val transitions.length
  expected : system.engine.gateway.expectedSequence.val =
    start.expectedSequence.val + transitions.length
  published : List.Forall₂ Publishes (system.phase.settled transitions)
    (system.received ++ system.engine.queue)
  ready : system.Ready REPORTS QUEUE transitions

namespace EventSystem

variable {REPORTS QUEUE : ℕ} {initial : Gateway ACCOUNTS RISK_ORDERS LEVELS ORDERS_PER_LEVEL}
  {system : EventSystem ACCOUNTS RISK_ORDERS LEVELS ORDERS_PER_LEVEL BATCH}
  {transitions : List (Gateway.Transition ACCOUNTS RISK_ORDERS LEVELS ORDERS_PER_LEVEL)}

theorem settled_prefix (phase : Phase)
    (transitions : List (Gateway.Transition ACCOUNTS RISK_ORDERS LEVELS ORDERS_PER_LEVEL)) :
    ∃ rest, transitions = phase.settled transitions ++ rest := by
  cases phase with
  | idle | admitted _ _ _ => exact ⟨[], (List.append_nil _).symm⟩
  | processed _ _ _ _ _ _ =>
    obtain ⟨rest, hrest⟩ := List.dropLast_prefix transitions
    exact ⟨rest, hrest.symm⟩

theorem Sound.accounted (h : system.Sound REPORTS QUEUE initial transitions) :
    Accounted initial system transitions := by
  refine ⟨h.trace, h.sequences, h.expected, h.published, ?_, ?_⟩
  · intro batches rest heq
    have hpublished := List.forall₂_take batches.length h.published
    rw [heq, List.take_left] at hpublished
    have hlength : batches.length ≤ (system.phase.settled transitions).length := by
      rw [h.published.length_eq, heq, List.length_append]
      exact Nat.le_add_right _ _
    obtain ⟨later, hlater⟩ := settled_prefix system.phase transitions
    have htake : transitions.take batches.length =
        (system.phase.settled transitions).take batches.length := by
      conv_lhs => rw [hlater]
      exact List.take_append_of_le_length hlength
    rw [← htake] at hpublished
    obtain ⟨current, hcurrent⟩ :=
      exists_trace_of_append h.trace _ _ (List.take_append_drop batches.length transitions).symm
    exact ⟨current, hcurrent, followBatches_of_publishes hcurrent hpublished⟩
  · intro hidle
    have hpublished := h.published
    rw [hidle] at hpublished
    exact followBatches_of_publishes h.trace hpublished

theorem Sound.start (hc : Capacities ACCOUNTS RISK_ORDERS LEVELS ORDERS_PER_LEVEL)
    (hreachable : initial.Reachable) :
    (EventSystem.start ⟨initial, []⟩ :
      EventSystem ACCOUNTS RISK_ORDERS LEVELS ORDERS_PER_LEVEL BATCH).Sound REPORTS QUEUE initial [] :=
  ⟨.nil, hreachable.sound hc, rfl, rfl, .nil, trivial⟩

/-- A consumer that pops a batch changes neither the account nor what the producer relies on. -/
theorem Sound.pop (h : system.Sound REPORTS QUEUE initial transitions) {batch : EventBatch BATCH}
    {queue : List (EventBatch BATCH)} (hqueue : system.engine.queue = batch :: queue) :
    Sound REPORTS QUEUE initial { system with
      engine := { system.engine with queue := queue }
      received := system.received ++ [batch] } transitions := by
  have hshorter : queue.length < system.engine.queue.length := by
    rw [hqueue]
    exact Nat.lt_succ_self _
  refine ⟨h.trace, h.represents, h.sequences, h.expected, ?_, ?_⟩
  · have hpublished := h.published
    rw [hqueue, ← List.singleton_append, ← List.append_assoc] at hpublished
    exact hpublished
  · have hready := h.ready
    obtain ⟨engine, phase, received⟩ := system
    cases phase with
    | idle => trivial
    | admitted identity sequence request =>
      obtain ⟨command, hidentity, hsequence, hdenotes, haccepts, hroom⟩ := hready
      exact ⟨command, hidentity, hsequence, hdenotes, haccepts, hshorter.trans hroom⟩
    | processed identity sequence before after reports result =>
      obtain ⟨earlier, last, heq, hidentity, hsequence, hbefore, hafter, hreports, hresult, hbusiness,
        hreported, hlength, hroom⟩ := hready
      exact ⟨earlier, last, heq, hidentity, hsequence, hbefore, hafter, hreports, hresult, hbusiness,
        hreported, hlength, hshorter.trans hroom⟩

/-- A call is refused, or admitted. -/
theorem Sound.call {engine : BoundedEventEngine ACCOUNTS RISK_ORDERS LEVELS ORDERS_PER_LEVEL BATCH}
    {received : List (EventBatch BATCH)}
    (h : Sound REPORTS QUEUE initial ⟨engine, .idle, received⟩ transitions)
    (request : Request) :
    (∃ error, step REPORTS QUEUE ⟨engine, .idle, received⟩ (.call request) =
      .ok (some (.error error), ⟨engine, .idle, received⟩) ∧ Refusal error) ∨
    ∃ command, step REPORTS QUEUE ⟨engine, .idle, received⟩ (.call request) =
        .ok (none, ⟨engine, .admitted (.fromCommand command) command.sequence request, received⟩) ∧
      Sound REPORTS QUEUE initial
        ⟨engine, .admitted (.fromCommand command) command.sequence request, received⟩ transitions ∧
      request.Denotes command := by
  rcases prepare_cases QUEUE engine request with
    ⟨error, hprepare, hrefusal⟩ | ⟨command, hprepare, hdenotes, haccepts, hroom⟩
  · refine .inl ⟨error, ?_, hrefusal⟩
    unfold EventSystem.step
    simp only [hprepare, Run.ok_bind]
    rfl
  · refine .inr ⟨command, ?_, ⟨h.trace, h.represents, h.sequences, h.expected, h.published,
      command, rfl, rfl, hdenotes, haccepts, hroom⟩, hdenotes⟩
    unfold EventSystem.step
    simp only [hprepare, Run.ok_bind]
    rfl

/-- An admission that is dropped leaves nothing behind. -/
theorem Sound.abandon {engine : BoundedEventEngine ACCOUNTS RISK_ORDERS LEVELS ORDERS_PER_LEVEL BATCH}
    {received : List (EventBatch BATCH)} {identity : CommandIdentity} {sequence : SequenceNumber}
    {request : Request}
    (h : Sound REPORTS QUEUE initial ⟨engine, .admitted identity sequence request, received⟩ transitions) :
    Sound REPORTS QUEUE initial ⟨engine, .idle, received⟩ transitions :=
  ⟨h.trace, h.represents, h.sequences, h.expected, h.published, trivial⟩

/-- The gateway takes the command of the admitted call. -/
theorem Sound.mutate (hc : Capacities ACCOUNTS RISK_ORDERS LEVELS ORDERS_PER_LEVEL)
    {engine : BoundedEventEngine ACCOUNTS RISK_ORDERS LEVELS ORDERS_PER_LEVEL BATCH}
    {received : List (EventBatch BATCH)} {identity : CommandIdentity} {sequence : SequenceNumber}
    {request : Request}
    (h : Sound REPORTS QUEUE initial ⟨engine, .admitted identity sequence request, received⟩ transitions) :
    ∃ transition : Gateway.Transition ACCOUNTS RISK_ORDERS LEVELS ORDERS_PER_LEVEL,
      step REPORTS QUEUE ⟨engine, .admitted identity sequence request, received⟩ .advance =
        .ok (none, ⟨{ engine with gateway := transition.after }, Phase.ofTransition transition, received⟩) ∧
      Sound REPORTS QUEUE initial
        ⟨{ engine with gateway := transition.after }, Phase.ofTransition transition, received⟩
        (transitions ++ [transition]) ∧
      request.Denotes transition.command ∧
      Gateway.History REPORTS engine.gateway [transition.command] transition.after := by
  obtain ⟨command, rfl, rfl, hdenotes, haccepts, hroom⟩ := h.ready
  obtain ⟨logical, hrep, hinvariant⟩ := h.represents
  obtain ⟨result, gateway', reports', hrun⟩ : ∃ result gateway' reports',
      engine.gateway.processCommand command (ReportBuffer.new REPORTS) =
        .ok (result, gateway', reports') := by
    obtain ⟨gateway', reports', hrun, _⟩ := hrep.processCommand hc command (ReportBuffer.new REPORTS)
    exact ⟨_, gateway', reports', hrun⟩
  obtain ⟨hnumber, hbusiness, logical', hrep', hinvariant', hnext, _⟩ :=
    hrep.accepted hc hinvariant haccepts hrun
  have hreported := hrep.reported hc hinvariant hrun
  have hexpected : engine.gateway.expectedSequence.val =
      initial.expectedSequence.val + transitions.length := h.expected
  have hcommand : command.sequence.val = initial.expectedSequence.val + transitions.length := by
    rw [hnumber, ← hrep.expectedSequence, hexpected]
  refine ⟨⟨engine.gateway, command, result, reports'.entries, gateway'⟩, ?_,
    ⟨h.trace.snoc hrun, ⟨logical', hrep', hinvariant'⟩, ?_, ?_, ?_, ?_⟩, hdenotes,
      .cons haccepts hrun .nil⟩
  · unfold step
    simp only [hdenotes.mutate, hrun, Run.ok_bind]
    rfl
  · rw [List.map_append, h.sequences, List.length_append, List.length_singleton, List.range'_1_concat,
      List.map_singleton, hcommand]
  · rw [List.length_append, List.length_singleton, ← Nat.add_assoc, ← hexpected, hrep.expectedSequence,
      ← hnext, hrep'.expectedSequence]
  · show List.Forall₂ Publishes (transitions ++ [_]).dropLast _
    rw [List.dropLast_concat]
    exact h.published
  · exact ⟨transitions, _, rfl, rfl, rfl, rfl, rfl, rfl, rfl, hbusiness, hreported, reports'.length_le, hroom⟩

/-- The result of the call is published. -/
theorem Sound.publish (hordinals : REPORTS + 1 < 2 ^ 16) (hbatch : REPORTS + 2 ≤ BATCH)
    {engine : BoundedEventEngine ACCOUNTS RISK_ORDERS LEVELS ORDERS_PER_LEVEL BATCH}
    {received : List (EventBatch BATCH)} {identity : CommandIdentity} {sequence : SequenceNumber}
    {before after : Option TopLevel × Option TopLevel} {reports : List ExecutionReport}
    {result : Except GatewayError GatewayOutcome}
    (h : Sound REPORTS QUEUE initial
      ⟨engine, .processed identity sequence before after reports result, received⟩ transitions) :
    ∃ batch, step REPORTS QUEUE
        ⟨engine, .processed identity sequence before after reports result, received⟩ .advance =
        .ok (some (.ok ()), ⟨{ engine with queue := engine.queue ++ [batch] }, .idle, received⟩) ∧
      Sound REPORTS QUEUE initial ⟨{ engine with queue := engine.queue ++ [batch] }, .idle, received⟩
        transitions := by
  obtain ⟨earlier, last, rfl, rfl, rfl, rfl, rfl, rfl, rfl, hbusiness, hreported, hlength, hroom⟩ := h.ready
  obtain ⟨batch, hrun, hentries, hnumbered⟩ := publishResult_of_lt hordinals hbatch hroom
    (.fromCommand last.command) last.command.sequence (BoundedEventEngine.tops last.before)
    (BoundedEventEngine.tops last.after) hlength hbusiness
  refine ⟨batch, ?_, h.trace, h.represents, h.sequences, h.expected, ?_, trivial⟩
  · unfold step
    simp only [hrun, Run.ok_bind]
    rfl
  · have hpublished : List.Forall₂ Publishes (earlier ++ [last]).dropLast (received ++ engine.queue) :=
      h.published
    rw [List.dropLast_concat] at hpublished
    show List.Forall₂ Publishes (earlier ++ [last]) (received ++ (engine.queue ++ [batch]))
    rw [← List.append_assoc]
    exact List.rel_append hpublished
      (.cons (publishes_of_resultEvents hbusiness hreported hentries hnumbered) .nil)

/-- Popping moves a batch to the consumer, and nothing else. -/
theorem Sound.popped (h : system.Sound REPORTS QUEUE initial transitions) :
    ∃ system', system.step REPORTS QUEUE .pop = .ok (none, system') ∧
      system'.Sound REPORTS QUEUE initial transitions ∧ system'.phase = system.phase ∧
      system'.engine.gateway = system.engine.gateway ∧
      system'.received ++ system'.engine.queue = system.received ++ system.engine.queue := by
  obtain ⟨engine, phase, received⟩ := system
  unfold EventSystem.step
  cases hqueue : engine.queue with
  | nil =>
    refine ⟨⟨engine, phase, received⟩, ?_, h, rfl, rfl, congrArg (received ++ ·) hqueue⟩
    simp only [BoundedQueue.tryPop]
  | cons batch queue =>
    refine ⟨⟨{ engine with queue := queue }, phase, received ++ [batch]⟩, ?_, h.pop hqueue, rfl, rfl,
      List.append_assoc _ _ _⟩
    simp only [BoundedQueue.tryPop]

/-- Every step returns and keeps the account; a call that is refused changes nothing. -/
theorem Sound.step (hc : Capacities ACCOUNTS RISK_ORDERS LEVELS ORDERS_PER_LEVEL)
    (hordinals : REPORTS + 1 < 2 ^ 16) (hbatch : REPORTS + 2 ≤ BATCH)
    (h : system.Sound REPORTS QUEUE initial transitions) (action : Action) :
    ∃ reply system' transitions', system.step REPORTS QUEUE action = .ok (reply, system') ∧
      system'.Sound REPORTS QUEUE initial transitions' ∧
      ∀ error, reply = some (.error error) → system' = system ∧ Refusal error := by
  cases action with
  | call request =>
    obtain ⟨engine, phase, received⟩ := system
    cases phase with
    | idle =>
      rcases h.call request with ⟨error, hstep, hrefusal⟩ | ⟨command, hstep, hsound, _⟩
      · refine ⟨some (.error error), _, transitions, hstep, h, ?_⟩
        rintro _ ⟨⟩
        exact ⟨rfl, hrefusal⟩
      · exact ⟨none, _, transitions, hstep, hsound, nofun⟩
    | admitted _ _ _ => exact ⟨none, _, transitions, rfl, h, nofun⟩
    | processed _ _ _ _ _ _ => exact ⟨none, _, transitions, rfl, h, nofun⟩
  | advance =>
    obtain ⟨engine, phase, received⟩ := system
    cases phase with
    | idle => exact ⟨none, _, transitions, rfl, h, nofun⟩
    | admitted identity sequence request =>
      obtain ⟨transition, hstep, hsound, _⟩ := h.mutate hc
      exact ⟨none, _, _, hstep, hsound, nofun⟩
    | processed identity sequence before after reports result =>
      obtain ⟨batch, hstep, hsound⟩ := h.publish hordinals hbatch
      exact ⟨some (.ok ()), _, transitions, hstep, hsound, nofun⟩
  | pop =>
    obtain ⟨system', hstep, hsound, _⟩ := h.popped
    exact ⟨none, system', transitions, hstep, hsound, nofun⟩

end EventSystem

end DeterministicExchange.Events
