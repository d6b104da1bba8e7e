import DeterministicExchange.Router.Router

/-!
# One shard between its queues

A call of a shard moves one command from the queue into its hand, and from there
to the engine or back into the pending slot. Nothing else moves commands, and the
gateway and the batches are at every moment what the processed commands alone
would have made of them.
-/

namespace DeterministicExchange.Router

open Machine Book Events

namespace Lane

variable {shape : ShardShape} {BATCH : ℕ}

/-- The part of a call after it has taken a command. -/
theorem execute_served (EVENT_QUEUE : ℕ) (route : InstrumentRoute) (commands : List Command)
    (command : Command) (engine : BoundedEventEngine shape.accounts shape.riskOrders shape.levels
      shape.ordersPerLevel BATCH) (received : List (EventBatch BATCH)) :
    (execute (step EVENT_QUEUE) (⟨route, commands, none, .holding command,
      ⟨engine, .idle, received⟩⟩ : Lane shape BATCH)
        [.advance, .advance, .advance]).map
          (fun outcome ↦ (outcome.1.reduceOption.map Prod.snd, outcome.2)) =
      (MatchingShard.tryProcessOne shape.reports EVENT_QUEUE ⟨route, engine, some command⟩ commands).map
        fun outcome ↦ ([outcome.1],
          ⟨route, outcome.2.2, outcome.2.1.pending, .idle, ⟨outcome.2.1.engine, .idle, received⟩⟩) := by
  unfold MatchingShard.tryProcessOne BoundedEventEngine.processCommand
  simp only [execute, step, advance]
  by_cases hroute : command.instrumentId ≠ route.instrumentId
  · simp only [if_pos hroute]
    rfl
  simp only [if_neg hroute, EventSystem.step, BoundedEventEngine.prepare]
  cases engine.admitCommand EVENT_QUEUE command with
  | error error => cases error <;> rfl
  | ok _ =>
    unfold BoundedEventEngine.applyAdmittedCommand
    simp only [Except.map, Run.ok_bind, Run.pure_eq_ok, settle, BoundedEventEngine.mutate]
    cases engine.gateway.processCommand command (ReportBuffer.new shape.reports) with
    | error fault => rfl
    | ok outcome =>
      simp only [Run.ok_bind]
      cases { engine with gateway := outcome.2.1 }.publishResult EVENT_QUEUE (.fromCommand command)
          command.sequence (BoundedEventEngine.tops engine.gateway)
          (BoundedEventEngine.tops outcome.2.1) outcome.2.2.entries outcome.1 with
      | error fault => rfl
      | ok published =>
        obtain ⟨result, engine'⟩ := published
        cases result with
        | ok batch => rfl
        | error error => cases error <;> rfl

/-- A call that nothing interrupts is a call of the shard. -/
theorem execute_call (EVENT_QUEUE : ℕ) (shard : shape.Shard BATCH) (commands : List Command)
    (received : List (EventBatch BATCH)) :
    (execute (step EVENT_QUEUE) ⟨shard.route, commands, shard.pending, .idle, ⟨shard.engine, .idle, received⟩⟩
        [.take, .advance, .advance, .advance]).map
          (fun outcome ↦ (outcome.1.reduceOption.map Prod.snd, outcome.2)) =
      (shard.tryProcessOne shape.reports EVENT_QUEUE commands).map fun outcome ↦ ([outcome.1],
        ⟨shard.route, outcome.2.2, outcome.2.1.pending, .idle, ⟨outcome.2.1.engine, .idle, received⟩⟩) := by
  obtain ⟨route, engine, pending⟩ := shard
  have hrest (queue : List Command) (command : Command) :
      (execute (step EVENT_QUEUE) (⟨route, queue, none, .holding command,
        ⟨engine, .idle, received⟩⟩ : Lane shape BATCH)
          [.advance, .advance, .advance]).map
            (fun outcome ↦ ((none :: outcome.1).reduceOption.map Prod.snd, outcome.2)) = _ :=
    execute_served EVENT_QUEUE route queue command engine received
  cases pending with
  | some command =>
    have htake : step EVENT_QUEUE
        (⟨route, commands, some command, .idle, ⟨engine, .idle, received⟩⟩ : Lane shape BATCH) .take =
        .ok (none, ⟨route, commands, none, .holding command, ⟨engine, .idle, received⟩⟩) := rfl
    rw [execute_cons htake, ← hrest commands command]
    cases execute (step EVENT_QUEUE)
      (⟨route, commands, none, .holding command, ⟨engine, .idle, received⟩⟩ : Lane shape BATCH) _ <;> rfl
  | none =>
    cases commands with
    | nil => rfl
    | cons command commands =>
      have htake : step EVENT_QUEUE
          (⟨route, command :: commands, none, .idle, ⟨engine, .idle, received⟩⟩ : Lane shape BATCH) .take =
          .ok (none, ⟨route, commands, none, .holding command, ⟨engine, .idle, received⟩⟩) := rfl
      rw [execute_cons htake]
      refine Eq.trans ?_ (hrest commands command)
      cases execute (step EVENT_QUEUE)
        (⟨route, commands, none, .holding command, ⟨engine, .idle, received⟩⟩ : Lane shape BATCH) _ <;> rfl

end Lane

/-! ## What a shard has done -/

section Direct

variable {shape : ShardShape} {BATCH : ℕ}

/-- The commands of `consumed`, processed one after the other by an engine of their own, have the same
results, and lead to `engine`. -/
def ProcessedDirectly (capacity : ℕ) (gateway : shape.Gateway)
    (consumed : List (Command × Except ShardError ShardStep))
    (engine : BoundedEventEngine shape.accounts shape.riskOrders shape.levels shape.ordersPerLevel BATCH) :
    Prop :=
  ∃ results, execute (fun engine command ↦ engine.processCommand shape.reports capacity command)
      ⟨gateway, []⟩ (consumed.map Prod.fst) = .ok (results, engine) ∧
    List.Forall₂ (fun entry result ↦ entry.2 = shardResult entry.1 (result.map fun _ ↦ ())) consumed results

theorem ProcessedDirectly.concat {capacity : ℕ} {gateway : shape.Gateway}
    {consumed : List (Command × Except ShardError ShardStep)}
    {engine engine' : BoundedEventEngine shape.accounts shape.riskOrders shape.levels
      shape.ordersPerLevel BATCH}
    (h : ProcessedDirectly capacity gateway consumed engine) {command : Command}
    {result : Except EventEngineError (EventBatch BATCH)}
    (hrun : engine.processCommand shape.reports capacity command = .ok (result, engine')) :
    ProcessedDirectly capacity gateway
      (consumed ++ [(command, shardResult command (result.map fun _ ↦ ()))]) engine' := by
  obtain ⟨results, hresults, hsame⟩ := h
  refine ⟨results ++ [result], ?_, List.rel_append hsame (.cons rfl .nil)⟩
  rw [List.map_append]
  exact execute_concat hresults hrun

end Direct

namespace Lane

variable {shape : ShardShape} {BATCH EVENT_QUEUE : ℕ} {gateway : shape.Gateway}
    {lane lane' : Lane shape BATCH}
  {routed : List Command} {consumed : List (Command × Except ShardError ShardStep)}
  {reply : Option (Option Command × Except ShardError ShardStep)}

/-- The commands that the shard has not consumed, the oldest first. -/
def held (lane : Lane shape BATCH) : List Command :=
  lane.inHand.toList ++ lane.pending.toList ++ lane.commands

/-- Batches that were published, popped or not. -/
def published (lane : Lane shape BATCH) : List (EventBatch BATCH) :=
  lane.events.received ++ lane.events.engine.queue

/-- `current` is the gateway from before the command in hand. -/
def Engaged (EVENT_QUEUE : ℕ) (lane : Lane shape BATCH) (current : shape.Gateway) : Prop :=
  match lane.worker, lane.events.phase with
  | .idle, .idle | .holding _, .idle => lane.events.engine.gateway = current
  | .serving command, .admitted identity sequence request => lane.events.engine.gateway = current ∧
      identity = .fromCommand command ∧ sequence = command.sequence ∧ request = .command command ∧
      current.Accepts command ∧ lane.events.engine.queue.length < EVENT_QUEUE
  | .serving command, .processed identity sequence before after reports result => ∃ buffer,
      current.processCommand command (ReportBuffer.new shape.reports) =
        .ok (result, lane.events.engine.gateway, buffer) ∧
      identity = .fromCommand command ∧ sequence = command.sequence ∧
      before = BoundedEventEngine.tops current ∧
      after = BoundedEventEngine.tops lane.events.engine.gateway ∧ reports = buffer.entries ∧
      current.Accepts command ∧ lane.events.engine.queue.length < EVENT_QUEUE
  | _, _ => False

/-- Without a command in hand, the gateway is the current one. -/
theorem Engaged.of_idle {current : shape.Gateway} (h : lane.Engaged EVENT_QUEUE current)
    (hidle : lane.worker = .idle) : lane.events.engine.gateway = current := by
  obtain ⟨route, commands, pending, worker, engine, phase, received⟩ := lane
  obtain rfl : worker = .idle := hidle
  cases phase with
  | idle => exact h
  | admitted _ _ _ | processed _ _ _ _ _ _ => exact h.elim

/-- A shard that has consumed some of the commands routed to it, and holds the others. -/
structure Accounts (EVENT_QUEUE : ℕ) (gateway : shape.Gateway) (routed : List Command)
    (consumed : List (Command × Except ShardError ShardStep)) (lane : Lane shape BATCH) : Prop where
  conserved : routed = consumed.map Prod.fst ++ lane.held
  instrument : ∀ command ∈ routed, command.instrumentId = lane.route.instrumentId
  clear : lane.worker ≠ .idle → lane.pending = none
  bounded : lane.published.length ≤ consumed.length
  settled : ∃ current, lane.Engaged EVENT_QUEUE current ∧ ∀ capacity, consumed.length ≤ capacity →
    ProcessedDirectly capacity gateway consumed ⟨current, lane.published⟩

/-- Taking a command touches neither the route nor the engine. -/
theorem take_keeps (htake : lane.take = (reply, lane')) :
    lane'.route = lane.route ∧ lane'.events = lane.events := by
  unfold Lane.take at htake
  split at htake
  · split at htake
    · rw [← (Prod.mk.inj htake).2]
      exact ⟨rfl, rfl⟩
    · split at htake
      · rw [← (Prod.mk.inj htake).2]
        exact ⟨rfl, rfl⟩
      · rw [← (Prod.mk.inj htake).2]
        exact ⟨rfl, rfl⟩
  · rw [← (Prod.mk.inj htake).2]
    exact ⟨rfl, rfl⟩

theorem settle_keeps {command : Command} {answer : Option (Except EventEngineError Unit)}
    (hsettle : lane.settle command answer = (reply, lane')) :
    lane'.route = lane.route ∧ lane'.events = lane.events := by
  unfold settle at hsettle
  split at hsettle
  · rw [← (Prod.mk.inj hsettle).2]
    exact ⟨rfl, rfl⟩
  · split at hsettle
    · rw [← (Prod.mk.inj hsettle).2]
      exact ⟨rfl, rfl⟩
    · rw [← (Prod.mk.inj hsettle).2]
      exact ⟨rfl, rfl⟩

/-- A step of a call that returns leaves the engine alone or makes one step of it. -/
theorem advance_cases (hrun : lane.advance EVENT_QUEUE = .ok (reply, lane')) :
    lane'.route = lane.route ∧ (lane'.events = lane.events ∨ ∃ action answer,
      lane.events.step shape.reports EVENT_QUEUE action = .ok (answer, lane'.events)) := by
  unfold Lane.advance at hrun
  split at hrun
  · rw [← (Prod.mk.inj (Except.ok.inj hrun)).2]
    exact ⟨rfl, .inl rfl⟩
  · split at hrun
    · rw [← (Prod.mk.inj (Except.ok.inj hrun)).2]
      exact ⟨rfl, .inl rfl⟩
    · obtain ⟨⟨answer, events⟩, hstep, hsettle⟩ := Run.bind_eq_ok.mp hrun
      obtain ⟨hroute, hevents⟩ := settle_keeps (Except.ok.inj hsettle)
      exact ⟨hroute, .inr ⟨_, answer, hstep.trans (by rw [hevents])⟩⟩
  · obtain ⟨⟨answer, events⟩, hstep, hsettle⟩ := Run.bind_eq_ok.mp hrun
    obtain ⟨hroute, hevents⟩ := settle_keeps (Except.ok.inj hsettle)
    exact ⟨hroute, .inr ⟨_, answer, hstep.trans (by rw [hevents])⟩⟩

/-- A step of a call returns if every step of the engine does. -/
theorem advance_returns
    (hstep : ∀ action, ∃ answer events, lane.events.step shape.reports EVENT_QUEUE action =
      .ok (answer, events)) :
    ∃ reply lane', lane.advance EVENT_QUEUE = .ok (reply, lane') := by
  unfold Lane.advance
  split
  · exact ⟨_, _, rfl⟩
  · next command hworker =>
    split
    · exact ⟨_, _, rfl⟩
    · obtain ⟨answer, events, hrun⟩ := hstep (.call (.command command))
      rw [hrun]
      exact ⟨_, _, rfl⟩
  · obtain ⟨answer, events, hrun⟩ := hstep .advance
    rw [hrun]
    exact ⟨_, _, rfl⟩

/-- A command that is taken stays the first of those held. -/
theorem Accounts.take (h : lane.Accounts EVENT_QUEUE gateway routed consumed)
    (htake : lane.take = (reply, lane')) :
    lane'.Accounts EVENT_QUEUE gateway routed consumed ∧
      (reply = none ∨ reply = some (none, .ok .idle)) := by
  obtain ⟨route, commands, pending, worker, engine, phase, received⟩ := lane
  unfold Lane.take at htake
  cases worker with
  | holding command | serving command =>
    obtain ⟨rfl, rfl⟩ := Prod.mk.inj htake
    exact ⟨h, .inl rfl⟩
  | idle =>
    cases phase with
    | admitted _ _ _ | processed _ _ _ _ _ _ =>
      obtain ⟨current, hengaged, _⟩ := h.settled
      exact hengaged.elim
    | idle =>
      cases pending with
      | some command =>
        obtain ⟨rfl, rfl⟩ := Prod.mk.inj htake
        exact ⟨⟨h.conserved, h.instrument, fun _ ↦ rfl, h.bounded, h.settled⟩, .inl rfl⟩
      | none =>
        cases commands with
        | nil =>
          obtain ⟨rfl, rfl⟩ := Prod.mk.inj htake
          exact ⟨h, .inr rfl⟩
        | cons command commands =>
          obtain ⟨rfl, rfl⟩ := Prod.mk.inj htake
          exact ⟨⟨h.conserved, h.instrument, fun _ ↦ rfl, h.bounded, h.settled⟩, .inl rfl⟩

/-- The command that a returning call has consumed, and its result. -/
def consumedOf :
    Option (Option Command × Except ShardError ShardStep) → Option (Command × Except ShardError ShardStep)
  | some (some command, result) =>
    if result = .error .eventBackpressured then none else some (command, result)
  | _ => none

theorem shardResult_eq_backpressured {command : Command} {result : Except EventEngineError Unit} :
    shardResult command result = .error .eventBackpressured ↔ result = .error .backpressured := by
  cases result with
  | ok _ => simp [shardResult]
  | error error => cases error <;> simp [shardResult]

theorem shardResult_ne_misrouted (command : Command) (result : Except EventEngineError Unit)
    (expected received : InstrumentId) :
    shardResult command result ≠ .error (.misrouted expected received) := by
  cases result with
  | ok _ => simp [shardResult]
  | error error => cases error <;> simp [shardResult]

theorem settle_of_ne (lane : Lane shape BATCH) (command : Command) {result : Except EventEngineError Unit}
    (hne : result ≠ .error .backpressured) :
    lane.settle command (some result) =
      (some (some command, shardResult command result), { lane with worker := .idle }) := by
  cases result with
  | ok _ => rfl
  | error error =>
    cases error with
    | backpressured => exact absurd rfl hne
    | gateway _ | eventCapacityInvariant | publicationInvariant => rfl

/-- The command in hand is consumed with the result that it has on its own. -/
theorem Accounts.consume (h : lane.Accounts EVENT_QUEUE gateway routed consumed) {command : Command}
    (hhand : lane.inHand = some command) (result : Except ShardError ShardStep)
    (engine : BoundedEventEngine shape.accounts shape.riskOrders shape.levels shape.ordersPerLevel BATCH)
    (hbounded : (lane.events.received ++ engine.queue).length ≤ consumed.length + 1)
    (hdirect : ∀ capacity, consumed.length + 1 ≤ capacity → ProcessedDirectly capacity gateway
      (consumed ++ [(command, result)]) ⟨engine.gateway, lane.events.received ++ engine.queue⟩) :
    { lane with
      worker := .idle
      events := ⟨engine, .idle, lane.events.received⟩ }.Accounts EVENT_QUEUE gateway
      routed (consumed ++ [(command, result)]) := by
  have hbusy : lane.worker ≠ .idle := fun hidle ↦ by simp [inHand, hidle] at hhand
  have hlength : (consumed ++ [(command, result)]).length = consumed.length + 1 := by simp
  refine ⟨?_, h.instrument, fun _ ↦ h.clear hbusy, hbounded.trans hlength.ge, engine.gateway, rfl, ?_⟩
  · rw [h.conserved, held, hhand, List.map_append, List.append_assoc, List.append_assoc]
    rfl
  · intro capacity hcapacity
    exact hdirect capacity (hlength.ge.trans hcapacity)

/-- The engine refuses the command in hand, or admits it. -/
theorem Accounts.call (h : lane.Accounts EVENT_QUEUE gateway routed consumed) {command : Command}
    (hworker : lane.worker = .holding command)
    (hrun : lane.advance EVENT_QUEUE = .ok (reply, lane')) :
    lane'.Accounts EVENT_QUEUE gateway routed (consumed ++ (consumedOf reply).toList) ∧
      (∀ taken result, reply = some (taken, result) →
        (∀ expected received, result ≠ .error (.misrouted expected received)) ∧
        (result = .error .eventBackpressured → lane'.events = lane.events ∧ lane'.pending = taken)) := by
  obtain ⟨route, commands, pending, worker, engine, phase, received⟩ := lane
  obtain rfl : worker = .holding command := hworker
  obtain rfl : pending = none := h.clear (by simp)
  obtain ⟨current, hengaged, hdirect⟩ := h.settled
  cases phase with
  | admitted _ _ _ | processed _ _ _ _ _ _ => exact hengaged.elim
  | idle =>
    obtain rfl : engine.gateway = current := hengaged
    have hinstrument : command.instrumentId = route.instrumentId := by
      apply h.instrument
      rw [h.conserved]
      simp [held, inHand]
    unfold Lane.advance at hrun
    simp only [hinstrument, ne_eq, not_true_eq_false, if_false, EventSystem.step, BoundedEventEngine.prepare,
      BoundedEventEngine.admitCommand, BoundedEventEngine.preflight, Run.ok_bind] at hrun
    cases hcheck : Gateway.checkSequence engine.gateway.expectedSequence command.sequence with
    | error error =>
      rw [hcheck] at hrun
      obtain ⟨rfl, rfl⟩ := Prod.mk.inj (Except.ok.inj hrun)
      refine ⟨?_, ?_⟩
      · apply h.consume rfl _ _ (h.bounded.trans (Nat.le_succ _))
        intro capacity hcapacity
        exact (hdirect capacity (by omega)).concat (BoundedEventEngine.processCommand_of_refused hcheck)
      · rintro taken result ⟨⟩
        exact ⟨by simp, by simp⟩
    | ok next =>
      rw [hcheck] at hrun
      by_cases hroom : engine.queue.length < EVENT_QUEUE
      · simp only [BoundedQueue.hasCapacity, decide_eq_true hroom, if_true] at hrun
        obtain ⟨rfl, rfl⟩ := Prod.mk.inj (Except.ok.inj hrun)
        refine ⟨⟨?_, h.instrument, fun _ ↦ rfl, ?_, engine.gateway,
          ⟨rfl, rfl, rfl, rfl, ⟨next, hcheck⟩, hroom⟩, ?_⟩, by simp⟩
        · exact (List.append_nil consumed).symm ▸ h.conserved
        · exact (List.append_nil consumed).symm ▸ h.bounded
        · exact (List.append_nil consumed).symm ▸ hdirect
      · simp only [BoundedQueue.hasCapacity, decide_eq_false hroom, Bool.false_eq_true, if_false] at hrun
        obtain ⟨rfl, rfl⟩ := Prod.mk.inj (Except.ok.inj hrun)
        refine ⟨⟨?_, h.instrument, by simp, ?_, engine.gateway, rfl, ?_⟩, ?_⟩
        · exact (List.append_nil consumed).symm ▸ h.conserved
        · exact (List.append_nil consumed).symm ▸ h.bounded
        · exact (List.append_nil consumed).symm ▸ hdirect
        · rintro taken result ⟨⟩
          exact ⟨by simp, fun _ ↦ ⟨rfl, rfl⟩⟩

/-- The gateway takes the admitted command. -/
theorem Accounts.mutate (h : lane.Accounts EVENT_QUEUE gateway routed consumed) {command : Command}
    (hworker : lane.worker = .serving command) {identity : CommandIdentity} {sequence : SequenceNumber}
    {request : Request} (hphase : lane.events.phase = .admitted identity sequence request)
    (hrun : lane.advance EVENT_QUEUE = .ok (reply, lane')) :
    lane'.Accounts EVENT_QUEUE gateway routed consumed ∧ reply = none := by
  obtain ⟨route, commands, pending, worker, engine, phase, received⟩ := lane
  obtain rfl : worker = .serving command := hworker
  obtain rfl : phase = .admitted identity sequence request := hphase
  obtain ⟨current, ⟨hcurrent, rfl, rfl, rfl, haccepts, hroom⟩, hdirect⟩ := h.settled
  obtain rfl : engine.gateway = current := hcurrent
  unfold Lane.advance at hrun
  simp only [EventSystem.step, BoundedEventEngine.mutate] at hrun
  cases hmutate : engine.gateway.processCommand command (ReportBuffer.new shape.reports) with
  | error fault =>
    rw [hmutate] at hrun
    simp at hrun
  | ok outcome =>
    obtain ⟨result, gateway', buffer⟩ := outcome
    rw [hmutate] at hrun
    obtain ⟨rfl, rfl⟩ := Prod.mk.inj (Except.ok.inj hrun)
    exact ⟨⟨h.conserved, h.instrument, h.clear, h.bounded, engine.gateway,
      ⟨buffer, hmutate, rfl, rfl, rfl, rfl, rfl, haccepts, hroom⟩, hdirect⟩, rfl⟩

/-- The result is published, and the command is consumed. -/
theorem Accounts.publish (h : lane.Accounts EVENT_QUEUE gateway routed consumed) {command : Command}
    (hworker : lane.worker = .serving command) {identity : CommandIdentity} {sequence : SequenceNumber}
    {before after : Option TopLevel × Option TopLevel} {reports : List ExecutionReport}
    {outcome : Except GatewayError GatewayOutcome}
    (hphase : lane.events.phase = .processed identity sequence before after reports outcome)
    (hrun : lane.advance EVENT_QUEUE = .ok (reply, lane')) :
    ∃ result, reply = some (some command, result) ∧ result ≠ .error .eventBackpressured ∧
      (∀ expected received, result ≠ .error (.misrouted expected received)) ∧
      lane'.Accounts EVENT_QUEUE gateway routed (consumed ++ [(command, result)]) := by
  obtain ⟨route, commands, pending, worker, engine, phase, received⟩ := lane
  obtain rfl : worker = .serving command := hworker
  obtain rfl : phase = .processed identity sequence before after reports outcome := hphase
  obtain ⟨current, ⟨buffer, hmutate, rfl, rfl, rfl, hafter, rfl, haccepts, hroom⟩, hdirect⟩ := h.settled
  obtain rfl : after = BoundedEventEngine.tops engine.gateway := hafter
  have hpublish {QUEUE : ℕ} {queue : List (EventBatch BATCH)} (hlt : queue.length < QUEUE) :=
    BoundedEventEngine.publishResult_of_room ⟨engine.gateway, queue⟩ hlt (.fromCommand command)
      command.sequence (BoundedEventEngine.tops current) (BoundedEventEngine.tops engine.gateway)
      buffer.entries outcome
  unfold Lane.advance at hrun
  simp only [EventSystem.step] at hrun
  rw [hpublish hroom] at hrun
  cases hbatch : batchOf BATCH (.fromCommand command) command.sequence (BoundedEventEngine.tops current)
      (BoundedEventEngine.tops engine.gateway) buffer.entries outcome with
  | error fault =>
    rw [hbatch] at hrun
    simp [Except.map] at hrun
  | ok result =>
    have hne : (result.map fun _ ↦ ()) ≠ .error .backpressured := by
      cases result with
      | ok batch => simp [Except.map]
      | error error =>
        rintro ⟨⟩
        exact batchOf_ne_backpressured hbatch
    rw [hbatch] at hrun
    simp only [Except.map, Run.ok_bind, Run.pure_eq_ok] at hrun
    have hserved (capacity : ℕ) (hcapacity : consumed.length + 1 ≤ capacity) :
        BoundedEventEngine.processCommand shape.reports capacity ⟨current, received ++ engine.queue⟩ command =
          .ok (result, BoundedEventEngine.published ⟨engine.gateway, received ++ engine.queue⟩ result) := by
      have hlt : (received ++ engine.queue).length < capacity := lt_of_le_of_lt h.bounded hcapacity
      rw [BoundedEventEngine.processCommand_of_accepts haccepts hlt]
      unfold BoundedEventEngine.applyAdmittedCommand
      simp only [hmutate, Run.ok_bind]
      rw [hpublish hlt, hbatch]
      rfl
    refine ⟨shardResult command (result.map fun _ ↦ ()), ?_⟩
    have hbackpressured : shardResult command (result.map fun _ ↦ ()) ≠ .error .eventBackpressured :=
      mt shardResult_eq_backpressured.mp hne
    have hrouted := shardResult_ne_misrouted command (result.map fun _ ↦ ())
    have hhand : (⟨route, commands, pending, .serving command, ⟨engine, .processed (.fromCommand command)
        command.sequence (BoundedEventEngine.tops current) (BoundedEventEngine.tops engine.gateway)
        buffer.entries outcome, received⟩⟩ : Lane shape BATCH).inHand = some command := rfl
    have hconsumed := h.consume hhand (shardResult command (result.map fun _ ↦ ()))
    cases result with
    | error error =>
      have hsettle := settle_of_ne (⟨route, commands, pending, .serving command, ⟨engine, .idle, received⟩⟩ :
        Lane shape BATCH) command hne
      obtain ⟨rfl, rfl⟩ := Prod.mk.inj ((Except.ok.inj hrun).symm.trans hsettle)
      refine ⟨rfl, hbackpressured, hrouted, hconsumed engine (h.bounded.trans (Nat.le_succ _)) ?_⟩
      intro capacity hcapacity
      exact (hdirect capacity (by omega)).concat (hserved capacity hcapacity)
    | ok batch =>
      have hsettle := settle_of_ne (⟨route, commands, pending, .serving command,
        ⟨{ engine with queue := engine.queue ++ [batch] }, .idle, received⟩⟩ : Lane shape BATCH) command hne
      obtain ⟨rfl, rfl⟩ := Prod.mk.inj ((Except.ok.inj hrun).symm.trans hsettle)
      have happend : received ++ (engine.queue ++ [batch]) = received ++ engine.queue ++ [batch] :=
        (List.append_assoc _ _ _).symm
      refine ⟨rfl, hbackpressured, hrouted, hconsumed { engine with queue := engine.queue ++ [batch] } ?_ ?_⟩
      · show (received ++ (engine.queue ++ [batch])).length ≤ consumed.length + 1
        rw [happend, List.length_append]
        exact Nat.succ_le_succ h.bounded
      · intro capacity hcapacity
        show ProcessedDirectly capacity gateway _ ⟨engine.gateway, received ++ (engine.queue ++ [batch])⟩
        rw [happend]
        exact (hdirect capacity (by omega)).concat (hserved capacity hcapacity)

/-- A step of a call keeps the account: the command it returns for is consumed, unless it is held back. -/
theorem Accounts.advance (h : lane.Accounts EVENT_QUEUE gateway routed consumed)
    (hrun : lane.advance EVENT_QUEUE = .ok (reply, lane')) :
    lane'.Accounts EVENT_QUEUE gateway routed (consumed ++ (consumedOf reply).toList) ∧
      ∀ taken result, reply = some (taken, result) →
        (∀ expected received, result ≠ .error (.misrouted expected received)) ∧
        (result = .error .eventBackpressured → lane'.events = lane.events ∧ lane'.pending = taken) := by
  cases hworker : lane.worker with
  | idle =>
    have hidle : lane.advance EVENT_QUEUE = .ok (none, lane) := by
      unfold Lane.advance
      rw [hworker]
    obtain ⟨rfl, rfl⟩ := Prod.mk.inj (Except.ok.inj (hidle.symm.trans hrun))
    exact ⟨(List.append_nil consumed).symm ▸ h, by simp⟩
  | holding command => exact h.call hworker hrun
  | serving command =>
    cases hphase : lane.events.phase with
    | idle =>
      obtain ⟨current, hengaged, _⟩ := h.settled
      unfold Engaged at hengaged
      rw [hworker, hphase] at hengaged
      exact hengaged.elim
    | admitted identity sequence request =>
      obtain ⟨h', rfl⟩ := h.mutate hworker hphase hrun
      exact ⟨(List.append_nil consumed).symm ▸ h', by simp⟩
    | processed identity sequence before after reports outcome =>
      obtain ⟨result, rfl, hne, hrouted, h'⟩ := h.publish hworker hphase hrun
      refine ⟨?_, ?_⟩
      · rw [consumedOf, if_neg hne]
        exact h'
      · rintro taken result' ⟨⟩
        exact ⟨hrouted, fun heq ↦ absurd heq hne⟩

/-- The router appends a command to the queue. -/
def enqueue (lane : Lane shape BATCH) (command : Command) : Lane shape BATCH :=
  { lane with commands := lane.commands ++ [command] }

/-- A consumer takes the oldest batch off the queue. -/
def receive (lane : Lane shape BATCH) (batch : EventBatch BATCH) (queue : List (EventBatch BATCH)) :
    Lane shape BATCH :=
  { lane with events := { lane.events with
      engine := { lane.events.engine with queue := queue }
      received := lane.events.received ++ [batch] } }

theorem Accounts.enqueue (h : lane.Accounts EVENT_QUEUE gateway routed consumed) {command : Command}
    (hinstrument : command.instrumentId = lane.route.instrumentId) :
    (lane.enqueue command).Accounts EVENT_QUEUE gateway (routed ++ [command]) consumed := by
  refine ⟨?_, ?_, h.clear, h.bounded, h.settled⟩
  · rw [h.conserved, held, List.append_assoc, List.append_assoc]
    rfl
  · intro other hmem
    rcases List.mem_append.mp hmem with hmem | hmem
    · exact h.instrument other hmem
    · rwa [List.mem_singleton.mp hmem]

/-- A consumer that pops a batch makes room, and changes nothing else. -/
theorem Accounts.receive (h : lane.Accounts EVENT_QUEUE gateway routed consumed) {batch : EventBatch BATCH}
    {queue : List (EventBatch BATCH)} (hqueue : lane.events.engine.queue = batch :: queue) :
    (lane.receive batch queue).Accounts EVENT_QUEUE gateway routed consumed := by
  obtain ⟨route, commands, pending, worker, ⟨current, batches⟩, phase, received⟩ := lane
  obtain rfl : batches = batch :: queue := hqueue
  have hpublished : received ++ [batch] ++ queue = received ++ batch :: queue := by
    rw [List.append_assoc, List.singleton_append]
  obtain ⟨settled, hengaged, hdirect⟩ := h.settled
  refine ⟨h.conserved, h.instrument, h.clear, ?_, settled, ?_, ?_⟩
  · show (received ++ [batch] ++ queue).length ≤ consumed.length
    rw [hpublished]
    exact h.bounded
  · have hshorter : queue.length < (batch :: queue).length := Nat.lt_succ_self _
    cases worker with
    | idle | holding command =>
      cases phase with
      | idle => exact hengaged
      | admitted _ _ _ | processed _ _ _ _ _ _ => exact hengaged.elim
    | serving command =>
      cases phase with
      | idle => exact hengaged.elim
      | admitted _ _ _ =>
        obtain ⟨hcurrent, hidentity, hsequence, hrequest, haccepts, hroom⟩ := hengaged
        exact ⟨hcurrent, hidentity, hsequence, hrequest, haccepts, hshorter.trans hroom⟩
      | processed _ _ _ _ _ _ =>
        obtain ⟨buffer, hrun, hidentity, hsequence, hbefore, hafter, hreports, haccepts, hroom⟩ := hengaged
        exact ⟨buffer, hrun, hidentity, hsequence, hbefore, hafter, hreports, haccepts, hshorter.trans hroom⟩
  · intro capacity hcapacity
    show ProcessedDirectly capacity gateway consumed ⟨settled, received ++ [batch] ++ queue⟩
    rw [hpublished]
    exact hdirect capacity hcapacity

theorem Accounts.start (EVENT_QUEUE : ℕ) (route : InstrumentRoute) (gateway : shape.Gateway) :
    (Lane.start ⟨route, ⟨gateway, []⟩, none⟩ : Lane shape BATCH).Accounts EVENT_QUEUE gateway [] [] :=
  ⟨rfl, by simp, fun _ ↦ rfl, le_rfl, gateway, rfl, fun _ _ ↦ ⟨[], rfl, .nil⟩⟩

end Lane

end DeterministicExchange.Router
