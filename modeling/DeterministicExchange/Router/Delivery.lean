import DeterministicExchange.Router.Lane

/-!
# Delivery of commands to their shards

Router and shards take their steps in any order. Every command that the router
has accepted for a shard is consumed once, in the hand of the shard, held back or
in its queue, in the order in which the commands were accepted; the gateway and
the batches of a shard are those of its consumed commands alone.
-/

namespace DeterministicExchange.Router

open Machine Book Events

variable {SHARDS : ℕ} {shape : Fin SHARDS → ShardShape} {BATCH : ℕ}

/-! ## What the answers tell -/

/-- The command that an answer reports as accepted for shard `i`. -/
def Answer.routedTo (i : Fin SHARDS) : Answer SHARDS BATCH → Option Command
  | .routed (some command) (.ok shard) => if shard.val = i.val then some command else none
  | _ => none

/-- The command that shard `i` has consumed with an answer, and its result. -/
def Answer.consumedBy (i : Fin SHARDS) :
    Answer SHARDS BATCH → Option (Command × Except ShardError ShardStep)
  | .returned j command result => if j = i then Lane.consumedOf (some (command, result)) else none
  | _ => none

def routedTo (i : Fin SHARDS) (answers : List (Answer SHARDS BATCH)) : List Command :=
  answers.filterMap (Answer.routedTo i)

def consumedBy (i : Fin SHARDS) (answers : List (Answer SHARDS BATCH)) :
    List (Command × Except ShardError ShardStep) :=
  answers.filterMap (Answer.consumedBy i)

theorem routedTo_concat (i : Fin SHARDS) (answers : List (Answer SHARDS BATCH))
    (answer : Answer SHARDS BATCH) :
    routedTo i (answers ++ [answer]) = routedTo i answers ++ (answer.routedTo i).toList := by
  unfold routedTo
  rw [List.filterMap_append]
  cases h : answer.routedTo i <;> simp [h]

theorem consumedBy_concat (i : Fin SHARDS) (answers : List (Answer SHARDS BATCH))
    (answer : Answer SHARDS BATCH) :
    consumedBy i (answers ++ [answer]) = consumedBy i answers ++ (answer.consumedBy i).toList := by
  unfold consumedBy
  rw [List.filterMap_append]
  cases h : answer.consumedBy i <;> simp [h]

/-- What has become of the commands that the router has accepted for shard `i`. -/
structure Delivered (i : Fin SHARDS) (gateway : (shape i).Gateway) (answers : List (Answer SHARDS BATCH))
    (lane : Lane (shape i) BATCH) : Prop where
  /-- They are consumed, in hand, held back or queued, in the order in which they were accepted. -/
  conserved : routedTo i answers = (consumedBy i answers).map Prod.fst ++
    lane.inHand.toList ++ lane.pending.toList ++ lane.commands
  /-- Between calls, gateway and batches are what the consumed commands alone have made of the gateway. -/
  direct : lane.worker = .idle → ∀ capacity, (consumedBy i answers).length ≤ capacity →
    ProcessedDirectly capacity gateway (consumedBy i answers)
      ⟨lane.events.engine.gateway, lane.events.received ++ lane.events.engine.queue⟩

/-- The action is a call of the router with a frame or a command. -/
def Action.IsRoute : Action SHARDS → Prop
  | .routeFrame _ | .routeCommand _ => True
  | _ => False

/-- What one step does from a state with accounts: no command is lost or misrouted, and nothing happens
to shards that the step is not about. -/
structure Orderly (system : RoutedSystem SHARDS shape BATCH) (action : Action SHARDS)
    (answer : Answer SHARDS BATCH) (system' : RoutedSystem SHARDS shape BATCH) : Prop where
  /-- What the router refuses has no effect, and the shard of a route is never unknown. -/
  refused : ∀ command error, answer = .routed command (.error error) →
    system' = system ∧ ∀ shard, error ≠ .unknownShard shard
  /-- An accepted command is appended to the queue of its shard. -/
  accepted : ∀ command shard, answer = .routed command (.ok shard) → ∃ taken, ∃ hlt : shard.val < SHARDS,
    command = some taken ∧
      system' = system.setLane ⟨shard.val, hlt⟩ ((system.lanes ⟨shard.val, hlt⟩).enqueue taken)
  /-- A pop takes the oldest batch of one shard, if there is one. -/
  popped : ∀ shard, action = .tryEvent shard → system' = system ∨ ∃ hlt : shard.val < SHARDS, ∃ batch queue,
    (system.lanes ⟨shard.val, hlt⟩).events.engine.queue = batch :: queue ∧
      system' = system.setLane ⟨shard.val, hlt⟩ ((system.lanes ⟨shard.val, hlt⟩).receive batch queue)
  /-- A shard at work leaves the others alone. -/
  others : ∀ i, action = .tryProcessOne i ∨ action = .advance i →
    ∃ lane, lane.route = (system.lanes i).route ∧ system' = system.setLane i lane
  /-- Taking a command touches neither the gateway nor the batches. -/
  taken : ∀ i, action = .tryProcessOne i → (system'.lanes i).events = (system.lanes i).events
  /-- The command held back is taken before any other. -/
  retried : ∀ i command, action = .tryProcessOne i → (system.lanes i).worker = .idle →
    (system.lanes i).pending = some command → answer = .working ∧
      system' = system.setLane i { system.lanes i with worker := .holding command, pending := none }
  /-- No command reaches the wrong shard; backpressure leaves the engine as it is and holds the
  command back. -/
  returned : ∀ i command result, answer = .returned i command result →
    (∀ expected received, result ≠ .error (.misrouted expected received)) ∧
    (result = .error .eventBackpressured →
      (system'.lanes i).events = (system.lanes i).events ∧ (system'.lanes i).pending = command)

/-! ## Steps of the router -/

namespace RoutedSystem

variable {system : RoutedSystem SHARDS shape BATCH}

@[simp] theorem setLane_routes (system : RoutedSystem SHARDS shape BATCH) (i : Fin SHARDS)
    (lane : Lane (shape i) BATCH) : (system.setLane i lane).routes = system.routes := rfl

@[simp] theorem setLane_lane (system : RoutedSystem SHARDS shape BATCH) (i : Fin SHARDS)
    (lane : Lane (shape i) BATCH) : (system.setLane i lane).lanes i = lane := by
  unfold setLane
  exact Function.update_self i lane system.lanes

theorem setLane_of_ne (system : RoutedSystem SHARDS shape BATCH) {i j : Fin SHARDS} (hne : j ≠ i)
    (lane : Lane (shape i) BATCH) : (system.setLane i lane).lanes j = system.lanes j := by
  unfold setLane
  exact Function.update_of_ne hne lane system.lanes

@[simp] theorem setLane_self (system : RoutedSystem SHARDS shape BATCH) (i : Fin SHARDS) :
    system.setLane i (system.lanes i) = system := by
  unfold setLane
  rw [Function.update_eq_self]

/-- A command is refused, with no effect, or appended to the queue of the shard of its instrument. -/
theorem routeCommand_cases {routes : Vector InstrumentRoute SHARDS} (h : system.routes.Sound routes)
    (COMMAND_QUEUE : ℕ) (command : Command) :
    (∃ error, system.routeCommand COMMAND_QUEUE command = .ok (.error error, system) ∧
        ∀ shard, error ≠ .unknownShard shard) ∨
      ∃ shard, ∃ hlt : shard.val < SHARDS, system.routes.instrumentFor shard = some command.instrumentId ∧
        system.routeCommand COMMAND_QUEUE command = .ok (.ok shard, system.setLane ⟨shard.val, hlt⟩
          ((system.lanes ⟨shard.val, hlt⟩).enqueue command)) := by
  obtain ⟨found, hfound, hshard⟩ := h.shardFor command.instrumentId
  unfold routeCommand
  simp only [hfound, Run.ok_bind]
  cases found with
  | none => exact .inl ⟨_, rfl, by simp⟩
  | some shard =>
    obtain ⟨route, hmem, hinstrument, hroute⟩ := (hshard shard).mp rfl
    have hlt : shard.val < SHARDS := hroute ▸ h.shard_lt hmem
    simp only [dif_pos hlt]
    by_cases hroom : (system.lanes ⟨shard.val, hlt⟩).commands.length < COMMAND_QUEUE
    · refine .inr ⟨shard, hlt, h.instrumentFor_eq_some.mpr ⟨route, hmem, hinstrument, hroute⟩, ?_⟩
      rw [BoundedQueue.tryPush_of_lt command hroom]
      rfl
    · refine .inl ⟨.commandBackpressured shard, ?_, by simp⟩
      rw [BoundedQueue.tryPush_of_le command (Nat.not_lt.mp hroom)]
      exact congrArg (fun state ↦ (.ok (.error (.commandBackpressured shard), state) :
        Run (Except RouterError ShardId × RoutedSystem SHARDS shape BATCH)))
        (system.setLane_self ⟨shard.val, hlt⟩)

theorem routeFrame_cases {routes : Vector InstrumentRoute SHARDS} (h : system.routes.Sound routes)
    (COMMAND_QUEUE : ℕ) (frame : Codec.Bytes) :
    (∃ command error, system.routeFrame COMMAND_QUEUE frame = .ok (command, .error error, system) ∧
        ∀ shard, error ≠ .unknownShard shard) ∨
      ∃ command shard, ∃ hlt : shard.val < SHARDS,
        system.routes.instrumentFor shard = some command.instrumentId ∧
        system.routeFrame COMMAND_QUEUE frame = .ok (some command, .ok shard, system.setLane ⟨shard.val, hlt⟩
          ((system.lanes ⟨shard.val, hlt⟩).enqueue command)) := by
  unfold routeFrame
  rcases Wire.parseMessage_cases frame with ⟨error, hparse⟩ | ⟨message, command, hparse, hcommand, _⟩
  · simp only [hparse, Run.ok_bind]
    exact .inl ⟨none, _, rfl, by simp⟩
  · simp only [hparse, hcommand, Run.ok_bind]
    rcases routeCommand_cases h COMMAND_QUEUE command with
      ⟨error, hrun, hknown⟩ | ⟨shard, hlt, hinstrument, hrun⟩
    · rw [hrun]
      exact .inl ⟨some command, error, rfl, hknown⟩
    · rw [hrun]
      exact .inr ⟨command, shard, hlt, hinstrument, rfl⟩

/-- A pop finds nothing, or takes the oldest batch of the shard. -/
theorem tryEvent_cases (system : RoutedSystem SHARDS shape BATCH) (shard : ShardId) :
    (∃ result, system.tryEvent shard = (result, system)) ∨
      ∃ hlt : shard.val < SHARDS, ∃ batch queue,
        (system.lanes ⟨shard.val, hlt⟩).events.engine.queue = batch :: queue ∧
        system.tryEvent shard = (.ok (some batch), system.setLane ⟨shard.val, hlt⟩
          ((system.lanes ⟨shard.val, hlt⟩).receive batch queue)) := by
  unfold tryEvent
  by_cases hlt : shard.val < SHARDS
  · simp only [dif_pos hlt]
    cases hqueue : (system.lanes ⟨shard.val, hlt⟩).events.engine.queue with
    | nil => exact .inl ⟨_, rfl⟩
    | cons batch queue => exact .inr ⟨hlt, batch, queue, hqueue, rfl⟩
  · rw [dif_neg hlt]
    exact .inl ⟨_, rfl⟩

/-! ## Runs -/

/-- The invariant of the system: every shard has its account of the commands routed to it. -/
structure Sound (EVENT_QUEUE : ℕ) (table : RouteTable SHARDS)
    (gateways : (i : Fin SHARDS) → (shape i).Gateway)
    (answers : List (Answer SHARDS BATCH)) (system : RoutedSystem SHARDS shape BATCH) : Prop where
  routes : system.routes = table
  accounts : ∀ i, (system.lanes i).Accounts EVENT_QUEUE (gateways i)
    (routedTo i answers) (consumedBy i answers)
  instruments : ∀ i (shard : ShardId), shard.val = i.val →
    table.instrumentFor shard = some (system.lanes i).route.instrumentId

variable {EVENT_QUEUE COMMAND_QUEUE : ℕ} {table : RouteTable SHARDS} {routes : Vector InstrumentRoute SHARDS}
  {gateways : (i : Fin SHARDS) → (shape i).Gateway} {answers : List (Answer SHARDS BATCH)}
  {answer : Answer SHARDS BATCH} {system' : RoutedSystem SHARDS shape BATCH}

/-- A change of one shard keeps the invariant if it keeps that of the shard, and the answer tells of
no other. -/
theorem Sound.setLane (h : system.Sound EVENT_QUEUE table gateways answers) (i : Fin SHARDS)
    {lane : Lane (shape i) BATCH} (hroute : lane.route = (system.lanes i).route)
    (hlane : lane.Accounts EVENT_QUEUE (gateways i) (routedTo i answers ++ (answer.routedTo i).toList)
      (consumedBy i answers ++ (answer.consumedBy i).toList))
    (hothers : ∀ j, j ≠ i → answer.routedTo j = none ∧ answer.consumedBy j = none) :
    (system.setLane i lane).Sound EVENT_QUEUE table gateways (answers ++ [answer]) := by
  refine ⟨h.routes, ?_, ?_⟩
  · intro j
    rw [routedTo_concat, consumedBy_concat]
    by_cases heq : j = i
    · subst heq
      rw [setLane_lane]
      exact hlane
    · rw [setLane_of_ne system heq, (hothers j heq).1, (hothers j heq).2]
      simpa using h.accounts j
  · intro j shard hshard
    by_cases heq : j = i
    · subst heq
      rw [setLane_lane, hroute]
      exact h.instruments j shard hshard
    · rw [setLane_of_ne system heq]
      exact h.instruments j shard hshard

/-- An answer that tells of no command leaves the account as it is. -/
theorem Sound.quiet (h : system.Sound EVENT_QUEUE table gateways answers)
    (hquiet : ∀ i, answer.routedTo i = none ∧ answer.consumedBy i = none) :
    system.Sound EVENT_QUEUE table gateways (answers ++ [answer]) := by
  refine ⟨h.routes, fun i ↦ ?_, h.instruments⟩
  rw [routedTo_concat, consumedBy_concat, (hquiet i).1, (hquiet i).2]
  simpa using h.accounts i

/-- An accepted command is appended to the account of its shard. -/
theorem Sound.route (h : system.Sound EVENT_QUEUE table gateways answers) {command : Command}
    {shard : ShardId}
    (hlt : shard.val < SHARDS) (hinstrument : system.routes.instrumentFor shard = some command.instrumentId) :
    (system.setLane ⟨shard.val, hlt⟩ ((system.lanes ⟨shard.val, hlt⟩).enqueue command)).Sound EVENT_QUEUE
      table gateways (answers ++ [.routed (some command) (.ok shard)]) := by
  have hown : command.instrumentId = (system.lanes ⟨shard.val, hlt⟩).route.instrumentId := by
    have hroute := h.instruments ⟨shard.val, hlt⟩ shard rfl
    rw [h.routes] at hinstrument
    exact Option.some.inj (hinstrument.symm.trans hroute)
  refine h.setLane ⟨shard.val, hlt⟩ rfl ?_ ?_
  · have haccounts := (h.accounts ⟨shard.val, hlt⟩).enqueue hown
    simpa [Answer.routedTo, Answer.consumedBy] using haccounts
  · intro j hne
    have hne' : shard.val ≠ j.val := fun heq ↦ hne (Fin.ext heq.symm)
    exact ⟨if_neg hne', rfl⟩

/-- A step of a shard keeps its account, and so that of the system. -/
theorem Sound.stepLane (h : system.Sound EVENT_QUEUE table gateways answers) (i : Fin SHARDS)
    (reply : Option (Option Command × Except ShardError ShardStep)) {lane : Lane (shape i) BATCH}
    (hroute : lane.route = (system.lanes i).route)
    (hlane : lane.Accounts EVENT_QUEUE (gateways i) (routedTo i answers)
      (consumedBy i answers ++ (Lane.consumedOf reply).toList)) :
    (system.stepLane i (reply, lane)).2 = system.setLane i lane ∧
      (system.setLane i lane).Sound EVENT_QUEUE table gateways
        (answers ++ [(system.stepLane i (reply, lane)).1]) := by
  cases reply with
  | none =>
    refine ⟨rfl, h.setLane i hroute ?_ fun j _ ↦ ⟨rfl, rfl⟩⟩
    simpa [RoutedSystem.stepLane, Answer.routedTo, Answer.consumedBy, Lane.consumedOf] using hlane
  | some returned =>
    obtain ⟨command, result⟩ := returned
    refine ⟨rfl, h.setLane i hroute ?_ fun j hne ↦ ⟨rfl, if_neg hne.symm⟩⟩
    simpa [RoutedSystem.stepLane, Answer.routedTo, Answer.consumedBy] using hlane

theorem orderly_refused (action : Action SHARDS) (haction : action.IsRoute) (command : Option Command)
    {error : RouterError} (hknown : ∀ shard, error ≠ .unknownShard shard) :
    Orderly system action (.routed command (.error error)) system where
  refused := by
    intro _ _ heq
    obtain ⟨_, rfl⟩ : command = _ ∧ error = _ := by simpa using heq
    exact ⟨rfl, hknown⟩
  accepted _ _ heq := by simp at heq
  popped _ heq := by simp [heq, Action.IsRoute] at haction
  others _ heq := by rcases heq with rfl | rfl <;> exact haction.elim
  taken _ heq := by simp [heq, Action.IsRoute] at haction
  retried _ _ heq := by simp [heq, Action.IsRoute] at haction
  returned _ _ _ heq := by simp at heq

theorem orderly_accepted (action : Action SHARDS) (haction : action.IsRoute) (command : Command)
    {shard : ShardId} (hlt : shard.val < SHARDS) :
    Orderly system action (.routed (some command) (.ok shard))
      (system.setLane ⟨shard.val, hlt⟩ ((system.lanes ⟨shard.val, hlt⟩).enqueue command)) where
  refused _ _ heq := by simp at heq
  accepted := by
    intro _ _ heq
    obtain ⟨rfl, rfl⟩ : some command = _ ∧ shard = _ := by simpa using heq
    exact ⟨command, hlt, rfl, rfl⟩
  popped _ heq := by simp [heq, Action.IsRoute] at haction
  others _ heq := by rcases heq with rfl | rfl <;> exact haction.elim
  taken _ heq := by simp [heq, Action.IsRoute] at haction
  retried _ _ heq := by simp [heq, Action.IsRoute] at haction
  returned _ _ _ heq := by simp at heq

theorem orderly_stepLane (i : Fin SHARDS) {action : Action SHARDS}
    (haction : action = .tryProcessOne i ∨ action = .advance i)
    {reply : Option (Option Command × Except ShardError ShardStep)} {lane : Lane (shape i) BATCH}
    (hroute : lane.route = (system.lanes i).route)
    (htaken : action = .tryProcessOne i → (system.lanes i).take = (reply, lane) ∧
      lane.events = (system.lanes i).events)
    (hreturned : ∀ command result, reply = some (command, result) →
      (∀ expected received, result ≠ .error (.misrouted expected received)) ∧
      (result = .error .eventBackpressured →
        lane.events = (system.lanes i).events ∧ lane.pending = command)) :
    Orderly system action (system.stepLane i (reply, lane)).1 (system.setLane i lane) where
  refused _ _ heq := by cases reply <;> simp [stepLane] at heq
  accepted _ _ heq := by cases reply <;> simp [stepLane] at heq
  popped _ heq := by
    rcases haction with rfl | rfl
    · simp at heq
    · simp at heq
  others j heq := by
    obtain rfl : i = j := by
      rcases haction with rfl | rfl
      · simpa using heq
      · simpa using heq
    exact ⟨lane, hroute, rfl⟩
  taken j heq := by
    subst heq
    obtain rfl : j = i := by simpa using haction
    rw [setLane_lane]
    exact (htaken rfl).2
  retried j command heq hworker hpending := by
    subst heq
    obtain rfl : j = i := by simpa using haction
    have htake := (htaken rfl).1
    unfold Lane.take at htake
    rw [hworker] at htake
    simp only [hpending] at htake
    obtain ⟨rfl, rfl⟩ := Prod.mk.inj htake
    exact ⟨rfl, rfl⟩
  returned j command result heq := by
    cases reply with
    | none => simp [stepLane] at heq
    | some returned =>
      obtain ⟨rfl, rfl, rfl⟩ : i = j ∧ returned.1 = command ∧ returned.2 = result := by
        simpa [stepLane] using heq
      rw [setLane_lane]
      exact hreturned _ _ rfl

theorem orderly_tryEvent (shard : ShardId) :
    Orderly system (.tryEvent shard) (.popped (system.tryEvent shard).1) (system.tryEvent shard).2 where
  refused _ _ heq := by simp at heq
  accepted _ _ heq := by simp at heq
  popped other heq := by
    obtain rfl : shard = other := by simpa using heq
    rcases system.tryEvent_cases shard with ⟨result, hevent⟩ | ⟨hlt, batch, queue, hqueue, hevent⟩
    · rw [hevent]
      exact .inl rfl
    · rw [hevent]
      exact .inr ⟨hlt, batch, queue, hqueue, rfl⟩
  others _ heq := by simp at heq
  taken _ heq := by simp at heq
  retried _ _ heq := by simp at heq
  returned _ _ _ heq := by simp at heq

/-- Every step keeps the account of every shard, and is orderly. -/
theorem Sound.step (htable : table.Sound routes) (h : system.Sound EVENT_QUEUE table gateways answers)
    {action : Action SHARDS} (hrun : system.step COMMAND_QUEUE EVENT_QUEUE action = .ok (answer, system')) :
    system'.Sound EVENT_QUEUE table gateways (answers ++ [answer]) ∧
      Orderly system action answer system' := by
  have htable' : system.routes.Sound routes := h.routes ▸ htable
  cases action with
  | routeFrame frame =>
    rcases routeFrame_cases htable' COMMAND_QUEUE frame with
      ⟨command, error, hroute, hknown⟩ | ⟨command, shard, hlt, hinstrument, hroute⟩
    · simp only [RoutedSystem.step, hroute, Run.ok_bind] at hrun
      obtain ⟨rfl, rfl⟩ := Prod.mk.inj (Except.ok.inj hrun)
      refine ⟨h.quiet fun i ↦ ⟨?_, rfl⟩, orderly_refused (.routeFrame frame) trivial command hknown⟩
      cases command <;> rfl
    · simp only [RoutedSystem.step, hroute, Run.ok_bind] at hrun
      obtain ⟨rfl, rfl⟩ := Prod.mk.inj (Except.ok.inj hrun)
      exact ⟨h.route hlt hinstrument, orderly_accepted (.routeFrame frame) trivial command hlt⟩
  | routeCommand command =>
    rcases routeCommand_cases htable' COMMAND_QUEUE command with
      ⟨error, hroute, hknown⟩ | ⟨shard, hlt, hinstrument, hroute⟩
    · simp only [RoutedSystem.step, hroute, Run.ok_bind] at hrun
      obtain ⟨rfl, rfl⟩ := Prod.mk.inj (Except.ok.inj hrun)
      exact ⟨h.quiet fun i ↦ ⟨rfl, rfl⟩, orderly_refused
        (.routeCommand command) trivial (some command) hknown⟩
    · simp only [RoutedSystem.step, hroute, Run.ok_bind] at hrun
      obtain ⟨rfl, rfl⟩ := Prod.mk.inj (Except.ok.inj hrun)
      exact ⟨h.route hlt hinstrument, orderly_accepted (.routeCommand command) trivial command hlt⟩
  | tryProcessOne i =>
    obtain ⟨⟨reply, lane⟩, htake⟩ : ∃ outcome, (system.lanes i).take = outcome := ⟨_, rfl⟩
    have hstep : system.stepLane i (reply, lane) = (answer, system') := by
      rw [← htake]
      exact Except.ok.inj hrun
    obtain ⟨haccounts, hreply⟩ := (h.accounts i).take htake
    obtain ⟨hroute, hevents⟩ := Lane.take_keeps htake
    have hconsumed : Lane.consumedOf reply = none := by
      rcases hreply with rfl | rfl <;> rfl
    obtain ⟨hsystem, hsound⟩ := h.stepLane i reply hroute (by simpa [hconsumed] using haccounts)
    have hreturned (command : Option Command) (result : Except ShardError ShardStep)
        (hsome : reply = some (command, result)) : result = .ok .idle := by
      rcases hreply with rfl | rfl
      · simp at hsome
      · exact ((Prod.mk.inj (Option.some.inj hsome)).2).symm
    have horderly := orderly_stepLane i (.inl rfl) hroute
      (fun _ ↦ ⟨htake, hevents⟩) fun command result hsome ↦ by
      simp [hreturned command result hsome]
    rw [hstep] at hsystem hsound horderly
    obtain rfl : system' = system.setLane i lane := hsystem
    exact ⟨hsound, horderly⟩
  | advance i =>
    obtain ⟨⟨reply, lane⟩, hadvance, hstep⟩ := Run.bind_eq_ok.mp hrun
    have hstep' : system.stepLane i (reply, lane) = (answer, system') := Except.ok.inj hstep
    obtain ⟨haccounts, hreturned⟩ := (h.accounts i).advance hadvance
    have hroute := (Lane.advance_cases hadvance).1
    obtain ⟨hsystem, hsound⟩ := h.stepLane i reply hroute haccounts
    have horderly := orderly_stepLane i (.inr rfl) hroute (fun heq ↦ by simp at heq) hreturned
    rw [hstep'] at hsystem hsound horderly
    obtain rfl : system' = system.setLane i lane := hsystem
    exact ⟨hsound, horderly⟩
  | tryEvent shard =>
    have hstep : (.popped (system.tryEvent shard).1, (system.tryEvent shard).2) = (answer, system') :=
      Except.ok.inj hrun
    obtain ⟨rfl, rfl⟩ := Prod.mk.inj hstep
    refine ⟨?_, orderly_tryEvent shard⟩
    rcases system.tryEvent_cases shard with ⟨result, hevent⟩ | ⟨hlt, batch, queue, hqueue, hevent⟩
    · rw [hevent]
      exact h.quiet fun i ↦ ⟨rfl, rfl⟩
    · rw [hevent]
      refine h.setLane ⟨shard.val, hlt⟩ rfl ?_ fun j _ ↦ ⟨rfl, rfl⟩
      simpa [Answer.routedTo, Answer.consumedBy] using (h.accounts ⟨shard.val, hlt⟩).receive hqueue

/-! ## No step faults -/

/-- Every engine is sound, so that none of its steps faults. -/
structure Running (EVENT_QUEUE : ℕ) (table : RouteTable SHARDS)
    (gateways : (i : Fin SHARDS) → (shape i).Gateway) (system : RoutedSystem SHARDS shape BATCH) : Prop where
  routes : system.routes = table
  engines : ∀ i, ∃ transitions, (system.lanes i).events.Sound (shape i).reports EVENT_QUEUE
    (gateways i) transitions

theorem Running.setLane (h : system.Running EVENT_QUEUE table gateways) (i : Fin SHARDS)
    {lane : Lane (shape i) BATCH}
    (hengine : ∃ transitions, lane.events.Sound (shape i).reports EVENT_QUEUE (gateways i) transitions) :
    (system.setLane i lane).Running EVENT_QUEUE table gateways := by
  refine ⟨h.routes, fun j ↦ ?_⟩
  by_cases heq : j = i
  · subst heq
    rw [setLane_lane]
    exact hengine
  · rw [setLane_of_ne system heq]
    exact h.engines j

theorem stepLane_snd (system : RoutedSystem SHARDS shape BATCH) (i : Fin SHARDS)
    (outcome : Option (Option Command × Except ShardError ShardStep) × Lane (shape i) BATCH) :
    (system.stepLane i outcome).2 = system.setLane i outcome.2 := by
  obtain ⟨reply, lane⟩ := outcome
  cases reply <;> rfl

theorem Running.step (htable : table.Sound routes)
    (hc : ∀ i, Capacities (shape i).accounts (shape i).riskOrders (shape i).levels (shape i).ordersPerLevel)
    (hordinals : ∀ i, (shape i).reports + 1 < 2 ^ 16) (hbatch : ∀ i, (shape i).reports + 2 ≤ BATCH)
    (h : system.Running EVENT_QUEUE table gateways) (COMMAND_QUEUE : ℕ) (action : Action SHARDS) :
    ∃ answer system', system.step COMMAND_QUEUE EVENT_QUEUE action = .ok (answer, system') ∧
      system'.Running EVENT_QUEUE table gateways := by
  have htable' : system.routes.Sound routes := h.routes ▸ htable
  cases action with
  | routeFrame frame =>
    rcases routeFrame_cases htable' COMMAND_QUEUE frame with
      ⟨command, error, hroute, _⟩ | ⟨command, shard, hlt, _, hroute⟩
    · simp only [RoutedSystem.step, hroute, Run.ok_bind]
      exact ⟨_, _, rfl, h⟩
    · simp only [RoutedSystem.step, hroute, Run.ok_bind]
      exact ⟨_, _, rfl, h.setLane _ (h.engines _)⟩
  | routeCommand command =>
    rcases routeCommand_cases htable' COMMAND_QUEUE command with ⟨error, hroute, _⟩ | ⟨shard, hlt, _, hroute⟩
    · simp only [RoutedSystem.step, hroute, Run.ok_bind]
      exact ⟨_, _, rfl, h⟩
    · simp only [RoutedSystem.step, hroute, Run.ok_bind]
      exact ⟨_, _, rfl, h.setLane _ (h.engines _)⟩
  | tryProcessOne i =>
    obtain ⟨⟨reply, lane⟩, htake⟩ : ∃ outcome, (system.lanes i).take = outcome := ⟨_, rfl⟩
    refine ⟨(system.stepLane i (system.lanes i).take).1, (system.stepLane i (system.lanes i).take).2, rfl, ?_⟩
    rw [stepLane_snd, htake]
    apply h.setLane i
    rw [(Lane.take_keeps htake).2]
    exact h.engines i
  | advance i =>
    obtain ⟨transitions, hsound⟩ := h.engines i
    have hstep (action : Events.Action) := hsound.step (hc i) (hordinals i) (hbatch i) action
    obtain ⟨reply, lane, hadvance⟩ := Lane.advance_returns fun action ↦ by
      obtain ⟨answer, events, _, hrun, _⟩ := hstep action
      exact ⟨answer, events, hrun⟩
    simp only [RoutedSystem.step, hadvance, Run.ok_bind]
    refine ⟨(system.stepLane i (reply, lane)).1, (system.stepLane i (reply, lane)).2, rfl, ?_⟩
    rw [stepLane_snd]
    apply h.setLane i
    rcases (Lane.advance_cases hadvance).2 with hevents | ⟨action, answer, hrun⟩
    · rw [hevents]
      exact ⟨transitions, hsound⟩
    · obtain ⟨answer', events', transitions', hrun', hsound', _⟩ := hstep action
      obtain ⟨_, rfl⟩ := Prod.mk.inj (Except.ok.inj (hrun'.symm.trans hrun))
      exact ⟨transitions', hsound'⟩
  | tryEvent shard =>
    refine ⟨.popped (system.tryEvent shard).1, (system.tryEvent shard).2, rfl, ?_⟩
    rcases system.tryEvent_cases shard with ⟨result, hevent⟩ | ⟨hlt, batch, queue, hqueue, hevent⟩
    · rw [hevent]
      exact h
    · rw [hevent]
      apply h.setLane
      obtain ⟨transitions, hsound⟩ := h.engines ⟨shard.val, hlt⟩
      exact ⟨transitions, hsound.pop hqueue⟩

end RoutedSystem

theorem MatchingShard.tryNew_eq_ok {ACCOUNTS RISK_ORDERS LEVELS ORDERS_PER_LEVEL REPORTS : ℕ}
    {route : InstrumentRoute} {gateway : Gateway ACCOUNTS RISK_ORDERS LEVELS ORDERS_PER_LEVEL}
    {shard : MatchingShard ACCOUNTS RISK_ORDERS LEVELS ORDERS_PER_LEVEL BATCH} :
    tryNew REPORTS BATCH route gateway = .ok shard ↔ route.instrumentId = gateway.book.instrument ∧
      REPORTS + 1 < 2 ^ 16 ∧ REPORTS + 2 ≤ BATCH ∧ shard = ⟨route, ⟨gateway, []⟩, none⟩ := by
  unfold tryNew
  by_cases hinstrument : route.instrumentId = gateway.book.instrument
  · rw [if_neg (not_not.mpr hinstrument)]
    cases hengine : BoundedEventEngine.tryNew REPORTS BATCH gateway with
    | error error =>
      simp only [reduceCtorEq, false_iff]
      rintro ⟨_, hordinals, hbatch, _⟩
      have hok := (BoundedEventEngine.tryNew_eq_ok REPORTS).mpr
        ⟨hordinals, hbatch, (rfl : (⟨gateway, []⟩ : BoundedEventEngine _ _ _ _ BATCH) = _)⟩
      exact absurd (hengine.symm.trans hok) (by simp)
    | ok engine =>
      obtain ⟨hordinals, hbatch, rfl⟩ := (BoundedEventEngine.tryNew_eq_ok REPORTS).mp hengine
      simp only [Except.ok.injEq]
      constructor
      · rintro rfl
        exact ⟨hinstrument, hordinals, hbatch, rfl⟩
      · rintro ⟨_, _, _, rfl⟩
        rfl
  · rw [if_pos hinstrument]
    simp [hinstrument]

/-- The router and its shards deliver every accepted command once and in order, whatever the order of
their steps. In every state they reach, each step is orderly; and over reachable gateways whose index
positions fit a word, no step faults. -/
theorem routing_delivers {routes : Vector InstrumentRoute SHARDS} {table : RouteTable SHARDS}
    (htable : RouteTable.tryNew routes = .ok (.ok table)) {gateways : (i : Fin SHARDS) → (shape i).Gateway}
    {shards : (i : Fin SHARDS) → (shape i).Shard BATCH}
    (hshards : ∀ i, ∃ route, MatchingShard.tryNew (shape i).reports BATCH route (gateways i) =
      .ok (shards i) ∧
      ∀ shard : ShardId, shard.val = i.val → table.instrumentFor shard = some route.instrumentId)
    (COMMAND_QUEUE EVENT_QUEUE : ℕ) (actions : List (Action SHARDS)) :
    (∀ answers system, execute (RoutedSystem.step COMMAND_QUEUE EVENT_QUEUE)
          (RoutedSystem.start table shards) actions = .ok (answers, system) →
        (∀ i, Delivered i (gateways i) answers (system.lanes i)) ∧
        ∀ action answer system', system.step COMMAND_QUEUE EVENT_QUEUE action = .ok (answer, system') →
          Orderly system action answer system') ∧
      ((∀ i, Capacities (shape i).accounts (shape i).riskOrders (shape i).levels (shape i).ordersPerLevel ∧
          (gateways i).Reachable) →
        ∃ answers system, execute (RoutedSystem.step COMMAND_QUEUE EVENT_QUEUE)
          (RoutedSystem.start table shards) actions = .ok (answers, system)) := by
  have hsound := RouteTable.Sound.of_tryNew htable
  have hshard (i : Fin SHARDS) : ∃ route, shards i = ⟨route, ⟨gateways i, []⟩, none⟩ ∧
      (shape i).reports + 1 < 2 ^ 16 ∧ (shape i).reports + 2 ≤ BATCH ∧
      ∀ shard : ShardId, shard.val = i.val → table.instrumentFor shard = some route.instrumentId := by
    obtain ⟨route, hnew, hroute⟩ := hshards i
    obtain ⟨_, hordinals, hbatch, heq⟩ := MatchingShard.tryNew_eq_ok.mp hnew
    exact ⟨route, heq, hordinals, hbatch, hroute⟩
  constructor
  · intro answers system hrun
    have hstart : (RoutedSystem.start table shards).Sound EVENT_QUEUE table gateways [] := by
      refine ⟨rfl, fun i ↦ ?_, fun i shard hval ↦ ?_⟩
      · obtain ⟨route, heq, _⟩ := hshard i
        show (Lane.start (shards i)).Accounts EVENT_QUEUE (gateways i) [] []
        rw [heq]
        exact Lane.Accounts.start EVENT_QUEUE route (gateways i)
      · obtain ⟨route, heq, _, _, hroute⟩ := hshard i
        show table.instrumentFor shard = some (Lane.start (shards i)).route.instrumentId
        rw [heq]
        exact hroute shard hval
    have hreached : system.Sound EVENT_QUEUE table gateways ([] ++ answers) :=
      execute_keeps (fun past state action answer state' h hstep ↦ (h.step hsound hstep).1) hstart hrun
    rw [List.nil_append] at hreached
    refine ⟨fun i ↦ ?_, fun action answer system' hstep ↦ (hreached.step hsound hstep).2⟩
    have haccounts := hreached.accounts i
    refine ⟨?_, ?_⟩
    · rw [haccounts.conserved, Lane.held]
      simp only [List.append_assoc]
    · intro hidle capacity hcapacity
      obtain ⟨current, hengaged, hdirect⟩ := haccounts.settled
      rw [hengaged.of_idle hidle]
      exact hdirect capacity hcapacity
  · intro hreachable
    have hstart : (RoutedSystem.start table shards).Running EVENT_QUEUE table gateways := by
      refine ⟨rfl, fun i ↦ ⟨[], ?_⟩⟩
      obtain ⟨route, heq, _⟩ := hshard i
      show (Lane.start (shards i)).events.Sound (shape i).reports EVENT_QUEUE (gateways i) []
      rw [heq]
      exact EventSystem.Sound.start (hreachable i).1 (hreachable i).2
    obtain ⟨answers, system, hrun, _⟩ := execute_invariant actions
      (fun state h action _ ↦ h.step hsound (fun i ↦ (hreachable i).1) (fun i ↦ (hshard i).choose_spec.2.1)
        (fun i ↦ (hshard i).choose_spec.2.2.1) COMMAND_QUEUE action) hstart
    exact ⟨answers, system, hrun⟩

/-! ## The smallest router -/

def sampleTable : RouteTable 1 := ⟨#v[⟨1, 0⟩], #v[0], true⟩

theorem sampleTable_built : RouteTable.tryNew #v[⟨1, 0⟩] = .ok (.ok sampleTable) := by decide

def sampleShape : Fin 1 → ShardShape := fun _ ↦ ⟨1, 1, 1, 1, 1⟩

def sampleShards : (i : Fin 1) → (sampleShape i).Shard 3 := fun _ ↦ ⟨⟨1, 0⟩, ⟨Gateway.sampleStart, []⟩, none⟩

/-- An order fills the event queue; the replace behind it is held back, and processed after a pop. -/
def sampleActions : List (Action 1) :=
  [.routeCommand Gateway.sampleOrder, .routeFrame (Wire.encodeCommand Gateway.sampleAmend),
    .tryProcessOne 0, .advance 0, .advance 0, .advance 0, .tryProcessOne 0, .advance 0, .tryEvent 0,
    .tryProcessOne 0, .advance 0, .advance 0, .advance 0]

theorem routing_delivers_sample :
    ∃ answers system, execute (RoutedSystem.step 2 1) (RoutedSystem.start sampleTable sampleShards)
        sampleActions = .ok (answers, system) ∧
      (∀ i, Delivered i Gateway.sampleStart answers (system.lanes i)) ∧
      ∀ action answer system', system.step 2 1 action = .ok (answer, system') →
        Orderly system action answer system' := by
  have hshards (i : Fin 1) : ∃ route, MatchingShard.tryNew (sampleShape i).reports 3 route
        Gateway.sampleStart = .ok (sampleShards i) ∧
      ∀ shard : ShardId, shard.val = i.val → sampleTable.instrumentFor shard = some route.instrumentId := by
    refine ⟨⟨1, 0⟩, rfl, fun shard hshard ↦ ?_⟩
    obtain rfl : shard = 0 := Fin.ext (hshard.trans (Nat.lt_one_iff.mp i.isLt))
    rfl
  obtain ⟨hdelivered, hreturns⟩ := routing_delivers sampleTable_built hshards 2 1 sampleActions
  have hc : Capacities 1 1 1 1 := ⟨by decide, by decide, by decide, by decide⟩
  obtain ⟨answers, system, hrun⟩ := hreturns fun _ ↦ ⟨hc, .start (.inl Gateway.sampleStart_started)⟩
  exact ⟨answers, system, hrun, hdelivered answers system hrun⟩

end DeterministicExchange.Router
