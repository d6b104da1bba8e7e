import DeterministicExchange.Engine.Engine

/-!
# Journal, gateway and event stream of an engine

Between two calls the journal, the gateway and the event stream of an engine have
seen the same commands. Inside a call the journal is ahead of the gateway by the
command in flight, and the gateway ahead of the stream by the command processed.
-/

namespace DeterministicExchange

open Machine Codec Events

/-- The errors that leave the engine failed. -/
inductive EngineError.Fatal : EngineError → Prop where
  | persistenceFailed : Fatal .persistenceFailed
  | exhausted (reason : RejectReason) : Fatal (.admission (.gateway (.riskState reason)))

/-- The errors that would tell of a broken invariant. -/
inductive EngineError.Internal : EngineError → Prop where
  | sequenceInvariant : Internal .sequenceInvariant
  | apply (error : EventEngineError) : Internal (.apply error)

namespace EngineSystem

variable {ACCOUNTS RISK_ORDERS LEVELS ORDERS BATCH : ℕ}

/-- The command that is journaled and not applied yet. -/
def inFlight (system : EngineSystem ACCOUNTS RISK_ORDERS LEVELS ORDERS BATCH) : List Command :=
  match system.call, system.events.phase with
  | .applying command, .admitted .. => [command]
  | _, _ => []

/-- The batches that were published, popped or not. -/
def published (system : EngineSystem ACCOUNTS RISK_ORDERS LEVELS ORDERS BATCH) :
    List (EventBatch BATCH) := system.events.received ++ system.events.engine.queue

/-! ## The invariant -/

/-- The phase of the event engine while a command is admitted. -/
def admission (command : Command) : Phase :=
  .admitted (.fromCommand command) command.sequence (.command command)

/-- What the call that is going on relies on. -/
def Engaged (system : EngineSystem ACCOUNTS RISK_ORDERS LEVELS ORDERS BATCH) : Prop :=
  match system.call with
  | .idle => system.events.phase = .idle ∧ (system.failed = true → system.journal.writer = none)
  | .admitting command payload => system.events.phase = .idle ∧ payload = Wire.encodeCommand command ∧
      system.failed = false ∧ system.journal.writer.isSome
  | .enqueueing command payload => system.events.phase = admission command ∧
      payload = Wire.encodeCommand command ∧ system.failed = false ∧ system.journal.writer.isSome
  | .applying command => system.failed = false ∧ system.journal.writer.isSome ∧
      (system.events.phase = admission command ∨
        ∃ transition : Gateway.Transition ACCOUNTS RISK_ORDERS LEVELS ORDERS,
          system.events.phase = Phase.ofTransition transition ∧ transition.command = command)
  | .closing error => system.events.phase = .idle ∧ system.failed = true ∧ error.Fatal

structure Sound (crc32c : Bytes → U32) (REPORTS EVENTS : ℕ)
    (initial : Gateway ACCOUNTS RISK_ORDERS LEVELS ORDERS)
    (system : EngineSystem ACCOUNTS RISK_ORDERS LEVELS ORDERS BATCH)
    (transitions : List (Gateway.Transition ACCOUNTS RISK_ORDERS LEVELS ORDERS)) : Prop where
  events : system.events.Sound REPORTS EVENTS initial transitions
  applied : system.applied = transitions.map Gateway.Transition.command
  history : Gateway.History REPORTS initial system.applied system.events.engine.gateway
  journal : ∃ popped written durable, Journal.Coherent crc32c initial.expectedSequence.val system.accepted
    system.journal popped written durable
  journaled : Recovery.Journaled crc32c system.accepted (system.applied ++ system.inFlight)
  engaged : system.Engaged

/-! ## Calls and what they change -/

/-- What the calls of an engine change for others to see. -/
structure Untouched (before after : EngineSystem ACCOUNTS RISK_ORDERS LEVELS ORDERS BATCH) : Prop where
  gateway : after.events.engine.gateway = before.events.engine.gateway
  published : after.published = before.published
  accepted : after.accepted = before.accepted
  applied : after.applied = before.applied

/-- Nothing that belongs to the engine has changed. -/
structure Unchanged (before after : EngineSystem ACCOUNTS RISK_ORDERS LEVELS ORDERS BATCH) : Prop
    extends Untouched before after where
  writer : after.journal.writer = before.journal.writer
  failed : after.failed = before.failed

/-- The command of a request went through journal, gateway and stream. -/
structure Committed (before after : EngineSystem ACCOUNTS RISK_ORDERS LEVELS ORDERS BATCH)
    (command : Command) : Prop where
  accepted : ∃ record, after.accepted = before.accepted ++ [record]
  applied : after.applied = before.applied ++ [command]
  published : ∃ batch, after.published = before.published ++ [batch]
  failed : after.failed = before.failed
  writer : after.journal.writer.isSome

/-- What a call that began in `before` has done when it returns. -/
def Returned (before : EngineSystem ACCOUNTS RISK_ORDERS LEVELS ORDERS BATCH) (request : Request)
    (result : Except EngineError Unit)
    (after : EngineSystem ACCOUNTS RISK_ORDERS LEVELS ORDERS BATCH) : Prop :=
  match result with
  | .ok () => ∃ command, request.Denotes command ∧ Committed before after command
  | .error error => Untouched before after ∧
      (error.Fatal → after.failed = true ∧ after.journal.writer = none) ∧
      (¬ error.Fatal → Unchanged before after)

/-- How far the call that began in `before` has got. -/
def Progress (before : EngineSystem ACCOUNTS RISK_ORDERS LEVELS ORDERS BATCH) (request : Request)
    (system : EngineSystem ACCOUNTS RISK_ORDERS LEVELS ORDERS BATCH) : Prop :=
  match system.call with
  | .idle => False
  | .admitting command _ | .enqueueing command _ => request.Denotes command ∧ Unchanged before system
  | .applying command => request.Denotes command ∧ system.failed = before.failed ∧
      (∃ record, system.accepted = before.accepted ++ [record]) ∧ system.published = before.published ∧
      match system.events.phase with
      | .admitted .. => system.applied = before.applied
      | _ => system.applied = before.applied ++ [command]
  | .closing _ => Untouched before system

/-- The state after a step of a call, whether it returns or not. -/
def Moved (before : EngineSystem ACCOUNTS RISK_ORDERS LEVELS ORDERS BATCH) (request : Request) :
    Option (Except EngineError Unit) × EngineSystem ACCOUNTS RISK_ORDERS LEVELS ORDERS BATCH → Prop
  | (none, system) => Progress before request system
  | (some result, system) => Returned before request result system

variable {before system system' system'' : EngineSystem ACCOUNTS RISK_ORDERS LEVELS ORDERS BATCH}
  {request : Request}

theorem Unchanged.refl (system : EngineSystem ACCOUNTS RISK_ORDERS LEVELS ORDERS BATCH) :
    Unchanged system system := ⟨⟨rfl, rfl, rfl, rfl⟩, rfl, rfl⟩

theorem Untouched.trans (h : Untouched system system') (h' : Untouched system' system'') :
    Untouched system system'' :=
  ⟨h'.gateway.trans h.gateway, h'.published.trans h.published, h'.accepted.trans h.accepted,
    h'.applied.trans h.applied⟩

theorem Unchanged.trans (h : Unchanged system system') (h' : Unchanged system' system'') :
    Unchanged system system'' :=
  ⟨h.toUntouched.trans h'.toUntouched, h'.writer.trans h.writer, h'.failed.trans h.failed⟩

theorem Returned.of_unchanged (request : Request) {error : EngineError} (h : Unchanged before system)
    (hfatal : ¬ error.Fatal) : Returned before request (.error error) system :=
  ⟨h.toUntouched, fun h' ↦ absurd h' hfatal, fun _ ↦ h⟩

/-! ## Steps of a call -/

section Steps

variable {crc32c : Bytes → U32} {REPORTS EVENTS JOURNAL_BATCH : ℕ}
  {initial : Gateway ACCOUNTS RISK_ORDERS LEVELS ORDERS}
  {transitions : List (Gateway.Transition ACCOUNTS RISK_ORDERS LEVELS ORDERS)}

/-- A step that returns, keeps the invariant, and carries the call going on further. -/
def Advances (crc32c : Bytes → U32) (REPORTS EVENTS : ℕ)
    (initial : Gateway ACCOUNTS RISK_ORDERS LEVELS ORDERS)
    (system : EngineSystem ACCOUNTS RISK_ORDERS LEVELS ORDERS BATCH)
    (run : Run (Option (Except EngineError Unit) ×
      EngineSystem ACCOUNTS RISK_ORDERS LEVELS ORDERS BATCH)) : Prop :=
  ∃ reply system' transitions', run = .ok (reply, system') ∧
    Sound crc32c REPORTS EVENTS initial system' transitions' ∧
    (∀ error, reply = some (.error error) → ¬ error.Internal) ∧
    ∀ before request, Progress before request system → Moved before request (reply, system')

/-- A refusal of the event engine is returned, unless it is the exhaustion of the sequence. -/
theorem admitted_of_refusal {error : EventEngineError} (h : Refusal error) :
    (¬ EngineError.Fatal (.admission error) ∧
      ∀ (system : EngineSystem ACCOUNTS RISK_ORDERS LEVELS ORDERS BATCH)
        (command : Command) (payload : Bytes),
        system.admitted command payload (some (.error error)) =
          (some (.error (.admission error)), { system with call := .idle })) ∨
    ∃ reason, error = .gateway (.riskState reason) := by
  cases h with
  | backpressured => exact .inl ⟨nofun, fun _ _ _ ↦ rfl⟩
  | parse error => exact .inl ⟨nofun, fun _ _ _ ↦ rfl⟩
  | sequence expected received => exact .inl ⟨nofun, fun _ _ _ ↦ rfl⟩
  | exhausted => exact .inr ⟨_, rfl⟩

/-- The event engine admits the command or refuses it. -/
theorem Sound.admitting (h : Sound crc32c REPORTS EVENTS initial system transitions) {command : Command}
    {payload : Bytes} (hcall : system.call = .admitting command payload) :
    Advances crc32c REPORTS EVENTS initial system (system.advance crc32c REPORTS EVENTS) := by
  obtain ⟨⟨engine, phase, received⟩, journal, failed, configuration, call, accepted, applied⟩ := system
  obtain rfl : call = .admitting command payload := hcall
  obtain ⟨hevents, happlied, hhistory, hjournal, hjournaled, hphase, hpayload, hfailed, hwriter⟩ := h
  obtain rfl : phase = .idle := hphase
  obtain rfl : failed = false := hfailed
  rcases hevents.call (.command command) with
    ⟨error, hstep, hrefusal⟩ | ⟨other, hstep, hsound, hdenotes⟩
  · rcases admitted_of_refusal hrefusal with ⟨hfatal, hanswer⟩ | ⟨reason, rfl⟩
    · refine ⟨some (.error (.admission error)), ⟨⟨engine, .idle, received⟩, journal, false, configuration,
        .idle, accepted, applied⟩, transitions, ?_,
          ⟨hevents, happlied, hhistory, hjournal, hjournaled, rfl, by simp⟩,
        ?_, ?_⟩
      · unfold advance
        simp only [hstep, Run.ok_bind]
        exact congrArg Except.ok (hanswer _ command payload)
      · rintro _ ⟨⟩ ⟨⟩
      · rintro before request ⟨_, hsame⟩
        exact .of_unchanged request ⟨⟨hsame.gateway, hsame.published, hsame.accepted, hsame.applied⟩,
          hsame.writer, hsame.failed⟩ hfatal
    · refine ⟨none, ⟨⟨engine, .idle, received⟩, journal, true, configuration,
        .closing (.admission (.gateway (.riskState reason))), accepted, applied⟩,
        transitions, ?_, ⟨hevents, happlied, hhistory, hjournal, hjournaled, rfl, rfl, .exhausted _⟩,
          by simp, ?_⟩
      · unfold advance
        simp only [hstep, Run.ok_bind]
        rfl
      · rintro before request ⟨_, hsame⟩
        exact ⟨hsame.gateway, hsame.published, hsame.accepted, hsame.applied⟩
  · obtain rfl : command = other := hdenotes
    refine ⟨none, ⟨⟨engine, admission command, received⟩, journal, false, configuration,
      .enqueueing command payload, accepted, applied⟩, transitions, ?_,
      ⟨hsound, happlied, hhistory, hjournal, hjournaled, rfl, hpayload, rfl, hwriter⟩, by simp, ?_⟩
    · unfold advance
      simp only [hstep, Run.ok_bind]
      rfl
    · rintro before request ⟨hdenotes, hsame⟩
      exact ⟨hdenotes, ⟨hsame.gateway, hsame.published, hsame.accepted, hsame.applied⟩, hsame.writer,
        hsame.failed⟩

/-- An admitted command continues the sequence of those that were applied. -/
theorem admission_sequence {engine : BoundedEventEngine ACCOUNTS RISK_ORDERS LEVELS ORDERS BATCH}
    {received : List (EventBatch BATCH)} {command : Command}
    (h : EventSystem.Sound REPORTS EVENTS initial ⟨engine, admission command, received⟩ transitions) :
    command.sequence.val = initial.expectedSequence.val + transitions.length := by
  obtain ⟨other, _, hsequence, _, ⟨next, hcheck⟩, _⟩ := h.ready
  have hexpected : engine.gateway.expectedSequence.val =
      initial.expectedSequence.val + transitions.length := h.expected
  rw [hsequence, ← hexpected]
  by_contra hne
  rw [Gateway.checkSequence_of_ne fun heq ↦ hne (congrArg Fin.val heq)] at hcheck
  simp at hcheck

/-- The journal takes the payload or refuses it; a refusal drops the admission. -/
theorem Sound.enqueueing (h : Sound crc32c REPORTS EVENTS initial system transitions) {command : Command}
    {payload : Bytes} (hcall : system.call = .enqueueing command payload) :
    Advances crc32c REPORTS EVENTS initial system (system.advance crc32c REPORTS EVENTS) := by
  obtain ⟨⟨engine, phase, received⟩, journal, failed, configuration, call, accepted, applied⟩ := system
  obtain rfl : call = .enqueueing command payload := hcall
  obtain ⟨hevents, happlied, hhistory, ⟨popped, written, durable, hcoherent⟩, hjournaled,
    hphase, hpayload, hfailed,
    hwriter⟩ := h
  obtain rfl : phase = admission command := hphase
  obtain rfl : failed = false := hfailed
  obtain ⟨writer, hsome⟩ : ∃ writer, journal.writer = some writer := Option.isSome_iff_exists.mp hwriter
  rcases henqueue : writer.enqueue crc32c journal.channel.queue payload with ⟨result, writer', queue⟩
  have hturn : journal.enqueue crc32c payload = some (.enqueued payload result, { journal with
      writer := some writer'
      channel := { journal.channel with queue := queue } }) := by
    simp only [Journal.System.enqueue, hsome, Option.map_some, henqueue]
  obtain ⟨popped', written', durable', hnext, _⟩ := hcoherent.enqueue hturn
  cases result with
  | error error =>
    obtain ⟨hwriter', rfl⟩ := Journal.JournalWriter.enqueue_eq_error henqueue
    rw [hwriter'] at hturn hnext
    have hsame : accepted ++
        ((Journal.Event.enqueued payload (.error error)).record? crc32c).toList =
          accepted := List.append_nil _
    refine ⟨some (.error (.journal error)),
      ⟨⟨engine, .idle, received⟩, { journal with writer := some writer },
      false, configuration, .idle, accepted, applied⟩, transitions, ?_, ⟨hevents.abandon, happlied, hhistory,
        ⟨popped', written', durable', ?_⟩, hjournaled, rfl, by simp⟩, ?_, ?_⟩
    · unfold advance
      simp only [hturn]
      rfl
    · rw [← hsame]
      exact hnext
    · rintro _ ⟨⟩ ⟨⟩
    · rintro before request ⟨_, hkept⟩
      exact .of_unchanged request ⟨⟨hkept.gateway, hkept.published, hkept.accepted, hkept.applied⟩,
        hsome.symm.trans hkept.writer, hkept.failed⟩ (by rintro ⟨⟩)
  | ok sequence =>
    obtain ⟨hsequence, _, _, _, record, hrecord, _⟩ := Journal.JournalWriter.enqueue_eq_ok henqueue
    have hmore : ((Journal.Event.enqueued payload (.ok sequence)).record? crc32c).toList = [record] := by
      simp [Journal.Event.record?, hrecord, Except.toOption]
    have hcommand : command.sequence = sequence := by
      have hnext := hcoherent.log.next writer hsome
      have hlength : accepted.length = transitions.length := by
        have hlength := hjournaled.length_eq
        rw [happlied] at hlength
        simpa [inFlight] using hlength
      apply Fin.ext
      rw [hsequence, admission_sequence hevents, ← hlength]
      exact hnext.symm
    refine ⟨none, ⟨⟨engine, admission command, received⟩, { journal with
        writer := some writer'
        channel := { journal.channel with queue := queue } }, false, configuration, .applying command,
        accepted ++ [record], applied⟩, transitions, ?_,
          ⟨hevents, happlied, hhistory, ⟨popped', written', durable', ?_⟩,
          ?_, rfl, rfl, .inl rfl⟩, by simp, ?_⟩
    · unfold advance
      simp only [hturn, enqueued, hmore]
    · rw [← hmore]
      exact hnext
    · have hjournaled' : Recovery.Journaled crc32c accepted (applied ++ []) := hjournaled
      rw [List.append_nil] at hjournaled'
      rw [← hcommand, hpayload] at hrecord
      exact List.rel_append hjournaled' (.cons hrecord .nil)
    · rintro before request ⟨hdenotes, hkept⟩
      exact ⟨hdenotes, hkept.failed, ⟨record, congrArg (· ++ [record]) hkept.accepted⟩, hkept.published,
        hkept.applied⟩

/-- The command in flight is applied. -/
theorem Sound.applying (hc : Capacities ACCOUNTS RISK_ORDERS LEVELS ORDERS)
    (h : Sound crc32c REPORTS EVENTS initial system transitions) {command : Command}
    (hcall : system.call = .applying command) (hphase : system.events.phase = admission command) :
    Advances crc32c REPORTS EVENTS initial system (system.advance crc32c REPORTS EVENTS) := by
  obtain ⟨⟨engine, phase, received⟩, journal, failed, configuration, call, accepted, applied⟩ := system
  obtain rfl : call = .applying command := hcall
  obtain rfl : phase = admission command := hphase
  obtain ⟨hevents, happlied, hhistory, hjournal, hjournaled, hfailed, hwriter, _⟩ := h
  obtain ⟨transition, hstep, hsound, hdenotes, hprocess⟩ := hevents.mutate hc
  obtain rfl : command = transition.command := hdenotes
  refine ⟨none, ⟨⟨{ engine with gateway := transition.after }, Phase.ofTransition transition, received⟩,
    journal, failed, configuration, .applying transition.command, accepted, applied ++ [transition.command]⟩,
    transitions ++ [transition], ?_, ⟨hsound, ?_, hhistory.append hprocess, hjournal, ?_, hfailed, hwriter,
      .inr ⟨transition, rfl, rfl⟩⟩,
      by simp, ?_⟩
  · unfold advance
    have hstep' : EventSystem.step REPORTS EVENTS
      ⟨engine, admission transition.command, received⟩ .advance = _ :=
      hstep
    simp only [hstep', Run.ok_bind]
    rfl
  · rw [List.map_append]
    exact congrArg (· ++ [transition.command]) happlied
  · have hjournaled' : Recovery.Journaled crc32c accepted (applied ++ [transition.command]) := hjournaled
    show Recovery.Journaled crc32c accepted ((applied ++ [transition.command]) ++ [])
    rwa [List.append_nil]
  · rintro before request ⟨hdenotes, hsame, haccepted, hpublished, happlied⟩
    exact ⟨hdenotes, hsame, haccepted, hpublished, congrArg (· ++ [transition.command]) happlied⟩

/-- The command that was applied is published. -/
theorem Sound.publishing (hordinals : REPORTS + 1 < 2 ^ 16) (hbatch : REPORTS + 2 ≤ BATCH)
    (h : Sound crc32c REPORTS EVENTS initial system transitions) {command : Command}
    (hcall : system.call = .applying command)
    {transition : Gateway.Transition ACCOUNTS RISK_ORDERS LEVELS ORDERS}
    (hphase : system.events.phase = Phase.ofTransition transition) :
    Advances crc32c REPORTS EVENTS initial system (system.advance crc32c REPORTS EVENTS) := by
  obtain ⟨⟨engine, phase, received⟩, journal, failed, configuration, call, accepted, applied⟩ := system
  obtain rfl : call = .applying command := hcall
  obtain rfl : phase = Phase.ofTransition transition := hphase
  obtain ⟨hevents, happlied, hhistory, hjournal, hjournaled, hfailed, hwriter, _⟩ := h
  obtain ⟨batch, hstep, hsound⟩ := hevents.publish hordinals hbatch
  refine ⟨some (.ok ()), ⟨⟨{ engine with queue := engine.queue ++ [batch] }, .idle, received⟩, journal,
    failed, configuration, .idle, accepted, applied⟩, transitions, ?_,
      ⟨hsound, happlied, hhistory, hjournal, hjournaled,
      rfl, ?_⟩, by simp, ?_⟩
  · unfold advance
    have hstep' : EventSystem.step REPORTS EVENTS ⟨engine, Phase.ofTransition transition, received⟩ .advance =
      _ := hstep
    simp only [hstep', Run.ok_bind]
    rfl
  · intro hfailed'
    have hrunning : failed = false := hfailed
    have hstopped : failed = true := hfailed'
    simp [hrunning] at hstopped
  · rintro before request ⟨hdenotes, hsame, haccepted, hpublished, happlied⟩
    have hpublished' : received ++ engine.queue = before.published := hpublished
    refine ⟨command, hdenotes, haccepted, happlied, ⟨batch, ?_⟩, hsame, hwriter⟩
    show received ++ (engine.queue ++ [batch]) = before.published ++ [batch]
    rw [← List.append_assoc, hpublished']

/-- Closing the journal takes the writer and leaves the records. -/
theorem closeJournal_cases (system : EngineSystem ACCOUNTS RISK_ORDERS LEVELS ORDERS BATCH) :
    ∃ journal, system.closeJournal = { system with journal := journal } ∧ journal.writer = none ∧
      journal.channel.status.poisoned = system.journal.channel.status.poisoned ∧
      ∀ {crc32c : Bytes → U32} {first popped written durable : ℕ},
        Journal.Coherent crc32c first system.accepted system.journal popped written durable →
        ∃ popped' written' durable',
          Journal.Coherent crc32c first system.accepted journal popped' written' durable' := by
  unfold closeJournal
  cases hwriter : system.journal.writer with
  | none =>
    have hclose : system.journal.close = none := by simp [Journal.System.close, hwriter]
    rw [hclose]
    exact ⟨system.journal, rfl, hwriter, rfl, fun h ↦ ⟨_, _, _, h⟩⟩
  | some writer =>
    have hclose : system.journal.close = some (.closed, { system.journal with
        writer := none
        channel := { system.journal.channel with
          status := { system.journal.channel.status with producerClosed := true } } }) := by
      simp [Journal.System.close, hwriter]
    rw [hclose]
    refine ⟨_, rfl, rfl, rfl, fun h ↦ ?_⟩
    obtain ⟨popped', written', durable', hnext, _⟩ := h.close hclose
    rw [show system.accepted = system.accepted ++ (Journal.Event.closed.record? _).toList from
      (List.append_nil _).symm]
    exact ⟨popped', written', durable', hnext⟩

/-- A failure closes the journal and is returned. -/
theorem Sound.closing (h : Sound crc32c REPORTS EVENTS initial system transitions) {error : EngineError}
    (hcall : system.call = .closing error) :
    Advances crc32c REPORTS EVENTS initial system (system.advance crc32c REPORTS EVENTS) := by
  obtain ⟨journal', hclose, hwriter, _, hcoherent⟩ := system.closeJournal_cases
  obtain ⟨⟨engine, phase, received⟩, journal, failed, configuration, call, accepted, applied⟩ := system
  obtain rfl : call = .closing error := hcall
  obtain ⟨hevents, happlied, hhistory, ⟨_, _, _, hjournal⟩, hjournaled, hphase, hfailed, hfatal⟩ := h
  refine ⟨some (.error error), ⟨⟨engine, phase, received⟩, journal', failed, configuration, .idle, accepted,
    applied⟩, transitions, ?_, ⟨hevents, happlied, hhistory, hcoherent hjournal, hjournaled,
      hphase, fun _ ↦ hwriter⟩,
    ?_, ?_⟩
  · unfold advance
    simp only [hclose]
  · rintro _ ⟨⟩ hinternal
    cases hfatal <;> cases hinternal
  · rintro before request hsame
    exact ⟨⟨hsame.gateway, hsame.published, hsame.accepted, hsame.applied⟩, fun _ ↦ ⟨hfailed, hwriter⟩,
      fun hsurvivable ↦ absurd hfatal hsurvivable⟩

/-- The next step of a call. -/
theorem Sound.advance (hc : Capacities ACCOUNTS RISK_ORDERS LEVELS ORDERS)
    (hordinals : REPORTS + 1 < 2 ^ 16) (hbatch : REPORTS + 2 ≤ BATCH)
    (h : Sound crc32c REPORTS EVENTS initial system transitions) :
    Advances crc32c REPORTS EVENTS initial system (system.advance crc32c REPORTS EVENTS) := by
  have hengaged := h.engaged
  unfold Engaged at hengaged
  cases hcall : system.call with
  | idle =>
    refine ⟨none, system, transitions, ?_, h, by simp, ?_⟩
    · unfold EngineSystem.advance
      simp only [hcall]
    · intro before request hprogress
      unfold Progress at hprogress
      simp only [hcall] at hprogress
  | admitting command payload => exact h.admitting hcall
  | enqueueing command payload => exact h.enqueueing hcall
  | applying command =>
    simp only [hcall] at hengaged
    obtain ⟨_, _, hphase | ⟨transition, hphase, _⟩⟩ := hengaged
    · exact h.applying hc hcall hphase
    · exact h.publishing hordinals hbatch hcall hphase
  | closing error => exact h.closing hcall

/-! ## Starting a call -/

theorem inFlight_of_idle (hcall : system.call = .idle) : system.inFlight = [] := by
  unfold inFlight
  rw [hcall]

/-- With nothing in flight, the journal continues where the gateway is. -/
theorem Sound.nextSequence (h : Sound crc32c REPORTS EVENTS initial system transitions)
    (hidle : system.inFlight = []) {writer : Journal.JournalWriter}
    (hwriter : writer ∈ system.journal.writer) :
    writer.nextSequence = system.events.engine.gateway.expectedSequence := by
  obtain ⟨_, _, _, hjournal⟩ := h.journal
  have hnext := hjournal.log.next writer hwriter
  have hlength := h.journaled.length_eq
  rw [hidle, List.append_nil, h.applied, List.length_map] at hlength
  apply Fin.ext
  rw [hnext, hlength, h.events.expected]

/-- A call is refused, fails, or goes on to its admission. -/
theorem Sound.begin (h : Sound crc32c REPORTS EVENTS initial system transitions) (hcall : system.call = .idle)
    {command : Command} {payload : Bytes} (hpayload : payload = Wire.encodeCommand command)
    (hdenotes : request.Denotes command) :
    Sound crc32c REPORTS EVENTS initial (system.begin command payload).2 transitions ∧
      (∀ error, (system.begin command payload).1 = some (.error error) → ¬ error.Internal) ∧
      Moved system request (system.begin command payload) := by
  have hnext (writer : Journal.JournalWriter) (hwriter : writer ∈ system.journal.writer) :=
    h.nextSequence (inFlight_of_idle hcall) hwriter
  obtain ⟨⟨engine, phase, received⟩, journal, failed, configuration, call, accepted, applied⟩ := system
  obtain rfl : call = .idle := hcall
  obtain ⟨hevents, happlied, hhistory, hjournal, hjournaled, hphase, hclosed⟩ := h
  obtain rfl : phase = .idle := hphase
  have hrefused {error : EngineError} (hfatal : ¬ error.Fatal) (hexternal : ¬ error.Internal) :
      (Sound crc32c REPORTS EVENTS initial (⟨⟨engine, .idle, received⟩, journal, failed, configuration, .idle,
        accepted, applied⟩ : EngineSystem ACCOUNTS RISK_ORDERS LEVELS ORDERS BATCH) transitions) ∧
      (∀ other, some (.error error : Except EngineError Unit) = some (.error other) → ¬ other.Internal) ∧
      Moved ⟨⟨engine, .idle, received⟩, journal, failed, configuration, .idle, accepted, applied⟩ request
        (some (.error error), ⟨⟨engine, .idle, received⟩, journal, failed, configuration, .idle, accepted,
          applied⟩) := by
    refine ⟨⟨hevents, happlied, hhistory, hjournal, hjournaled, rfl, hclosed⟩, ?_, ?_⟩
    · rintro _ ⟨⟩
      exact hexternal
    · exact .of_unchanged request (.refl _) hfatal
  unfold EngineSystem.begin
  cases failed with
  | true => exact hrefused nofun nofun
  | false =>
  cases hpoisoned : journal.channel.status.poisoned with
  | true =>
    simp only [Bool.false_eq_true, if_false, if_true]
    exact ⟨⟨hevents, happlied, hhistory, hjournal, hjournaled, rfl, rfl, .persistenceFailed⟩, by simp,
      ⟨rfl, rfl, rfl, rfl⟩⟩
  | false =>
  simp only [Bool.false_eq_true, if_false]
  cases hwriter : journal.writer with
  | none => exact hrefused nofun nofun
  | some writer =>
  dsimp only
  split
  · exact hrefused nofun nofun
  · have hsame : ¬ writer.nextSequence ≠ engine.gateway.expectedSequence :=
      not_not.mpr (hnext writer hwriter)
    split
    · next hdiffers => exact absurd hdiffers hsame
    · refine ⟨⟨hevents, happlied, hhistory, hjournal, hjournaled, rfl, hpayload, rfl, ?_⟩, by simp, hdenotes,
        ⟨rfl, rfl, rfl, rfl⟩, rfl, rfl⟩
      show journal.writer.isSome = true
      rw [hwriter]
      rfl

/-! ## Steps of consumer and worker -/

/-- A step of somebody else. -/
structure Aside (system system' : EngineSystem ACCOUNTS RISK_ORDERS LEVELS ORDERS BATCH) : Prop
    extends Unchanged system system' where
  call : system'.call = system.call
  phase : system'.events.phase = system.events.phase
  poisoned : system.journal.channel.status.poisoned = true →
    system'.journal.channel.status.poisoned = true

theorem Aside.inFlight (h : Aside system system') : system'.inFlight = system.inFlight := by
  unfold EngineSystem.inFlight
  rw [h.call, h.phase]

theorem Aside.engaged (h : Aside system system') (hengaged : system.Engaged) : system'.Engaged := by
  unfold Engaged at hengaged ⊢
  rw [h.call, h.phase, h.failed, h.writer]
  exact hengaged

theorem Aside.progress (h : Aside system system') (hprogress : Progress before request system) :
    Progress before request system' := by
  unfold Progress at hprogress ⊢
  rw [h.call]
  cases hcall : system.call with
  | idle => simp only [hcall] at hprogress
  | admitting _ _ | enqueueing _ _ =>
    simp only [hcall] at hprogress
    exact ⟨hprogress.1, hprogress.2.trans h.toUnchanged⟩
  | applying _ =>
    simp only [hcall] at hprogress
    rw [h.failed, h.accepted, h.published, h.phase, h.applied]
    exact hprogress
  | closing _ =>
    simp only [hcall] at hprogress
    exact hprogress.trans h.toUntouched

theorem Sound.pop (h : Sound crc32c REPORTS EVENTS initial system transitions) (JOURNAL_BATCH : ℕ) :
    ∃ system', system.step crc32c REPORTS EVENTS JOURNAL_BATCH .pop = .ok (none, system') ∧
      Sound crc32c REPORTS EVENTS initial system' transitions ∧ Aside system system' := by
  obtain ⟨events, hstep, hsound, hphase, hgateway, hpublished⟩ := h.events.popped
  have haside : Aside system { system with events := events } :=
    ⟨⟨⟨hgateway, hpublished, rfl, rfl⟩, rfl, rfl⟩, rfl, hphase, id⟩
  refine ⟨{ system with events := events }, ?_, ⟨hsound, h.applied, ?_, h.journal, ?_,
    haside.engaged h.engaged⟩,
    haside⟩
  · unfold step
    simp only [hstep, Run.ok_bind]
    rfl
  · show Gateway.History REPORTS initial system.applied events.engine.gateway
    rw [hgateway]
    exact h.history
  · rw [haside.inFlight]
    exact h.journaled

theorem Sound.persist (hworker : 0 < JOURNAL_BATCH)
    (h : Sound crc32c REPORTS EVENTS initial system transitions) (turn : Journal.WorkerTurn) :
    ∃ system', system.step crc32c REPORTS EVENTS JOURNAL_BATCH (.persist turn) = .ok (none, system') ∧
      Sound crc32c REPORTS EVENTS initial system' transitions ∧ Aside system system' := by
  have hstep : system.step crc32c REPORTS EVENTS JOURNAL_BATCH (.persist turn) =
      .ok (none, system.persist crc32c JOURNAL_BATCH turn) := rfl
  rw [hstep]
  unfold EngineSystem.persist
  cases hturn : system.journal.step crc32c JOURNAL_BATCH turn with
  | none => exact ⟨system, rfl, h, .refl _, rfl, rfl, id⟩
  | some outcome =>
    obtain ⟨event, journal⟩ := outcome
    obtain ⟨haccepted, hwriter, _, hpoisoned⟩ := Journal.System.bystands_step turn hturn
    have haside : Aside system { system with journal := journal } :=
      ⟨⟨⟨rfl, rfl, rfl, rfl⟩, hwriter, rfl⟩, rfl, rfl, hpoisoned⟩
    obtain ⟨_, _, _, hjournal⟩ := h.journal
    obtain ⟨popped, written, durable, hnext, _⟩ := hjournal.step hworker hturn
    rw [haccepted, Option.toList_none, List.append_nil] at hnext
    refine ⟨{ system with journal := journal }, rfl,
      ⟨h.events, h.applied, h.history, ⟨popped, written, durable, hnext⟩,
      ?_, haside.engaged h.engaged⟩, haside⟩
    rw [haside.inFlight]
    exact h.journaled

/-! ## Steps of the system -/

theorem Sound.closeJournal (h : Sound crc32c REPORTS EVENTS initial system transitions)
    (hcall : system.call = .idle) :
    Sound crc32c REPORTS EVENTS initial system.closeJournal transitions ∧
      Untouched system system.closeJournal ∧ system.closeJournal.journal.writer = none ∧
      system.closeJournal.call = .idle := by
  obtain ⟨journal, hclose, hwriter, _, hcoherent⟩ := system.closeJournal_cases
  obtain ⟨_, _, _, hjournal⟩ := h.journal
  have hengaged := h.engaged
  unfold Engaged at hengaged
  simp only [hcall] at hengaged
  rw [hclose]
  refine ⟨⟨h.events, h.applied, h.history, hcoherent hjournal, h.journaled, ?_⟩,
    ⟨rfl, rfl, rfl, rfl⟩, hwriter, hcall⟩
  unfold Engaged
  simp only [hcall]
  exact ⟨hengaged.1, fun _ ↦ hwriter⟩

/-- What a request stands for, if its frame is one. -/
theorem resolve_cases (request : Request) :
    (∃ error, resolve request = .ok (.error error)) ∨
      ∃ command, resolve request = .ok (.ok (command, Wire.encodeCommand command)) ∧
        request.Denotes command := by
  cases request with
  | command command => exact .inr ⟨command, rfl, rfl⟩
  | frame bytes =>
    unfold resolve
    rcases Wire.parseMessage_cases bytes with ⟨error, hparse⟩ | ⟨message, command, hparse, hcommand, hbytes⟩
    · refine .inl ⟨error, ?_⟩
      simp only [hparse, Run.ok_bind]
      rfl
    · refine .inr ⟨command, ?_, message, hparse, hcommand⟩
      simp only [hparse, hcommand, Run.ok_bind]
      rw [hbytes]
      rfl

theorem not_progress_of_idle (hcall : system.call = .idle) : ¬ Progress before request system := by
  unfold Progress
  rw [hcall]
  exact id

/-- A request is answered at once, or its call has begun. -/
theorem Sound.requesting (h : Sound crc32c REPORTS EVENTS initial system transitions)
    (hcall : system.call = .idle) (request : Request) :
    ∃ reply system', system.request request = .ok (reply, system') ∧
      Sound crc32c REPORTS EVENTS initial system' transitions ∧
      (∀ error, reply = some (.error error) → ¬ error.Internal) ∧ Moved system request (reply, system') := by
  unfold EngineSystem.request
  simp only [hcall]
  rcases resolve_cases request with ⟨error, hresolve⟩ | ⟨command, hresolve, hdenotes⟩
  · simp only [hresolve, Run.ok_bind, Run.pure_eq_ok]
    refine ⟨some (.error (.parse error)), system, rfl, h, ?_, .of_unchanged request (.refl _) nofun⟩
    rintro _ ⟨⟩ ⟨⟩
  · simp only [hresolve, Run.ok_bind, Run.pure_eq_ok]
    exact ⟨_, _, rfl, h.begin hcall rfl hdenotes⟩

/-- Every step returns, keeps the invariant, and carries the call going on further. -/
theorem Sound.step (hc : Capacities ACCOUNTS RISK_ORDERS LEVELS ORDERS)
    (hordinals : REPORTS + 1 < 2 ^ 16) (hbatch : REPORTS + 2 ≤ BATCH) (hworker : 0 < JOURNAL_BATCH)
    (h : Sound crc32c REPORTS EVENTS initial system transitions) (action : EngineAction) :
    Advances crc32c REPORTS EVENTS initial system
      (system.step crc32c REPORTS EVENTS JOURNAL_BATCH action) := by
  have hskip : Advances crc32c REPORTS EVENTS initial system (.ok (none, system)) :=
    ⟨none, system, transitions, rfl, h, by simp, fun _ _ hprogress ↦ hprogress⟩
  cases action with
  | call request =>
    show Advances crc32c REPORTS EVENTS initial system (system.request request)
    cases hcall : system.call with
    | idle =>
      obtain ⟨reply, system', hrun, hsound, hexternal, _⟩ := h.requesting hcall request
      exact ⟨reply, system', transitions, hrun, hsound, hexternal,
        fun _ _ hprogress ↦ absurd hprogress (not_progress_of_idle hcall)⟩
    | admitting _ _ | enqueueing _ _ | applying _ | closing _ =>
      unfold EngineSystem.request
      simp only [hcall]
      exact hskip
  | stopAdmission =>
    show Advances crc32c REPORTS EVENTS initial system (.ok (none, system.stopAdmission))
    unfold EngineSystem.stopAdmission
    cases hcall : system.call with
    | idle =>
      obtain ⟨hsound, _⟩ := h.closeJournal hcall
      exact ⟨none, _, transitions, rfl, hsound, by simp,
        fun _ _ hprogress ↦ absurd hprogress (not_progress_of_idle hcall)⟩
    | admitting _ _ | enqueueing _ _ | applying _ | closing _ => exact hskip
  | advance => exact h.advance hc hordinals hbatch
  | pop =>
    obtain ⟨system', hstep, hsound, haside⟩ := h.pop JOURNAL_BATCH
    exact ⟨none, system', transitions, hstep, hsound, by simp, fun _ _ ↦ haside.progress⟩
  | persist turn =>
    obtain ⟨system', hstep, hsound, haside⟩ := h.persist hworker turn
    exact ⟨none, system', transitions, hstep, hsound, by simp, fun _ _ ↦ haside.progress⟩

/-! ## Calls as a whole -/

/-- A call that has returned did what it returned, whatever happened around its steps. -/
theorem Sound.returned (hc : Capacities ACCOUNTS RISK_ORDERS LEVELS ORDERS)
    (hordinals : REPORTS + 1 < 2 ^ 16) (hbatch : REPORTS + 2 ≤ BATCH) (hworker : 0 < JOURNAL_BATCH)
    (h : Sound crc32c REPORTS EVENTS initial system transitions)
    (hprogress : Progress before request system) {actions : List EngineAction}
    {replies : List (Option (Except EngineError Unit))} {result : Except EngineError Unit}
    (hquiet : ∀ reply ∈ replies, reply = none)
    (hrun : execute (EngineSystem.step crc32c REPORTS EVENTS JOURNAL_BATCH) system actions =
      .ok (replies ++ [some result], system')) : Returned before request result system' := by
  have hmoved (state : EngineSystem ACCOUNTS RISK_ORDERS LEVELS ORDERS BATCH) (action : EngineAction)
      (reply : Option (Except EngineError Unit)) state'
      (hpending : (∃ transitions, Sound crc32c REPORTS EVENTS initial state transitions) ∧
        Progress before request state)
      (hstep : state.step crc32c REPORTS EVENTS JOURNAL_BATCH action = .ok (reply, state')) :
      (∃ transitions, Sound crc32c REPORTS EVENTS initial state' transitions) ∧
        Moved before request (reply, state') := by
    obtain ⟨⟨transitions, hsound⟩, hgoing⟩ := hpending
    obtain ⟨_, _, transitions', hrun', hsound', _, hmoves⟩ := hsound.step hc hordinals hbatch hworker action
    rw [hstep] at hrun'
    obtain ⟨rfl, rfl⟩ := Prod.mk.inj (Except.ok.inj hrun')
    exact ⟨⟨transitions', hsound'⟩, hmoves before request hgoing⟩
  exact execute_returned (fun state action state' ↦ hmoved state action none state')
    (fun state action reply state' hpending hstep ↦
      (hmoved state action (some reply) state' hpending hstep).2)
    ⟨⟨transitions, h⟩, hprogress⟩ hquiet hrun

theorem Sound.called (hc : Capacities ACCOUNTS RISK_ORDERS LEVELS ORDERS)
    (hordinals : REPORTS + 1 < 2 ^ 16) (hbatch : REPORTS + 2 ≤ BATCH) (hworker : 0 < JOURNAL_BATCH)
    (h : Sound crc32c REPORTS EVENTS initial system transitions) (hcall : system.call = .idle)
    {actions : List EngineAction} {replies : List (Option (Except EngineError Unit))}
    {result : Except EngineError Unit} (hquiet : ∀ reply ∈ replies, reply = none)
    (hrun : execute (EngineSystem.step crc32c REPORTS EVENTS JOURNAL_BATCH) system
      (.call request :: actions) = .ok (replies ++ [some result], system')) :
    Returned system request result system' := by
  obtain ⟨reply, system₁, replies₁, hfirst, hrest, hreplies⟩ := of_execute_cons hrun
  obtain ⟨reply', system₁', hstep, hsound₁, _, hmoved⟩ := h.requesting hcall request
  have hfirst' : system.request request = .ok (reply, system₁) := hfirst
  rw [hfirst'] at hstep
  obtain ⟨rfl, rfl⟩ := Prod.mk.inj (Except.ok.inj hstep)
  cases replies with
  | nil =>
    obtain ⟨rfl, rfl⟩ := List.cons.inj hreplies
    rw [eq_of_execute_nil hrest]
    exact hmoved
  | cons first replies =>
    obtain ⟨rfl, rfl⟩ := List.cons.inj hreplies
    obtain rfl := hquiet first List.mem_cons_self
    exact hsound₁.returned hc hordinals hbatch hworker hmoved
      (fun reply hmem ↦ hquiet reply (List.mem_cons_of_mem _ hmem)) hrest

/-! ## After the end of admission -/

/-- Admission has ended: it was stopped, the engine has failed, or the persistence has. -/
def Shut (system : EngineSystem ACCOUNTS RISK_ORDERS LEVELS ORDERS BATCH) : Prop :=
  system.failed = true ∨ system.journal.writer = none ∨ system.journal.channel.status.poisoned = true

/-- Nothing has been journaled, applied or published since `before`, and nothing will be. -/
def Halted (before system : EngineSystem ACCOUNTS RISK_ORDERS LEVELS ORDERS BATCH) : Prop :=
  Untouched before system ∧
    match system.call with
    | .idle => system.Shut
    | .closing _ => True
    | _ => False

theorem Aside.halted (h : Aside system system') (hhalted : Halted before system) : Halted before system' := by
  refine ⟨hhalted.1.trans h.toUntouched, ?_⟩
  have hcall := hhalted.2
  rw [h.call]
  cases hidle : system.call with
  | idle =>
    simp only [hidle] at hcall
    rcases hcall with hfailed | hwriter | hpoisoned
    · exact .inl (h.failed.trans hfailed)
    · exact .inr (.inl (h.writer.trans hwriter))
    · exact .inr (.inr (h.poisoned hpoisoned))
  | closing _ => trivial
  | admitting _ _ | enqueueing _ _ | applying _ => simp only [hidle] at hcall

/-- A call that begins after the end of admission is refused or fails. -/
theorem begin_of_shut (hshut : system.Shut) (hcall : system.call = .idle) (command : Command)
    (payload : Bytes) :
    Halted system (system.begin command payload).2 ∧ (system.begin command payload).1 ≠ some (.ok ()) := by
  have hrefused (error : EngineError) :
      Halted system (some (.error error : Except EngineError Unit), system).2 ∧
      (some (.error error : Except EngineError Unit), system).1 ≠ some (.ok ()) := by
    refine ⟨⟨⟨rfl, rfl, rfl, rfl⟩, ?_⟩, nofun⟩
    rw [hcall]
    exact hshut
  unfold EngineSystem.begin
  by_cases hfailed : system.failed = true
  · rw [if_pos hfailed]
    exact hrefused _
  rw [if_neg hfailed]
  by_cases hpoisoned : system.journal.channel.status.poisoned = true
  · rw [if_pos hpoisoned]
    exact ⟨⟨⟨rfl, rfl, rfl, rfl⟩, trivial⟩, nofun⟩
  rw [if_neg hpoisoned]
  obtain hwriter := (hshut.resolve_left hfailed).resolve_right hpoisoned
  rw [hwriter]
  exact hrefused _

theorem Sound.halted (h : Sound crc32c REPORTS EVENTS initial system transitions)
    (hworker : 0 < JOURNAL_BATCH) (hhalted : Halted before system) (action : EngineAction) :
    ∃ reply system', system.step crc32c REPORTS EVENTS JOURNAL_BATCH action = .ok (reply, system') ∧
      Halted before system' ∧ reply ≠ some (.ok ()) := by
  obtain ⟨huntouched, hcall⟩ := hhalted
  cases action with
  | pop =>
    obtain ⟨system', hstep, _, haside⟩ := h.pop JOURNAL_BATCH
    exact ⟨none, system', hstep, haside.halted ⟨huntouched, hcall⟩, nofun⟩
  | persist turn =>
    obtain ⟨system', hstep, _, haside⟩ := h.persist hworker turn
    exact ⟨none, system', hstep, haside.halted ⟨huntouched, hcall⟩, nofun⟩
  | call request =>
    show ∃ reply system', system.request request = .ok (reply, system') ∧ _
    unfold EngineSystem.request
    cases hidle : system.call with
    | idle =>
      simp only [hidle] at hcall
      dsimp only
      rcases resolve_cases request with ⟨error, hresolve⟩ | ⟨command, hresolve, _⟩
      · simp only [hresolve, Run.ok_bind, Run.pure_eq_ok]
        refine ⟨_, system, rfl, ⟨huntouched, ?_⟩, nofun⟩
        rw [hidle]
        exact hcall
      · simp only [hresolve, Run.ok_bind, Run.pure_eq_ok]
        obtain ⟨hnext, hreply⟩ := begin_of_shut hcall hidle command (Wire.encodeCommand command)
        exact ⟨_, _, rfl, ⟨huntouched.trans hnext.1, hnext.2⟩, hreply⟩
    | closing _ => exact ⟨none, system, rfl, ⟨huntouched, by rw [hidle]; trivial⟩, nofun⟩
    | admitting _ _ | enqueueing _ _ | applying _ => simp only [hidle] at hcall
  | stopAdmission =>
    show ∃ reply system', (.ok (none, system.stopAdmission) : Run _) = .ok (reply, system') ∧ _
    unfold EngineSystem.stopAdmission
    cases hidle : system.call with
    | idle =>
      obtain ⟨_, hclosed, hwriter, hcall'⟩ := h.closeJournal hidle
      refine ⟨none, _, rfl, ⟨huntouched.trans hclosed, ?_⟩, nofun⟩
      rw [hcall']
      exact .inr (.inl hwriter)
    | closing _ => exact ⟨none, system, rfl, ⟨huntouched, by rw [hidle]; trivial⟩, nofun⟩
    | admitting _ _ | enqueueing _ _ | applying _ => simp only [hidle] at hcall
  | advance =>
    show ∃ reply system', system.advance crc32c REPORTS EVENTS = .ok (reply, system') ∧ _
    unfold EngineSystem.advance
    cases hidle : system.call with
    | idle =>
      simp only [hidle] at hcall
      exact ⟨none, system, rfl, ⟨huntouched, by rw [hidle]; exact hcall⟩, nofun⟩
    | closing error =>
      obtain ⟨journal, hclose, hwriter, _⟩ := system.closeJournal_cases
      refine ⟨some (.error error), { system.closeJournal with call := .idle }, rfl, ⟨?_, ?_⟩, nofun⟩
      · rw [hclose]
        exact ⟨huntouched.gateway, huntouched.published, huntouched.accepted, huntouched.applied⟩
      · rw [hclose]
        exact .inr (.inl hwriter)
    | admitting _ _ | enqueueing _ _ | applying _ => simp only [hidle] at hcall

end Steps

/-! ## Fresh engines -/

/-- The system that a build on fresh storage starts with, and a fresh persistence worker. -/
def Starts (REPORTS JOURNAL_BATCH : ℕ) (builder : EngineBuilder ACCOUNTS RISK_ORDERS LEVELS ORDERS)
    (system : EngineSystem ACCOUNTS RISK_ORDERS LEVELS ORDERS BATCH) : Prop :=
  ∃ parts storage policy, builder.build REPORTS BATCH EngineStorage.new = (.ok parts, storage) ∧
    start JOURNAL_BATCH policy parts storage.journal = .ok system

/-- The queues are fresh, and the journal goes on where the gateway is. -/
theorem Starts.fresh_parts {REPORTS JOURNAL_BATCH : ℕ}
    {builder : EngineBuilder ACCOUNTS RISK_ORDERS LEVELS ORDERS}
    {system : EngineSystem ACCOUNTS RISK_ORDERS LEVELS ORDERS BATCH}
    (h : Starts REPORTS JOURNAL_BATCH builder system) :
    REPORTS + 1 < 2 ^ 16 ∧ REPORTS + 2 ≤ BATCH ∧ ∃ policy journal,
      Journal.System.start JOURNAL_BATCH policy builder.gateway.expectedSequence = .ok journal ∧
      system = ⟨EventSystem.start ⟨builder.gateway, []⟩, journal, false,
        builder.configuration, .idle, [], []⟩ := by
  obtain ⟨parts, storage, policy, hbuild, hstart⟩ := h
  unfold EngineBuilder.build at hbuild
  rw [if_neg (by simp [EngineStorage.new])] at hbuild
  dsimp only [Journal.JournalChannel.split, EngineStorage.new, Journal.JournalChannel.new] at hbuild
  cases hnew : BoundedEventEngine.tryNew REPORTS BATCH builder.gateway with
  | error error =>
    rw [hnew] at hbuild
    simp at hbuild
  | ok events =>
    rw [hnew] at hbuild
    obtain ⟨hordinals, hbatch, rfl⟩ := (BoundedEventEngine.tryNew_eq_ok REPORTS).mp hnew
    obtain ⟨hparts, rfl⟩ := Prod.mk.inj hbuild
    obtain rfl := Except.ok.inj hparts
    unfold start at hstart
    obtain ⟨worker, hworker, hsystem⟩ := except_bind_eq_ok.mp hstart
    refine ⟨hordinals, hbatch, policy, _, ?_, (Except.ok.inj hsystem).symm⟩
    unfold Journal.System.start
    exact except_bind_eq_ok.mpr ⟨worker, hworker, rfl⟩

theorem Starts.sound {REPORTS JOURNAL_BATCH : ℕ} {builder : EngineBuilder ACCOUNTS RISK_ORDERS LEVELS ORDERS}
    {system : EngineSystem ACCOUNTS RISK_ORDERS LEVELS ORDERS BATCH}
    (h : Starts REPORTS JOURNAL_BATCH builder system)
    (hc : Capacities ACCOUNTS RISK_ORDERS LEVELS ORDERS) (hreachable : builder.gateway.Reachable)
    (crc32c : Bytes → U32) (EVENTS : ℕ) :
    REPORTS + 1 < 2 ^ 16 ∧ REPORTS + 2 ≤ BATCH ∧ 0 < JOURNAL_BATCH ∧
      Sound crc32c REPORTS EVENTS builder.gateway system [] ∧ system.call = .idle := by
  obtain ⟨hordinals, hbatch, policy, journal, hjournal, rfl⟩ := h.fresh_parts
  obtain ⟨hpositive, hcoherent⟩ := @Journal.System.start_eq_ok crc32c _ _ _ _ hjournal
  exact ⟨hordinals, hbatch, hpositive, ⟨EventSystem.Sound.start hc hreachable, rfl,
    .nil, ⟨0, 0, 0, hcoherent⟩,
    .nil, rfl, by simp⟩, rfl⟩

end EngineSystem

end DeterministicExchange
