import DeterministicExchange.Session.Sequencing

/-!
# Deadlines of a session

The deadline of the machine is tied to the call that armed it: the logon sent
last, the latest renewal of an active session, or the tick that began the
recovery. A timeout fires on the first tick that reaches it and on no other.
A timeout of zero is armed like any other, so that it is due at once.
-/

namespace DeterministicExchange.Session

open Machine

def Input.now : Input → U64
  | .handle _ now | .tick now => now

namespace Step

/-- The virtual time of the call. -/
def now (step : Step) : U64 := step.input.now

def Ticks (step : Step) : Prop := ∃ now, step.input = .tick now

def SendsLogon (step : Step) : Prop := step.Accepts .logonSent

def AcceptsCommand (step : Step) : Prop := ∃ sequence, step.Accepts (.command sequence)

/-- An accepted logon, command or heartbeat. -/
def Renews (step : Step) : Prop :=
  (∃ firstSequence, step.Accepts (.logonAccepted firstSequence)) ∨ step.AcceptsCommand ∨
    step.Accepts .heartbeatReceived

/-- The tick that takes an active session into its recovery. -/
def EntersRecovering (step : Step) : Prop :=
  step.Ticks ∧ step.before.state = .active ∧ step.after.state = .recovering

/-- The tick that fails a session which waits for its logon. -/
def LogonTimeout (step : Step) : Prop :=
  step.Ticks ∧ step.before.state = .logon ∧ step.after.state = .failed

/-- The tick that fails a session in its recovery. -/
def RecoveryTimeout (step : Step) : Prop :=
  step.Ticks ∧ step.before.state = .recovering ∧ step.after.state = .failed

end Step

/-- The last of the steps that satisfies `p`. -/
def Latest (p : Step → Prop) (steps : List Step) (step : Step) : Prop :=
  ∃ earlier later, steps = earlier ++ [step] ++ later ∧ p step ∧ ∀ other ∈ later, ¬ p other

namespace Latest

variable {p : Step → Prop} {steps : List Step} {step other : Step}

theorem of_concat (steps : List Step) (h : p step) : Latest p (steps ++ [step]) step :=
  ⟨steps, [], by simp, h, by simp⟩

theorem concat (h : Latest p steps step) (hother : ¬ p other) : Latest p (steps ++ [other]) step := by
  obtain ⟨earlier, later, rfl, hstep, hlater⟩ := h
  refine ⟨earlier, later ++ [other], by simp, hstep, fun another hmem ↦ ?_⟩
  obtain hmem | hmem := List.mem_append.mp hmem
  · exact hlater another hmem
  · rwa [List.mem_singleton.mp hmem]

/-- The last step that satisfies `p` is unique. -/
theorem unique (h : Latest p steps step) (h' : Latest p steps other) : step = other := by
  obtain ⟨earlier, later, rfl, hstep, hlater⟩ := h
  obtain ⟨earlier', later', heq, hother, hlater'⟩ := h'
  rw [List.append_assoc, List.append_assoc] at heq
  obtain ⟨middle, rfl, hmiddle⟩ | ⟨middle, rfl, hmiddle⟩ := List.append_eq_append_iff.mp heq
  · cases middle with
    | nil => simpa using List.head_eq_of_cons_eq hmiddle
    | cons first middle =>
      obtain ⟨rfl, rfl⟩ := List.cons.inj hmiddle
      exact absurd hother (hlater other (by simp))
  · cases middle with
    | nil => simpa using (List.head_eq_of_cons_eq hmiddle).symm
    | cons first middle =>
      obtain ⟨rfl, rfl⟩ := List.cons.inj hmiddle
      exact absurd hstep (hlater' step (by simp))

end Latest

/-! ## The call that armed the deadline -/

/-- The deadline of the machine, by the history that led to it. -/
structure Armed (config : SessionConfig) (steps : List Step) (machine : SessionStateMachine) : Prop where
  config_eq : machine.config = config
  logon : machine.state = .logon → ∃ sent deadline, Latest Step.SendsLogon steps sent ∧
    machine.deadline = some deadline ∧ deadline.val = sent.now.val + config.logonTimeoutTicks.val
  active : machine.state = .active → ∃ renewal deadline, Latest Step.Renews steps renewal ∧
    machine.deadline = some deadline ∧ deadline.val = renewal.now.val + config.heartbeatTimeoutTicks.val
  recovering : machine.state = .recovering → ∃ entry deadline,
    Latest (fun step ↦ step.EntersRecovering ∨ step.AcceptsCommand) steps entry ∧ entry.EntersRecovering ∧
      machine.deadline = some deadline ∧ deadline.val = entry.now.val + config.heartbeatTimeoutTicks.val
  unarmed : machine.state ≠ .logon → machine.allowsCommands = false → machine.deadline = none

namespace Armed

variable {config : SessionConfig} {steps : List Step} {machine machine' : SessionStateMachine}

theorem new (config : SessionConfig) : Armed config [] (.new config) where
  config_eq := rfl
  logon h := by simp [SessionStateMachine.new] at h
  active h := by simp [SessionStateMachine.new] at h
  recovering h := by simp [SessionStateMachine.new] at h
  unarmed _ _ := rfl

/-- A machine in a state without a deadline. -/
theorem of_unarmed (hconfig : machine.config = config) (hlogon : machine.state ≠ .logon)
    (hallows : machine.allowsCommands = false) (hdeadline : machine.deadline = none) :
    Armed config steps machine where
  config_eq := hconfig
  logon h := absurd h hlogon
  active h := by simp [SessionStateMachine.allowsCommands, h] at hallows
  recovering h := by simp [SessionStateMachine.allowsCommands, h] at hallows
  unarmed _ _ := hdeadline

/-- A call that changes nothing and accepts no event. -/
theorem of_unchanged (h : Armed config steps machine) {step : Step} (hbefore : step.before = machine)
    (hafter : step.after = machine) (haccepts : ∀ event, ¬ step.Accepts event) :
    Armed config (steps ++ [step]) machine := by
  have henters : ¬ step.EntersRecovering := by
    rintro ⟨_, hactive, hrecovering⟩
    rw [hbefore] at hactive
    rw [hafter, hactive] at hrecovering
    cases hrecovering
  have hcommand : ¬ step.AcceptsCommand := fun ⟨sequence, haccepted⟩ ↦ haccepts _ haccepted
  have hrenews : ¬ step.Renews := by
    rintro (⟨_, haccepted⟩ | haccepted | haccepted)
    · exact haccepts _ haccepted
    · exact hcommand haccepted
    · exact haccepts _ haccepted
  refine ⟨h.config_eq, fun hstate ↦ ?_, fun hstate ↦ ?_, fun hstate ↦ ?_, h.unarmed⟩
  · obtain ⟨sent, deadline, hlatest, hrest⟩ := h.logon hstate
    exact ⟨sent, deadline, hlatest.concat (haccepts _), hrest⟩
  · obtain ⟨renewal, deadline, hlatest, hrest⟩ := h.active hstate
    exact ⟨renewal, deadline, hlatest.concat hrenews, hrest⟩
  · obtain ⟨entry, deadline, hlatest, hrest⟩ := h.recovering hstate
    exact ⟨entry, deadline, hlatest.concat (not_or.mpr ⟨henters, hcommand⟩), hrest⟩

/-- A renewal leaves an active machine whose deadline counts from now. -/
theorem of_renewal {step : Step} (hrenews : step.Renews) (hconfig : machine.config = config)
    (hstate : machine.state = .active) {deadline : U64} (hdeadline : machine.deadline = some deadline)
    (hval : deadline.val = step.now.val + config.heartbeatTimeoutTicks.val) :
    Armed config (steps ++ [step]) machine where
  config_eq := hconfig
  logon h := by simp [hstate] at h
  active _ := ⟨step, deadline, .of_concat steps hrenews, hdeadline, hval⟩
  recovering h := by simp [hstate] at h
  unarmed _ h := by simp [SessionStateMachine.allowsCommands, hstate] at h

/-- What a call that succeeds arms. -/
theorem moves (h : Armed config steps machine) {input : Input} {transition : Transition}
    (hmoves : Moves machine input machine') :
    Armed config (steps ++ [⟨machine, input, .ok transition, machine'⟩]) machine' := by
  have hconfig := h.config_eq
  cases hmoves with
  | connect | logout | disconnect | fail | logonTimeout | heartbeatTimeout =>
    exact of_unarmed hconfig (by simp) rfl rfl
  | logonSent now deadline _ hdeadline =>
    rw [hconfig] at hdeadline
    refine ⟨hconfig, fun _ ↦ ?_, by simp, by simp, by simp⟩
    exact ⟨_, deadline, .of_concat steps ⟨now, transition, rfl, rfl⟩, rfl, hdeadline.symm⟩
  | logonAccepted firstSequence now deadline _ _ hdeadline =>
    rw [hconfig] at hdeadline
    exact of_renewal (.inl ⟨firstSequence, now, transition, rfl, rfl⟩) hconfig rfl rfl hdeadline.symm
  | command now deadline next _ _ hdeadline =>
    rw [hconfig] at hdeadline
    exact of_renewal (.inr (.inl ⟨_, now, transition, rfl, rfl⟩)) hconfig rfl rfl hdeadline.symm
  | heartbeat now deadline hstate hdeadline =>
    rw [hconfig] at hdeadline
    exact of_renewal (.inr (.inr ⟨now, transition, rfl, rfl⟩)) hconfig hstate rfl hdeadline.symm
  | waited now =>
    refine h.of_unchanged rfl rfl ?_
    rintro event ⟨_, _, hinput, _⟩
    cases hinput
  | recovering now deadline _ _ hstate hdeadline =>
    rw [hconfig] at hdeadline
    have henters (after : SessionStateMachine) (hafter : after.state = .recovering) :
        Step.EntersRecovering ⟨machine, .tick now, .ok transition, after⟩ := ⟨⟨now, rfl⟩, hstate, hafter⟩
    refine ⟨hconfig, by simp, by simp, fun _ ↦ ?_, by simp [SessionStateMachine.allowsCommands]⟩
    exact ⟨_, deadline, .of_concat steps (.inl (henters _ rfl)), henters _ rfl, rfl, hdeadline.symm⟩

end Armed

theorem Trace.armed {config : SessionConfig} {steps : List Step} {machine : SessionStateMachine}
    (h : Trace config steps machine) : Armed config steps machine := by
  induction h with
  | nil => exact .new config
  | @snoc steps machine machine' input result h hrun ih =>
    obtain ⟨error, herror, hafter⟩ | ⟨transition, hresult, hmoves⟩ := (h.snoc hrun).answers
    · obtain rfl : machine' = machine := hafter
      refine ih.of_unchanged rfl rfl ?_
      rintro event ⟨_, transition, _, hresult⟩
      exact absurd (herror.symm.trans hresult) (by simp)
    · obtain rfl : result = .ok transition := hresult
      exact ih.moves hmoves

/-! ## One tick -/

namespace SessionStateMachine

variable {machine machine' : SessionStateMachine} {now : U64}

theorem due_iff {deadline : U64} (h : machine.deadline = some deadline) :
    machine.Due now ↔ deadline.val ≤ now.val := by
  constructor
  · rintro ⟨_, hsome, hle⟩
    rw [h, Option.some.injEq] at hsome
    exact hsome ▸ hle
  · exact fun hle ↦ ⟨deadline, h, hle⟩

/-- A tick is refused exactly when the recovery would get a deadline beyond the last tick. -/
theorem tick_eq_error {error : SessionError} (h : machine.tick now = .ok (.error error, machine')) :
    error = .arithmeticOverflow ∧ machine.state = .active ∧ machine.Due now ∧
      2 ^ 64 ≤ now.val + machine.config.heartbeatTimeoutTicks.val := by
  unfold tick at h
  split at h
  · simp at h
  next deadline hdeadline =>
  split at h
  · simp at h
  next hreached =>
  split at h
  · simp [enter] at h
  · next hstate =>
    split at h
    · next hoverflow =>
      obtain ⟨rfl, _⟩ : SessionError.arithmeticOverflow = error ∧ machine = machine' := by simpa using h
      exact ⟨rfl, hstate, ⟨deadline, hdeadline, not_lt.mp hreached⟩, Unsigned.checkedAdd_eq_none.mp hoverflow⟩
    · obtain ⟨_, _, h⟩ := Run.bind_eq_ok.mp h
      simp at h
  · obtain ⟨_, _, h⟩ := Run.bind_eq_ok.mp h
    simp [enter] at h
  · simp at h

/-- What a tick does to a machine in each of its timed states. -/
structure Ticked (machine : SessionStateMachine) (now : U64) (result : Except SessionError Transition)
    (machine' : SessionStateMachine) : Prop where
  logon : machine.state = .logon → (machine'.state = .failed ↔ machine.Due now)
  active : machine.state = .active → (machine'.state = .recovering ↔
    machine.Due now ∧ now.val + machine.config.heartbeatTimeoutTicks.val < 2 ^ 64)
  refused : machine.state = .active → machine.Due now →
    2 ^ 64 ≤ now.val + machine.config.heartbeatTimeoutTicks.val → result = .error .arithmeticOverflow
  recovering : machine.state = .recovering → (machine'.state = .failed ↔ machine.Due now)
  moved : machine' = machine ∨ machine.state = .logon ∧ machine'.state = .failed ∨
    machine.state = .active ∧ machine'.state = .recovering ∨
      machine.state = .recovering ∧ machine'.state = .failed
  error : ∀ error, result = .error error → machine' = machine

theorem ticked_of_error {error : SessionError} (h : machine.tick now = .ok (.error error, machine'))
    (hsame : machine' = machine) : machine.Ticked now (.error error) machine' := by
  obtain ⟨rfl, hactive, hdue, hoverflow⟩ := tick_eq_error h
  subst hsame
  refine ⟨by simp [hactive], fun _ ↦ ?_, fun _ _ _ ↦ rfl, by simp [hactive], .inl rfl, fun _ _ ↦ rfl⟩
  simp only [hactive, reduceCtorEq, false_iff, not_and, not_lt]
  exact fun _ ↦ hoverflow

theorem ticked_of_moves {transition : Transition} (h : Moves machine (.tick now) machine') :
    machine.Ticked now (.ok transition) machine' := by
  cases h with
  | waited _ hidle =>
    refine ⟨fun hstate ↦ ?_, fun hstate ↦ ?_, fun hstate hdue ↦ ?_, fun hstate ↦ ?_, .inl rfl, by simp⟩
    · simp only [hstate, reduceCtorEq, false_iff]
      exact fun hdue ↦ (hidle hdue).1 hstate
    · simp only [hstate, reduceCtorEq, false_iff]
      exact fun hdue ↦ absurd (hidle hdue.1).2 (by simp [allowsCommands, hstate])
    · exact absurd (hidle hdue).2 (by simp [allowsCommands, hstate])
    · simp only [hstate, reduceCtorEq, false_iff]
      exact fun hdue ↦ absurd (hidle hdue).2 (by simp [allowsCommands, hstate])
  | logonTimeout _ hdue hstate =>
    exact ⟨by simp [hdue], by simp [hstate], by simp [hstate], by simp [hstate], .inr (.inl ⟨hstate, rfl⟩),
      by simp⟩
  | recovering _ deadline _ hdue hstate hdeadline =>
    have hsmall := hdeadline.trans_lt deadline.isLt
    refine ⟨by simp [hstate], fun _ ↦ iff_of_true rfl ⟨hdue, hsmall⟩,
      fun _ _ hoverflow ↦ ?_, by simp [hstate],
      .inr (.inr (.inl ⟨hstate, rfl⟩)), by simp⟩
    exact absurd hsmall (not_lt.mpr hoverflow)
  | heartbeatTimeout _ hdue hstate =>
    exact ⟨by simp [hstate], by simp [hstate], by simp [hstate], by simp [hdue],
      .inr (.inr (.inr ⟨hstate, rfl⟩)), by simp⟩

/-- Every tick of a machine with counted timeouts returns, and does so. -/
theorem tick_ticked (hcounted : machine.Counted) (now : U64) :
    ∃ result machine', machine.tick now = .ok (result, machine') ∧ machine.Ticked now result machine' := by
  obtain ⟨⟨result, machine'⟩, htick, hanswers⟩ := tick_answers hcounted now
  refine ⟨result, machine', htick, ?_⟩
  cases result with
  | error error => exact ticked_of_error htick hanswers
  | ok transition => exact ticked_of_moves hanswers.2

end SessionStateMachine

/-! ## Ticks of a history -/

/-- The time at which the machine that waits for its logon fails, by its history, is not after `now`. -/
def LogonDue (config : SessionConfig) (steps : List Step) (now : U64) : Prop :=
  ∃ sent, Latest Step.SendsLogon steps sent ∧ sent.now.val + config.logonTimeoutTicks.val ≤ now.val

/-- The time at which an active machine has to recover, by its history, is not after `now`. -/
def HeartbeatDue (config : SessionConfig) (steps : List Step) (now : U64) : Prop :=
  ∃ renewal, Latest Step.Renews steps renewal ∧
    renewal.now.val + config.heartbeatTimeoutTicks.val ≤ now.val

/-- The time at which a recovering machine fails, by its history, is not after `now`. -/
def RecoveryDue (config : SessionConfig) (steps : List Step) (now : U64) : Prop :=
  ∃ entry, Latest (fun step ↦ step.EntersRecovering ∨ step.AcceptsCommand) steps entry ∧
    entry.EntersRecovering ∧ entry.now.val + config.heartbeatTimeoutTicks.val ≤ now.val

namespace Armed

variable {config : SessionConfig} {steps : List Step} {machine : SessionStateMachine}

theorem logon_due_iff (h : Armed config steps machine) (hstate : machine.state = .logon) :
    ∃ sent, Latest Step.SendsLogon steps sent ∧
      ∀ now, machine.Due now ↔ sent.now.val + config.logonTimeoutTicks.val ≤ now.val := by
  obtain ⟨sent, deadline, hlatest, hdeadline, hval⟩ := h.logon hstate
  exact ⟨sent, hlatest, fun now ↦ hval ▸ SessionStateMachine.due_iff hdeadline⟩

theorem active_due_iff (h : Armed config steps machine) (hstate : machine.state = .active) :
    ∃ renewal, Latest Step.Renews steps renewal ∧
      ∀ now, machine.Due now ↔ renewal.now.val + config.heartbeatTimeoutTicks.val ≤ now.val := by
  obtain ⟨renewal, deadline, hlatest, hdeadline, hval⟩ := h.active hstate
  exact ⟨renewal, hlatest, fun now ↦ hval ▸ SessionStateMachine.due_iff hdeadline⟩

theorem recovering_due_iff (h : Armed config steps machine) (hstate : machine.state = .recovering) :
    ∃ entry, Latest (fun step ↦ step.EntersRecovering ∨ step.AcceptsCommand) steps entry ∧
      entry.EntersRecovering ∧
        ∀ now, machine.Due now ↔ entry.now.val + config.heartbeatTimeoutTicks.val ≤ now.val := by
  obtain ⟨entry, deadline, hlatest, henters, hdeadline, hval⟩ := h.recovering hstate
  exact ⟨entry, hlatest, henters, fun now ↦ hval ▸ SessionStateMachine.due_iff hdeadline⟩

end Armed

namespace Trace

variable {config : SessionConfig} {steps : List Step} {step : Step} {machine : SessionStateMachine}

/-- The machine that a history leads to. -/
theorem unique {machine' : SessionStateMachine} (h : Trace config steps machine)
    (h' : Trace config steps machine') : machine = machine' := by
  obtain rfl | ⟨earlier, step, rfl⟩ := steps.eq_nil_or_concat'
  · have heq (other : SessionStateMachine) (hother : Trace config [] other) : other = .new config := by
      generalize hlist : ([] : List Step) = list at hother
      cases hother with
      | nil => rfl
      | snoc => simp at hlist
    rw [heq machine h, heq machine' h']
  · rw [h.of_concat.2.2, h'.of_concat.2.2]

/-- The law of one tick, for a tick in a history. -/
theorem ticked (h : Trace config (steps ++ [step]) machine) {now : U64} (hinput : step.input = .tick now) :
    step.before.Ticked now step.result step.after := by
  obtain ⟨hbefore, hrun, _⟩ := h.of_concat
  obtain ⟨result, after, htick, hticked⟩ := SessionStateMachine.tick_ticked hbefore.counted now
  rw [hinput] at hrun
  obtain ⟨rfl, rfl⟩ := Prod.mk.inj (Except.ok.inj (hrun.symm.trans htick))
  exact hticked

/-- A tick that fails the session is due. -/
theorem due_of_failed (h : Trace config (steps ++ [step]) machine) (hticks : step.Ticks)
    (hbefore : step.before.state ≠ .failed) (hafter : step.after.state = .failed) :
    step.LogonTimeout ∧ LogonDue config steps step.now ∨
      step.RecoveryTimeout ∧ RecoveryDue config steps step.now := by
  have harmed := h.of_concat.1.armed
  obtain ⟨now, hinput⟩ := hticks
  have hnow : step.now = now := congrArg Input.now hinput
  have hticked := h.ticked hinput
  rw [hnow]
  obtain hsame | ⟨hlogon, _⟩ | ⟨_, hrecovering⟩ | ⟨hrecovering, _⟩ := hticked.moved
  · exact absurd (hsame ▸ hafter) hbefore
  · obtain ⟨sent, hlatest, hdue⟩ := harmed.logon_due_iff hlogon
    exact .inl ⟨⟨⟨now, hinput⟩, hlogon, hafter⟩, sent, hlatest,
      (hdue now).mp ((hticked.logon hlogon).mp hafter)⟩
  · simp [hrecovering] at hafter
  · obtain ⟨entry, hlatest, henters, hdue⟩ := harmed.recovering_due_iff hrecovering
    exact .inr ⟨⟨⟨now, hinput⟩, hrecovering, hafter⟩, entry, hlatest, henters,
      (hdue now).mp ((hticked.recovering hrecovering).mp hafter)⟩

/-- A tick that makes an active session recover is due. -/
theorem due_of_recovering (h : Trace config (steps ++ [step]) machine) (hticks : step.Ticks)
    (hbefore : step.before.state = .active) (hafter : step.after.state = .recovering) :
    HeartbeatDue config steps step.now := by
  have harmed := h.of_concat.1.armed
  obtain ⟨now, hinput⟩ := hticks
  have hnow : step.now = now := congrArg Input.now hinput
  have hticked := h.ticked hinput
  rw [hnow]
  obtain ⟨renewal, hlatest, hdue⟩ := harmed.active_due_iff hbefore
  have hmoved := (hticked.active hbefore).mp hafter
  exact ⟨renewal, hlatest, (hdue now).mp hmoved.1⟩

/-- Ticks fail a session only by one of them that is due. -/
theorem due_of_ticks {later : List Step} (h : Trace config (steps ++ later) machine)
    (hticks : ∀ step ∈ later, step.Ticks) {before : SessionStateMachine} (hbefore : Trace config steps before)
    (hstate : before.state ≠ .failed) (hfailed : machine.state = .failed) :
    ∃ earlier step rest, later = earlier ++ [step] ++ rest ∧
      (step.LogonTimeout ∧ LogonDue config (steps ++ earlier) step.now ∨
        step.RecoveryTimeout ∧ RecoveryDue config (steps ++ earlier) step.now) := by
  induction later using List.reverseRecOn generalizing machine with
  | nil =>
    rw [List.append_nil] at h
    rw [h.unique hbefore] at hfailed
    exact absurd hfailed hstate
  | append_singleton later last ih =>
    rw [← List.append_assoc] at h
    obtain ⟨hmiddle, _, rfl⟩ := h.of_concat
    by_cases hfirst : last.before.state = .failed
    · obtain ⟨earlier, step, rest, rfl, hdue⟩ :=
        ih hmiddle (fun step hmem ↦ hticks step (List.mem_append_left _ hmem)) hfirst
      exact ⟨earlier, step, rest ++ [last], by simp, hdue⟩
    · exact ⟨later, last, [], by simp, h.due_of_failed (hticks last (by simp)) hfirst hfailed⟩

end Trace

/-- The deadlines of a session fire when they are due, on every history of calls. -/
theorem deadlines_fire {config : SessionConfig} {steps : List Step} {machine : SessionStateMachine}
    (h : Trace config steps machine) :
    (∀ now, ∃ result machine', machine.tick now = .ok (result, machine') ∧
      (machine.state = .logon → ∃ sent, Latest Step.SendsLogon steps sent ∧
        (machine'.state = .failed ↔ sent.now.val + config.logonTimeoutTicks.val ≤ now.val)) ∧
      (machine.state = .active → ∃ renewal, Latest Step.Renews steps renewal ∧
        (machine'.state = .recovering ↔ renewal.now.val + config.heartbeatTimeoutTicks.val ≤ now.val ∧
          now.val + config.heartbeatTimeoutTicks.val < 2 ^ 64) ∧
        (renewal.now.val + config.heartbeatTimeoutTicks.val ≤ now.val →
          2 ^ 64 ≤ now.val + config.heartbeatTimeoutTicks.val → result = .error .arithmeticOverflow)) ∧
      (machine.state = .recovering → ∃ entry,
        Latest (fun step ↦ step.EntersRecovering ∨ step.AcceptsCommand) steps entry ∧ entry.EntersRecovering ∧
          (machine'.state = .failed ↔ entry.now.val + config.heartbeatTimeoutTicks.val ≤ now.val)) ∧
      (machine' = machine ∨ machine.state = .logon ∧ machine'.state = .failed ∨
        machine.state = .active ∧ machine'.state = .recovering ∨
          machine.state = .recovering ∧ machine'.state = .failed) ∧
      ∀ error, result = .error error → machine' = machine) ∧
    ∀ later machine', Trace config (steps ++ later) machine' → (∀ step ∈ later, step.Ticks) →
      machine.state ≠ .failed → machine'.state = .failed →
        ∃ earlier step rest, later = earlier ++ [step] ++ rest ∧
          (step.LogonTimeout ∧ LogonDue config (steps ++ earlier) step.now ∨
            step.RecoveryTimeout ∧ RecoveryDue config (steps ++ earlier) step.now) := by
  refine ⟨fun now ↦ ?_, fun later machine' hlater hticks hstate hfailed ↦
    hlater.due_of_ticks hticks h hstate hfailed⟩
  have harmed := h.armed
  obtain ⟨result, machine', htick, hticked⟩ := SessionStateMachine.tick_ticked h.counted now
  have hconfig := harmed.config_eq
  refine ⟨result, machine', htick, fun hlogon ↦ ?_, fun hactive ↦ ?_, fun hrecovering ↦ ?_, hticked.moved,
    hticked.error⟩
  · obtain ⟨sent, hlatest, hdue⟩ := harmed.logon_due_iff hlogon
    exact ⟨sent, hlatest, (hticked.logon hlogon).trans (hdue now)⟩
  · obtain ⟨renewal, hlatest, hdue⟩ := harmed.active_due_iff hactive
    have hmoved := hticked.active hactive
    have hrefused := hticked.refused hactive
    rw [hdue now, hconfig] at hmoved hrefused
    exact ⟨renewal, hlatest, hmoved, hrefused⟩
  · obtain ⟨entry, hlatest, henters, hdue⟩ := harmed.recovering_due_iff hrecovering
    exact ⟨entry, hlatest, henters, (hticked.recovering hrecovering).trans (hdue now)⟩

/-- A logon sent at 5 with a timeout of 100 fails the session at 105, not at 104. -/
theorem deadlines_fire_logon :
    ∃ steps machine, Trace ⟨100, 50⟩ steps machine ∧
      (∃ result machine', machine.tick 104 = .ok (result, machine') ∧ machine'.state ≠ .failed) ∧
      ∃ result machine', machine.tick 105 = .ok (result, machine') ∧ machine'.state = .failed := by
  have hconnecting := Trace.snoc (Trace.nil : Trace ⟨100, 50⟩ [] _)
    (show SessionStateMachine.step _ (.handle .connect 0) = _ from rfl)
  have hlogon := hconnecting.snoc (show SessionStateMachine.step _ (.handle .logonSent 5) = _ from rfl)
  have hfire (now : U64) := (deadlines_fire hlogon).1 now
  refine ⟨_, _, hlogon, ?_, ?_⟩
  · obtain ⟨result, machine', htick, hstate, _⟩ := hfire 104
    obtain ⟨sent, hlatest, hfailed⟩ := hstate rfl
    obtain rfl := hlatest.unique (.of_concat _ ⟨5, _, rfl, rfl⟩)
    exact ⟨result, machine', htick, fun hstate' ↦ absurd (hfailed.mp hstate') (by decide)⟩
  · obtain ⟨result, machine', htick, hstate, _⟩ := hfire 105
    obtain ⟨sent, hlatest, hfailed⟩ := hstate rfl
    obtain rfl := hlatest.unique (.of_concat _ ⟨5, _, rfl, rfl⟩)
    exact ⟨result, machine', htick, hfailed.mpr (by decide)⟩

/-! ## Timeouts of zero -/

/-- No tick of the history fires a deadline whose timeout is zero. -/
def ZeroDisables (config : SessionConfig) (steps : List Step) : Prop :=
  (config.logonTimeoutTicks = 0 → ∀ step ∈ steps, ¬ step.LogonTimeout) ∧
    (config.heartbeatTimeoutTicks = 0 → ∀ step ∈ steps, ¬ step.EntersRecovering ∧ ¬ step.RecoveryTimeout)

/-- Every tick of a state whose timeout is zero goes back behind the call that armed its deadline. -/
def TicksBehind (config : SessionConfig) (steps : List Step) : Prop :=
  (config.logonTimeoutTicks = 0 → ∀ earlier step later, steps = earlier ++ [step] ++ later → step.Ticks →
    step.before.state = .logon → ∀ sent, Latest Step.SendsLogon earlier sent → step.now < sent.now) ∧
  (config.heartbeatTimeoutTicks = 0 → ∀ earlier step later, steps = earlier ++ [step] ++ later → step.Ticks →
    step.before.state = .active → ∀ renewal, Latest Step.Renews earlier renewal → step.now < renewal.now)

namespace Trace

variable {config : SessionConfig} {steps : List Step} {step : Step} {machine : SessionStateMachine}

/-- A step of a history, with the calls before it. -/
theorem split_of_mem (h : Trace config steps machine) (hmem : step ∈ steps) :
    ∃ earlier later middle, steps = earlier ++ [step] ++ later ∧ Trace config (earlier ++ [step]) middle := by
  obtain ⟨earlier, later, rfl⟩ := List.append_of_mem hmem
  rw [List.append_cons] at h ⊢
  obtain ⟨middle, hmiddle⟩ := h.of_append
  exact ⟨earlier, later, middle, rfl, hmiddle⟩

/-- A tick that finds the machine waiting for its logon, with a timeout of zero. -/
theorem logonTimeout_iff (h : Trace config (steps ++ [step]) machine) (hzero : config.logonTimeoutTicks = 0)
    (hticks : step.Ticks) (hstate : step.before.state = .logon) :
    ∃ sent, Latest Step.SendsLogon steps sent ∧ (step.LogonTimeout ↔ sent.now ≤ step.now) := by
  obtain ⟨sent, hlatest, hdue⟩ := h.of_concat.1.armed.logon_due_iff hstate
  obtain ⟨now, hinput⟩ := hticks
  have hnow : step.now = now := congrArg Input.now hinput
  have hfailed := ((h.ticked hinput).logon hstate).trans (hdue now)
  rw [hzero] at hfailed
  rw [hnow]
  exact ⟨sent, hlatest, fun htimeout ↦ hfailed.mp htimeout.2.2, fun hle ↦
    ⟨⟨now, hinput⟩, hstate, hfailed.mpr hle⟩⟩

/-- A tick that finds the machine active, with a timeout of zero. -/
theorem entersRecovering_iff (h : Trace config (steps ++ [step]) machine)
    (hzero : config.heartbeatTimeoutTicks = 0) (hticks : step.Ticks) (hstate : step.before.state = .active) :
    ∃ renewal, Latest Step.Renews steps renewal ∧ (step.EntersRecovering ↔ renewal.now ≤ step.now) := by
  have harmed := h.of_concat.1.armed
  obtain ⟨renewal, hlatest, hdue⟩ := harmed.active_due_iff hstate
  obtain ⟨now, hinput⟩ := hticks
  have hnow : step.now = now := congrArg Input.now hinput
  have hmoved := (h.ticked hinput).active hstate
  rw [hdue now, harmed.config_eq, hzero] at hmoved
  rw [hnow]
  exact ⟨renewal, hlatest, fun henters ↦ (hmoved.mp henters.2.2).1, fun hle ↦
    ⟨⟨now, hinput⟩, hstate, hmoved.mpr ⟨hle, now.isLt⟩⟩⟩

/-- The recovery of a machine began with a tick of its history. -/
theorem exists_entersRecovering (h : Trace config steps machine) (hstate : machine.state = .recovering) :
    ∃ step ∈ steps, step.EntersRecovering := by
  obtain ⟨entry, ⟨earlier, later, rfl, _, _⟩, henters, _⟩ := h.armed.recovering_due_iff hstate
  exact ⟨entry, by simp, henters⟩

theorem zeroDisables_of_ticksBehind (h : Trace config steps machine) (hbehind : TicksBehind config steps) :
    ZeroDisables config steps := by
  refine ⟨fun hzero step hmem htimeout ↦ ?_, fun hzero ↦ ?_⟩
  · obtain ⟨earlier, later, middle, rfl, hmiddle⟩ := h.split_of_mem hmem
    obtain ⟨sent, hlatest, hiff⟩ := hmiddle.logonTimeout_iff hzero htimeout.1 htimeout.2.1
    exact absurd (hiff.mp htimeout)
      (not_le.mpr (hbehind.1 hzero earlier step later rfl htimeout.1 htimeout.2.1 sent hlatest))
  have hnever : ∀ step ∈ steps, ¬ step.EntersRecovering := by
    intro step hmem henters
    obtain ⟨earlier, later, middle, rfl, hmiddle⟩ := h.split_of_mem hmem
    obtain ⟨renewal, hlatest, hiff⟩ := hmiddle.entersRecovering_iff hzero henters.1 henters.2.1
    exact absurd (hiff.mp henters)
      (not_le.mpr (hbehind.2 hzero earlier step later rfl henters.1 henters.2.1 renewal hlatest))
  refine fun step hmem ↦ ⟨hnever step hmem, fun htimeout ↦ ?_⟩
  obtain ⟨earlier, later, middle, rfl, hmiddle⟩ := h.split_of_mem hmem
  obtain ⟨entry, hentry, henters⟩ := hmiddle.of_concat.1.exists_entersRecovering htimeout.2.1
  exact hnever entry (List.mem_append_left _ (List.mem_append_left _ hentry)) henters

theorem ticksBehind_of_zeroDisables (h : Trace config steps machine) (hdisables : ZeroDisables config steps) :
    TicksBehind config steps := by
  constructor
  · rintro hzero earlier step later rfl hticks hstate sent hlatest
    obtain ⟨middle, hmiddle⟩ := h.of_append
    obtain ⟨sent', hlatest', hiff⟩ := hmiddle.logonTimeout_iff hzero hticks hstate
    obtain rfl := hlatest.unique hlatest'
    exact not_le.mp fun hle ↦ hdisables.1 hzero step (by simp) (hiff.mpr hle)
  · rintro hzero earlier step later rfl hticks hstate renewal hlatest
    obtain ⟨middle, hmiddle⟩ := h.of_append
    obtain ⟨renewal', hlatest', hiff⟩ := hmiddle.entersRecovering_iff hzero hticks hstate
    obtain rfl := hlatest.unique hlatest'
    exact not_le.mp fun hle ↦ (hdisables.2 hzero step (by simp)).1 (hiff.mpr hle)

end Trace

/-- A timeout of zero disables its deadline on the histories whose ticks all lie behind the call that
armed it, and on no others. -/
theorem zero_disables_iff {config : SessionConfig} {steps : List Step} {machine : SessionStateMachine}
    (h : Trace config steps machine) : ZeroDisables config steps ↔ TicksBehind config steps :=
  ⟨h.ticksBehind_of_zeroDisables, h.zeroDisables_of_ticksBehind⟩

/-- A logon sent at 7 with a timeout of zero survives a tick at 6. -/
theorem zero_disables_iff_behind :
    ∃ steps machine, Trace ⟨0, 50⟩ steps machine ∧ machine.state = .logon ∧
      (ZeroDisables ⟨0, 50⟩ steps ↔ TicksBehind ⟨0, 50⟩ steps) := by
  have hconnecting := Trace.snoc (Trace.nil : Trace ⟨0, 50⟩ [] _)
    (show SessionStateMachine.step _ (.handle .connect 0) = _ from rfl)
  have hlogon := hconnecting.snoc (show SessionStateMachine.step _ (.handle .logonSent 7) = _ from rfl)
  have htrace := hlogon.snoc (show SessionStateMachine.step _ (.tick 6) = _ from rfl)
  exact ⟨_, _, htrace, rfl, zero_disables_iff htrace⟩

/-- A logon sent at 0 with a timeout of zero fails the session on the tick at 0. -/
theorem zero_disables_fails :
    ¬ ∀ config steps machine, Trace config steps machine → ZeroDisables config steps := by
  intro h
  have hconnecting := Trace.snoc (Trace.nil : Trace ⟨0, 50⟩ [] _)
    (show SessionStateMachine.step _ (.handle .connect 0) = _ from rfl)
  have hlogon := hconnecting.snoc (show SessionStateMachine.step _ (.handle .logonSent 0) = _ from rfl)
  have htrace := hlogon.snoc (show SessionStateMachine.step _ (.tick 0) = _ from rfl)
  have hnever := (h _ _ _ htrace).1 rfl
  exact hnever _ (List.mem_append_right _ (List.mem_singleton_self _)) ⟨⟨0, rfl⟩, rfl, rfl⟩

end DeterministicExchange.Session
