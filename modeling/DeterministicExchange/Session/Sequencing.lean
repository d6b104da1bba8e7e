import DeterministicExchange.Session.Session

/-!
# Sequencing of a session

What a call of the session machine can do is said once, and the laws of whole
histories follow from it: refusals change nothing, commands are accepted in
sequence from each logon on, and a failed session stays failed.
-/

namespace DeterministicExchange.Session

open Machine

/-- The deadline of the machine has been reached. -/
def SessionStateMachine.Due (machine : SessionStateMachine) (now : U64) : Prop :=
  ∃ deadline, machine.deadline = some deadline ∧ deadline ≤ now

/-- What a successful call does. -/
inductive Moves (machine : SessionStateMachine) : Input → SessionStateMachine → Prop where
  | connect (now : U64) (hstate : machine.state = .disconnected) :
      Moves machine (.handle .connect now) { machine with state := .connecting, deadline := none }
  | logonSent (now deadline : U64) (hstate : machine.state = .connecting)
      (hdeadline : now.val + machine.config.logonTimeoutTicks.val = deadline.val) :
      Moves machine (.handle .logonSent now) { machine with state := .logon, deadline := some deadline }
  | logonAccepted (firstSequence : SequenceNumber) (now deadline : U64) (hstate : machine.state = .logon)
      (hfirst : firstSequence ≠ 0)
      (hdeadline : now.val + machine.config.heartbeatTimeoutTicks.val = deadline.val) :
      Moves machine (.handle (.logonAccepted firstSequence) now)
        { machine with
          state := .active
          deadline := some deadline
          nextSequence := firstSequence
          heartbeatTimeouts := 0 }
  | command (now deadline next : U64) (hstate : machine.allowsCommands = true)
      (hnext : machine.nextSequence.val + 1 = next.val)
      (hdeadline : now.val + machine.config.heartbeatTimeoutTicks.val = deadline.val) :
      Moves machine (.handle (.command machine.nextSequence) now)
        { machine with
          state := .active
          deadline := some deadline
          nextSequence := next
          heartbeatTimeouts := 0 }
  | heartbeat (now deadline : U64) (hstate : machine.state = .active)
      (hdeadline : now.val + machine.config.heartbeatTimeoutTicks.val = deadline.val) :
      Moves machine (.handle .heartbeatReceived now) { machine with deadline := some deadline }
  | logout (now : U64) (hdisconnected : machine.state ≠ .disconnected) (hlogout : machine.state ≠ .logout)
      (hfailed : machine.state ≠ .failed) :
      Moves machine (.handle .logoutSent now) { machine with state := .logout, deadline := none }
  | disconnect (now : U64) (hfailed : machine.state ≠ .failed) :
      Moves machine (.handle .disconnect now) { machine.reset with state := .disconnected }
  | fail (now : U64) : Moves machine (.handle .fail now) { machine.reset with state := .failed }
  | waited (now : U64) (hidle : machine.Due now → machine.state ≠ .logon ∧ machine.allowsCommands = false) :
      Moves machine (.tick now) machine
  | logonTimeout (now : U64) (hdue : machine.Due now) (hstate : machine.state = .logon) :
      Moves machine (.tick now) { machine.reset with state := .failed }
  | recovering (now deadline : U64) (heartbeatTimeouts : U32) (hdue : machine.Due now)
      (hstate : machine.state = .active)
      (hdeadline : now.val + machine.config.heartbeatTimeoutTicks.val = deadline.val)
      (htimeouts : machine.heartbeatTimeouts.val + 1 = heartbeatTimeouts.val) :
      Moves machine (.tick now)
        { machine with
          state := .recovering
          deadline := some deadline
          heartbeatTimeouts := heartbeatTimeouts }
  | heartbeatTimeout (now : U64) (hdue : machine.Due now) (hstate : machine.state = .recovering) :
      Moves machine (.tick now) { machine.reset with state := .failed }

namespace SessionStateMachine

variable {machine machine' : SessionStateMachine} {input : Input} {result : Except SessionError Transition}

theorem allowsCommands_iff :
    machine.allowsCommands = true ↔ machine.state = .active ∨ machine.state = .recovering := by
  unfold allowsCommands
  cases machine.state <;> simp

/-- The machine is unchanged by a refusal and has moved by a success. -/
def Answers (machine : SessionStateMachine) (input : Input)
    (answer : Except SessionError Transition × SessionStateMachine) : Prop :=
  match answer with
  | (.error _, machine') => machine' = machine
  | (.ok transition, machine') => transition = machine'.snapshot ∧ Moves machine input machine'

theorem arm_cases (machine : SessionStateMachine) (state : SessionState) (timeout now : U64) :
    machine.arm state timeout now = (.error .arithmeticOverflow, machine) ∨
      ∃ deadline, now.val + timeout.val = deadline.val ∧
        machine.arm state timeout now = (.ok ⟨state, some deadline⟩,
          { machine with state := state, deadline := some deadline }) := by
  unfold arm
  cases hadd : Unsigned.checkedAdd now timeout with
  | none => exact .inl rfl
  | some deadline => exact .inr ⟨deadline, Unsigned.checkedAdd_eq_some.mp hadd, rfl⟩

theorem handleLogon_answers (hstate : machine.state = .logon) (firstSequence : SequenceNumber) (now : U64) :
    machine.Answers (.handle (.logonAccepted firstSequence) now) (machine.handleLogon firstSequence now) := by
  unfold handleLogon
  split
  · exact rfl
  next hfirst =>
  obtain harm | ⟨deadline, hdeadline, harm⟩ :=
    machine.arm_cases .active machine.config.heartbeatTimeoutTicks now
  · rw [harm]
    exact rfl
  · rw [harm]
    have hmoves := Moves.logonAccepted firstSequence now deadline hstate hfirst hdeadline
    exact ⟨rfl, hmoves⟩

theorem handleCommand_answers (hstate : machine.allowsCommands = true) (sequence : SequenceNumber)
    (now : U64) :
    machine.Answers (.handle (.command sequence) now) (machine.handleCommand sequence now) := by
  unfold handleCommand
  split
  · exact rfl
  next hduplicate =>
  split
  · exact rfl
  next hgap =>
  obtain rfl : sequence = machine.nextSequence := le_antisymm (not_lt.mp hgap) (not_lt.mp hduplicate)
  split
  · exact rfl
  next next hnext =>
  obtain harm | ⟨deadline, hdeadline, harm⟩ :=
    machine.arm_cases .active machine.config.heartbeatTimeoutTicks now
  · rw [harm]
    exact rfl
  · rw [harm]
    exact ⟨rfl, .command now deadline next hstate (Unsigned.checkedAdd_eq_some.mp hnext) hdeadline⟩

theorem handle_answers (machine : SessionStateMachine) (event : SessionEvent) (now : U64) :
    machine.Answers (.handle event now) (machine.handle event now) := by
  unfold handle
  cases hstate : machine.state with
  | disconnected =>
    cases event with
    | connect => exact ⟨rfl, .connect now hstate⟩
    | disconnect => exact ⟨rfl, .disconnect now (by simp [hstate])⟩
    | fail => exact ⟨rfl, .fail now⟩
    | _ => exact rfl
  | connecting =>
    cases event with
    | logonSent =>
      obtain harm | ⟨deadline, hdeadline, harm⟩ :=
        machine.arm_cases .logon machine.config.logonTimeoutTicks now
      · simp only [harm]
        exact rfl
      · simp only [harm]
        exact ⟨rfl, .logonSent now deadline hstate hdeadline⟩
    | logoutSent => exact ⟨rfl, .logout now (by simp [hstate]) (by simp [hstate]) (by simp [hstate])⟩
    | disconnect => exact ⟨rfl, .disconnect now (by simp [hstate])⟩
    | fail => exact ⟨rfl, .fail now⟩
    | _ => exact rfl
  | logon =>
    cases event with
    | logonAccepted firstSequence => exact handleLogon_answers hstate firstSequence now
    | logoutSent => exact ⟨rfl, .logout now (by simp [hstate]) (by simp [hstate]) (by simp [hstate])⟩
    | disconnect => exact ⟨rfl, .disconnect now (by simp [hstate])⟩
    | fail => exact ⟨rfl, .fail now⟩
    | _ => exact rfl
  | active =>
    cases event with
    | command sequence => exact handleCommand_answers (by simp [allowsCommands, hstate]) sequence now
    | heartbeatReceived =>
      obtain harm | ⟨deadline, hdeadline, harm⟩ :=
        machine.arm_cases .active machine.config.heartbeatTimeoutTicks now
      · simp only [harm]
        exact rfl
      · simp only [harm]
        exact ⟨rfl, hstate ▸ .heartbeat now deadline hstate hdeadline⟩
    | logoutSent => exact ⟨rfl, .logout now (by simp [hstate]) (by simp [hstate]) (by simp [hstate])⟩
    | disconnect => exact ⟨rfl, .disconnect now (by simp [hstate])⟩
    | fail => exact ⟨rfl, .fail now⟩
    | _ => exact rfl
  | recovering =>
    cases event with
    | command sequence => exact handleCommand_answers (by simp [allowsCommands, hstate]) sequence now
    | logoutSent => exact ⟨rfl, .logout now (by simp [hstate]) (by simp [hstate]) (by simp [hstate])⟩
    | disconnect => exact ⟨rfl, .disconnect now (by simp [hstate])⟩
    | fail => exact ⟨rfl, .fail now⟩
    | _ => exact rfl
  | logout =>
    cases event with
    | disconnect => exact ⟨rfl, .disconnect now (by simp [hstate])⟩
    | fail => exact ⟨rfl, .fail now⟩
    | _ => exact rfl
  | failed =>
    cases event with
    | fail => exact ⟨rfl, .fail now⟩
    | _ => exact rfl

/-- Heartbeat timeouts are counted up to one: the second ends the session. -/
def Counted (machine : SessionStateMachine) : Prop :=
  machine.heartbeatTimeouts.val ≤ 1 ∧ (machine.state = .active → machine.heartbeatTimeouts.val = 0)

theorem tick_answers (hcounted : machine.Counted) (now : U64) :
    ∃ answer, machine.tick now = .ok answer ∧ machine.Answers (.tick now) answer := by
  unfold tick
  split
  · next hnone =>
    refine ⟨_, rfl, rfl, .waited now ?_⟩
    rintro ⟨deadline, hsome, _⟩
    simp [hnone] at hsome
  next deadline hsome =>
  split
  · next hearly =>
    refine ⟨_, rfl, rfl, .waited now ?_⟩
    rintro ⟨deadline', hsome', hle⟩
    rw [hsome, Option.some.injEq] at hsome'
    exact absurd hle (not_le.mpr (hsome' ▸ hearly))
  next hreached =>
  have hdue : machine.Due now := ⟨deadline, hsome, not_lt.mp hreached⟩
  have hsmall : machine.heartbeatTimeouts.val + (1 : U32).val < 2 ^ 32 := by
    have hle := hcounted.1
    have hone : (1 : U32).val = 1 := rfl
    omega
  obtain ⟨timeouts, hadd, htimeouts⟩ := Run.addWord_of_lt hsmall
  split
  · next hstate => exact ⟨_, rfl, rfl, .logonTimeout now hdue hstate⟩
  · next hstate =>
    split
    · exact ⟨_, rfl, rfl⟩
    next next hnext =>
    simp only [hadd, Run.ok_bind]
    exact ⟨_, rfl, rfl, .recovering now next timeouts hdue hstate (Unsigned.checkedAdd_eq_some.mp hnext)
      htimeouts.symm⟩
  · next hstate =>
    simp only [hadd, Run.ok_bind]
    exact ⟨_, rfl, rfl, .heartbeatTimeout now hdue hstate⟩
  · next hlogon hactive hrecovering =>
    refine ⟨_, rfl, rfl, .waited now fun _ ↦ ⟨hlogon, ?_⟩⟩
    unfold allowsCommands
    split
    · next hstate => exact absurd hstate hactive
    · next hstate => exact absurd hstate hrecovering
    · rfl

/-- Every call of a machine with counted timeouts returns. -/
theorem step_answers (hcounted : machine.Counted) (input : Input) :
    ∃ answer, machine.step input = .ok answer ∧ machine.Answers input answer := by
  cases input with
  | handle event now => exact ⟨_, rfl, machine.handle_answers event now⟩
  | tick now => exact tick_answers hcounted now

end SessionStateMachine

/-! ## Laws of one call -/

namespace Moves

variable {machine machine' : SessionStateMachine} {input : Input}

theorem counted (h : Moves machine input machine') (hcounted : machine.Counted) : machine'.Counted := by
  unfold SessionStateMachine.Counted at hcounted ⊢
  cases h with
  | connect | logonSent | logout => exact ⟨hcounted.1, by simp⟩
  | logonAccepted | command => simp
  | heartbeat | waited => exact hcounted
  | disconnect | fail | logonTimeout | heartbeatTimeout => simp [SessionStateMachine.reset]
  | recovering _ _ heartbeatTimeouts _ hstate _ htimeouts =>
    have hzero := hcounted.2 hstate
    refine ⟨?_, by simp⟩
    show heartbeatTimeouts.val ≤ 1
    omega

/-- Only a logon leads into a state that allows commands. -/
theorem allowsCommands (h : Moves machine input machine') (hallows : machine'.allowsCommands = true) :
    machine.allowsCommands = true ∨
      machine.state = .logon ∧ ∃ firstSequence now, input = .handle (.logonAccepted firstSequence) now := by
  cases h with
  | connect | logonSent | logout | disconnect | fail | logonTimeout | heartbeatTimeout =>
    simp [SessionStateMachine.allowsCommands] at hallows
  | logonAccepted firstSequence now _ hstate => exact .inr ⟨hstate, firstSequence, now, rfl⟩
  | command _ _ _ hstate => exact .inl hstate
  | heartbeat | waited => exact .inl hallows
  | recovering _ _ _ _ hstate => exact .inl (by simp [SessionStateMachine.allowsCommands, hstate])

theorem logon (h : Moves machine input machine') (hlogon : machine'.state = .logon) :
    machine.state = .logon ∨ machine.state = .connecting ∧ ∃ now, input = .handle .logonSent now := by
  cases h with
  | connect | logonAccepted | command | logout | disconnect | fail | logonTimeout | recovering
  | heartbeatTimeout => simp at hlogon
  | logonSent now _ hstate => exact .inr ⟨hstate, now, rfl⟩
  | heartbeat | waited => exact .inl hlogon

theorem connecting (h : Moves machine input machine') (hconnecting : machine'.state = .connecting) :
    machine.state = .connecting ∨ ∃ now, input = .handle .connect now := by
  cases h with
  | logonSent | logonAccepted | command | logout | disconnect | fail | logonTimeout | recovering
  | heartbeatTimeout => simp at hconnecting
  | connect now => exact .inr ⟨now, rfl⟩
  | heartbeat | waited => exact .inl hconnecting

theorem failed (h : Moves machine input machine') (hfailed : machine.state = .failed) :
    machine'.state = .failed := by
  cases h with
  | connect _ hstate | logonSent _ _ hstate | logonAccepted _ _ _ hstate | heartbeat _ _ hstate
  | logonTimeout _ _ hstate | recovering _ _ _ _ hstate | heartbeatTimeout _ _ hstate =>
    simp [hfailed] at hstate
  | command _ _ _ hstate => simp [SessionStateMachine.allowsCommands, hfailed] at hstate
  | logout _ _ _ hstate | disconnect _ hstate => exact absurd hfailed hstate
  | fail => rfl
  | waited => exact hfailed

/-- A command is accepted under the expected sequence, and the machine is active then. -/
theorem of_command {sequence : SequenceNumber} {now : U64}
    (h : Moves machine (.handle (.command sequence) now) machine') :
    machine.allowsCommands = true ∧ machine'.state = .active ∧ sequence = machine.nextSequence ∧
      machine'.nextSequence.val = machine.nextSequence.val + 1 := by
  cases h with
  | command _ _ _ hstate hnext => exact ⟨hstate, rfl, rfl, hnext.symm⟩

/-- While commands stay allowed, only commands advance the sequence. -/
theorem nextSequence (h : Moves machine input machine') (hallowed : machine.allowsCommands = true)
    (hallows : machine'.allowsCommands = true)
    (hcommand : ∀ sequence now, input ≠ .handle (.command sequence) now) :
    machine'.nextSequence = machine.nextSequence := by
  cases h with
  | connect | logonSent | logout | disconnect | fail | logonTimeout | heartbeatTimeout =>
    simp [SessionStateMachine.allowsCommands] at hallows
  | logonAccepted _ _ _ hstate => simp [SessionStateMachine.allowsCommands, hstate] at hallowed
  | command => exact absurd rfl (hcommand _ _)
  | heartbeat | waited | recovering => rfl

end Moves

/-! ## Laws of histories -/

namespace Step

/-- The step handles the event and is not refused. -/
def Accepts (step : Step) (event : SessionEvent) : Prop :=
  ∃ now transition, step.input = .handle event now ∧ step.result = .ok transition

/-- The sequence of the command that the step accepts. -/
def acceptedCommand? (step : Step) : Option SequenceNumber :=
  match step.input, step.result with
  | .handle (.command sequence) _, .ok _ => some sequence
  | _, _ => none

theorem acceptedCommand?_eq_some {step : Step} {sequence : SequenceNumber} :
    step.acceptedCommand? = some sequence ↔ step.Accepts (.command sequence) := by
  unfold acceptedCommand? Accepts
  constructor
  · intro h
    split at h
    · next hinput hresult => exact ⟨_, _, by rw [hinput, Option.some.inj h], hresult⟩
    · simp at h
  · rintro ⟨now, transition, hinput, hresult⟩
    rw [hinput, hresult]

end Step

/-- The accepted commands of a history. -/
def acceptedCommands (steps : List Step) : List SequenceNumber := steps.filterMap Step.acceptedCommand?

namespace Trace

variable {config : SessionConfig} {steps : List Step} {step : Step} {machine : SessionStateMachine}

theorem of_concat (h : Trace config (steps ++ [step]) machine) :
    Trace config steps step.before ∧ step.before.step step.input = .ok (step.result, step.after) ∧
      machine = step.after := by
  generalize hlist : steps ++ [step] = list at h
  cases h with
  | nil => simp at hlist
  | snoc h hrun =>
    obtain ⟨rfl, hlast⟩ := List.append_inj' hlist rfl
    obtain rfl := List.singleton_inj.mp hlast
    exact ⟨h, hrun, rfl⟩

theorem counted (h : Trace config steps machine) : machine.Counted := by
  induction h with
  | nil => exact ⟨Nat.zero_le 1, fun _ ↦ rfl⟩
  | @snoc _ machine machine' input result _ hrun ih =>
    obtain ⟨answer, hanswer, hanswers⟩ := SessionStateMachine.step_answers ih input
    rw [hrun, Except.ok.injEq] at hanswer
    subst hanswer
    cases result with
    | error error => exact hanswers ▸ ih
    | ok transition => exact hanswers.2.counted ih

/-- A call on a reached machine is refused without effect, or moves the machine. -/
theorem answers (h : Trace config (steps ++ [step]) machine) :
    (∃ error, step.result = .error error ∧ step.after = step.before) ∨
      ∃ transition, step.result = .ok transition ∧ Moves step.before step.input step.after := by
  obtain ⟨hbefore, hrun, _⟩ := h.of_concat
  obtain ⟨answer, hanswer, hanswers⟩ := SessionStateMachine.step_answers hbefore.counted step.input
  rw [hrun, Except.ok.injEq] at hanswer
  subst hanswer
  cases hresult : step.result with
  | error error =>
    rw [hresult] at hanswers
    exact .inl ⟨error, rfl, hanswers⟩
  | ok transition =>
    rw [hresult] at hanswers
    exact .inr ⟨transition, rfl, hanswers.2⟩

theorem answers_of_mem (h : Trace config steps machine) (hmem : step ∈ steps) :
    (∃ error, step.result = .error error ∧ step.after = step.before) ∨
      ∃ transition, step.result = .ok transition ∧ Moves step.before step.input step.after := by
  induction h with
  | nil => simp at hmem
  | snoc h hrun ih =>
    obtain hmem | hmem := List.mem_append.mp hmem
    · exact ih hmem
    · rw [List.mem_singleton] at hmem
      subst hmem
      exact (h.snoc hrun).answers

/-- A state other than the first one was entered by some call, and was kept since. -/
theorem entered (h : Trace config steps machine) (hstate : machine.state ≠ .disconnected) :
    ∃ (earlier : List Step) (entry : Step) (later : List Step), steps = earlier ++ [entry] ++ later ∧
      Trace config earlier entry.before ∧
      entry.before.state ≠ machine.state ∧ entry.after.state = machine.state ∧
      (∃ transition, entry.result = .ok transition) ∧ Moves entry.before entry.input entry.after ∧
      ∀ step ∈ later, step.after.state = machine.state := by
  induction h with
  | nil => exact absurd rfl hstate
  | @snoc steps machine machine' input result h hrun ih =>
    by_cases hsame : machine.state = machine'.state
    · rw [← hsame] at hstate ⊢
      obtain ⟨earlier, entry, later, rfl, htrace, hbefore, hafter, hresult, hmoves, hlater⟩ := ih hstate
      refine ⟨earlier, entry, later ++ [⟨machine, input, result, machine'⟩], by simp, htrace, hbefore, hafter,
        hresult, hmoves, ?_⟩
      intro step hmem
      obtain hmem | hmem := List.mem_append.mp hmem
      · exact hlater step hmem
      · rw [List.mem_singleton.mp hmem]
        exact hsame.symm
    · obtain ⟨_, _, hafter⟩ | ⟨transition, hresult, hmoves⟩ := (h.snoc hrun).answers
      · exact absurd (congrArg SessionStateMachine.state hafter).symm hsame
      · exact ⟨steps, _, [], by simp, h, hsame, rfl, ⟨transition, hresult⟩, hmoves, by simp⟩

theorem of_append {later : List Step} (h : Trace config (steps ++ later) machine) :
    ∃ middle, Trace config steps middle := by
  induction later using List.reverseRecOn generalizing machine with
  | nil => exact ⟨machine, by simpa using h⟩
  | append_singleton later step ih =>
    rw [← List.append_assoc] at h
    exact ih h.of_concat.1

/-- Once failed, a machine stays failed and accepts no command. -/
theorem failed {later : List Step} (h : Trace config (steps ++ [step] ++ later) machine)
    (hfailed : step.after.state = .failed) :
    machine.state = .failed ∧ acceptedCommands later = [] := by
  induction later using List.reverseRecOn generalizing machine with
  | nil =>
    rw [List.append_nil] at h
    obtain ⟨_, _, rfl⟩ := h.of_concat
    exact ⟨hfailed, rfl⟩
  | append_singleton later last ih =>
    rw [← List.append_assoc] at h
    obtain ⟨hbefore, _, rfl⟩ := h.of_concat
    obtain ⟨hstate, hnone⟩ := ih hbefore
    have hlast : last.after.state = .failed ∧ last.acceptedCommand? = none := by
      obtain ⟨error, hresult, hafter⟩ | ⟨transition, hresult, hmoves⟩ := h.answers
      · refine ⟨hafter ▸ hstate, ?_⟩
        unfold Step.acceptedCommand?
        rw [hresult]
        split <;> simp_all
      · refine ⟨hmoves.failed hstate, ?_⟩
        by_contra hsome
        obtain ⟨sequence, hsome⟩ := Option.ne_none_iff_exists'.mp hsome
        obtain ⟨now, _, hinput, _⟩ := Step.acceptedCommand?_eq_some.mp hsome
        rw [hinput] at hmoves
        have hallows := hmoves.of_command.1
        simp [SessionStateMachine.allowsCommands, hstate] at hallows
    refine ⟨hlast.1, ?_⟩
    unfold acceptedCommands at hnone ⊢
    rw [List.filterMap_append, hnone, List.nil_append, List.filterMap_cons, hlast.2, List.filterMap_nil]

/-- From a logon on, and as long as commands stay allowed, they are accepted in sequence. -/
theorem sequence {later : List Step} {firstSequence : SequenceNumber}
    (h : Trace config (steps ++ [step] ++ later) machine)
    (hlogon : step.Accepts (.logonAccepted firstSequence))
    (hlater : ∀ other ∈ later, other.after.allowsCommands = true) :
    machine.allowsCommands = true ∧
      (acceptedCommands later).map Fin.val = List.range' firstSequence.val (acceptedCommands later).length ∧
      machine.nextSequence.val = firstSequence.val + (acceptedCommands later).length := by
  induction later using List.reverseRecOn generalizing machine with
  | nil =>
    rw [List.append_nil] at h
    obtain ⟨_, _, rfl⟩ := h.of_concat
    obtain ⟨now, transition, hinput, hresult⟩ := hlogon
    obtain ⟨error, herror, _⟩ | ⟨_, _, hmoves⟩ := h.answers
    · simp [hresult] at herror
    · rw [hinput] at hmoves
      generalize step.after = after at hmoves
      cases hmoves with
      | logonAccepted => exact ⟨rfl, rfl, rfl⟩
  | append_singleton later last ih =>
    rw [← List.append_assoc] at h
    obtain ⟨hbefore, _, rfl⟩ := h.of_concat
    obtain ⟨hallowed, hnumbers, hnext⟩ :=
      ih hbefore fun other hmem ↦ hlater other (List.mem_append_left _ hmem)
    have hallows := hlater last (List.mem_append_right _ (List.mem_singleton_self _))
    unfold acceptedCommands at hnumbers hnext ⊢
    rw [List.filterMap_append]
    cases hsome : last.acceptedCommand? with
    | none =>
      have hsame : last.after.nextSequence = last.before.nextSequence := by
        obtain ⟨_, _, hafter⟩ | ⟨transition, hresult, hmoves⟩ := h.answers
        · rw [hafter]
        · refine hmoves.nextSequence hallowed hallows fun sequence now hinput ↦ ?_
          have haccepted := Step.acceptedCommand?_eq_some.mpr ⟨now, transition, hinput, hresult⟩
          simp [hsome] at haccepted
      rw [List.filterMap_cons, hsome, List.filterMap_nil, List.append_nil, hsame]
      exact ⟨hallows, hnumbers, hnext⟩
    | some sequence =>
      obtain ⟨now, transition, hinput, hresult⟩ := Step.acceptedCommand?_eq_some.mp hsome
      obtain ⟨error, herror, _⟩ | ⟨_, _, hmoves⟩ := h.answers
      · simp [hresult] at herror
      rw [hinput] at hmoves
      obtain ⟨_, _, rfl, hsuccessor⟩ := hmoves.of_command
      rw [List.filterMap_cons, hsome, List.filterMap_nil, List.map_append, hnumbers, List.length_append,
        List.length_singleton, List.range'_concat, List.map_singleton, hsuccessor, hnext]
      refine ⟨hallows, by simp, by omega⟩

/-- A machine that waits for its logon has connected and sent it. -/
theorem handshake (h : Trace config steps machine) (hstate : machine.state = .logon) :
    ∃ (earlier : List Step) (connect : Step) (waiting : List Step) (sent : Step) (pending : List Step),
      steps = earlier ++ [connect] ++ waiting ++ [sent] ++ pending ∧
      connect.Accepts .connect ∧ (∀ other ∈ waiting, other.after.state = .connecting) ∧
      sent.Accepts .logonSent ∧ ∀ other ∈ pending, other.after.state = .logon := by
  obtain ⟨before, sent, pending, rfl, htrace, hbefore, hafter, ⟨_, hsent⟩, hmoves, hpending⟩ :=
    h.entered (by simp [hstate])
  rw [hstate] at hbefore hafter hpending
  obtain hsame | ⟨hconnecting, now, hinput⟩ := hmoves.logon hafter
  · exact absurd hsame hbefore
  obtain ⟨earlier, connect, waiting, rfl, _, hbefore', hafter', ⟨_, hconnect⟩, hmoves', hwaiting⟩ :=
    htrace.entered (by simp [hconnecting])
  rw [hconnecting] at hbefore' hafter' hwaiting
  obtain hsame | ⟨now', hinput'⟩ := hmoves'.connecting hafter'
  · exact absurd hsame hbefore'
  exact ⟨earlier, connect, waiting, sent, pending, by simp, ⟨now', _, hinput', hconnect⟩, hwaiting,
    ⟨now, _, hinput, hsent⟩, hpending⟩

/-- The active state is entered by a logon that follows the handshake. -/
theorem activated (h : Trace config (steps ++ [step]) machine) (hbefore : step.before.allowsCommands = false)
    (hafter : step.after.state = .active) :
    (∃ firstSequence, step.Accepts (.logonAccepted firstSequence)) ∧
      ∃ (earlier : List Step) (connect : Step) (waiting : List Step) (sent : Step) (pending : List Step),
        steps = earlier ++ [connect] ++ waiting ++ [sent] ++ pending ∧
        connect.Accepts .connect ∧ (∀ other ∈ waiting, other.after.state = .connecting) ∧
        sent.Accepts .logonSent ∧ ∀ other ∈ pending, other.after.state = .logon := by
  have hallows : step.after.allowsCommands = true := by simp [SessionStateMachine.allowsCommands, hafter]
  obtain ⟨_, _, hsame⟩ | ⟨transition, hresult, hmoves⟩ := h.answers
  · rw [hsame, hbefore] at hallows
    cases hallows
  obtain hallowed | ⟨hlogon, firstSequence, now, hinput⟩ := hmoves.allowsCommands hallows
  · rw [hbefore] at hallowed
    cases hallowed
  exact ⟨⟨firstSequence, now, transition, hinput, hresult⟩, h.of_concat.1.handshake hlogon⟩

end Trace

/-- The sequencing law of a session, over every history of calls. -/
theorem trace_sequenced {config : SessionConfig} {steps : List Step} {machine : SessionStateMachine}
    (h : Trace config steps machine) :
    (∀ input, ∃ answer, machine.step input = .ok answer) ∧
    (∀ step ∈ steps, (∀ error, step.result = .error error → step.after = step.before) ∧
      ∀ sequence, step.Accepts (.command sequence) →
        (step.before.state = .active ∨ step.before.state = .recovering) ∧ step.after.state = .active) ∧
    (∀ (earlier : List Step) (logon : Step) (later : List Step) firstSequence, steps =
      earlier ++ [logon] ++ later →
      logon.Accepts (.logonAccepted firstSequence) →
      (∀ other ∈ later, other.after.state = .active ∨ other.after.state = .recovering) →
      (acceptedCommands later).map Fin.val = List.range' firstSequence.val (acceptedCommands later).length ∧
        machine.expectedSequence.val = firstSequence.val + (acceptedCommands later).length) ∧
    (∀ (earlier : List Step) (step : Step) (later : List Step), steps = earlier ++ [step] ++ later →
      step.before.state ≠ .active → step.before.state ≠ .recovering → step.after.state = .active →
      (∃ firstSequence, step.Accepts (.logonAccepted firstSequence)) ∧
        ∃ (before : List Step) (connect : Step) (waiting : List Step) (sent : Step) (pending : List Step),
          earlier = before ++ [connect] ++ waiting ++ [sent] ++ pending ∧
          connect.Accepts .connect ∧ (∀ other ∈ waiting, other.after.state = .connecting) ∧
          sent.Accepts .logonSent ∧ ∀ other ∈ pending, other.after.state = .logon) ∧
    ∀ (earlier : List Step) (step : Step) (later : List Step), steps = earlier ++ [step] ++ later →
      step.after.state = .failed →
      machine.state = .failed ∧ acceptedCommands later = [] := by
  refine ⟨?_, ?_, ?_, ?_, ?_⟩
  · intro input
    obtain ⟨answer, hanswer, _⟩ := SessionStateMachine.step_answers h.counted input
    exact ⟨answer, hanswer⟩
  · intro step hmem
    constructor
    · intro error herror
      obtain ⟨_, _, hafter⟩ | ⟨_, hresult, _⟩ := h.answers_of_mem hmem
      · exact hafter
      · simp [herror] at hresult
    · rintro sequence ⟨now, transition, hinput, hresult⟩
      obtain ⟨_, herror, _⟩ | ⟨_, _, hmoves⟩ := h.answers_of_mem hmem
      · simp [hresult] at herror
      · rw [hinput] at hmoves
        obtain ⟨hallows, hactive, _⟩ := hmoves.of_command
        exact ⟨SessionStateMachine.allowsCommands_iff.mp hallows, hactive⟩
  · rintro earlier logon later firstSequence rfl hlogon hlater
    exact (h.sequence hlogon fun other hmem ↦
      SessionStateMachine.allowsCommands_iff.mpr (hlater other hmem)).2
  · rintro earlier step later rfl hactive hrecovering hafter
    obtain ⟨middle, hmiddle⟩ := h.of_append
    refine hmiddle.activated ?_ hafter
    rw [Bool.eq_false_iff]
    intro hallows
    obtain hstate | hstate := SessionStateMachine.allowsCommands_iff.mp hallows
    · exact hactive hstate
    · exact hrecovering hstate
  · rintro earlier step later rfl hfailed
    exact h.failed hfailed

/-- A logon at 5, one command, and a failure after which the next command is refused. -/
theorem trace_sequenced_until_failure :
    ∃ steps machine, Trace ⟨100, 50⟩ steps machine ∧ acceptedCommands steps = [5] ∧
      machine.state = .failed ∧
      ∀ step ∈ steps, ∀ error, step.result = .error error → step.after = step.before := by
  have hconnecting := Trace.snoc (Trace.nil : Trace ⟨100, 50⟩ [] _)
    (show SessionStateMachine.step _ (.handle .connect 0) = _ from rfl)
  have hlogon := hconnecting.snoc (show SessionStateMachine.step _ (.handle .logonSent 0) = _ from rfl)
  have hactive := hlogon.snoc (show SessionStateMachine.step _ (.handle (.logonAccepted 5) 1) = _ from rfl)
  have hcommand := hactive.snoc (show SessionStateMachine.step _ (.handle (.command 5) 2) = _ from rfl)
  have hfailed := hcommand.snoc (show SessionStateMachine.step _ (.handle .fail 3) = _ from rfl)
  have htrace := hfailed.snoc (show SessionStateMachine.step _ (.handle (.command 6) 4) = _ from rfl)
  exact ⟨_, _, htrace, by decide, rfl, fun step hmem ↦ ((trace_sequenced htrace).2.1 step hmem).1⟩

end DeterministicExchange.Session
