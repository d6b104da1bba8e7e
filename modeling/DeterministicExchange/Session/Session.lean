import DeterministicExchange.Types

/-!
# Session state machine

The connection lifecycle and the inbound sequencing of `hft-session`. Time is
virtual: every deadline check takes the current tick from its caller.
-/

namespace DeterministicExchange.Session

open Machine

inductive SessionState where
  | disconnected
  | connecting
  | logon
  | active
  | recovering
  | logout
  | failed
  deriving DecidableEq, Repr

inductive SessionEvent where
  | connect
  | logonSent
  | logonAccepted (firstSequence : SequenceNumber)
  | command (sequence : SequenceNumber)
  | heartbeatReceived
  | logoutSent
  | disconnect
  | fail
  deriving DecidableEq, Repr

inductive SessionError where
  | invalidTransition (state : SessionState) (event : String)
  | gap (expected received : SequenceNumber)
  | duplicateSequence (received expected : SequenceNumber)
  | notActive
  | arithmeticOverflow
  deriving DecidableEq, Repr

structure SessionConfig where
  logonTimeoutTicks : U64
  heartbeatTimeoutTicks : U64
  deriving DecidableEq, Repr

/-- The state after a step, and the tick at which its deadline fires. -/
structure Transition where
  state : SessionState
  deadline : Option U64
  deriving DecidableEq, Repr

/-- `heartbeatTimeouts` counts the timeouts since the last accepted command. -/
structure SessionStateMachine where
  state : SessionState
  config : SessionConfig
  nextSequence : U64
  deadline : Option U64
  heartbeatTimeouts : U32
  deriving DecidableEq, Repr

def eventName : SessionEvent → String
  | .connect => "connect"
  | .logonSent => "logon_sent"
  | .logonAccepted _ => "logon_accepted"
  | .command _ => "command"
  | .heartbeatReceived => "heartbeat_received"
  | .logoutSent => "logout_sent"
  | .disconnect => "disconnect"
  | .fail => "fail"

namespace SessionStateMachine

def new (config : SessionConfig) : SessionStateMachine := ⟨.disconnected, config, 1, none, 0⟩

def expectedSequence (machine : SessionStateMachine) : SequenceNumber := machine.nextSequence

def allowsCommands (machine : SessionStateMachine) : Bool :=
  match machine.state with
  | .active | .recovering => true
  | _ => false

def snapshot (machine : SessionStateMachine) : Transition := ⟨machine.state, machine.deadline⟩

def enter (machine : SessionStateMachine) (state : SessionState) (deadline : Option U64) :
    Except SessionError Transition × SessionStateMachine :=
  let machine := { machine with state := state, deadline := deadline }
  (.ok machine.snapshot, machine)

/-- Enters a state whose deadline is `timeout` ticks away. -/
def arm (machine : SessionStateMachine) (state : SessionState) (timeout now : U64) :
    Except SessionError Transition × SessionStateMachine :=
  match Unsigned.checkedAdd now timeout with
  | none => (.error .arithmeticOverflow, machine)
  | some deadline =>
    let machine := { machine with state := state, deadline := some deadline }
    (.ok machine.snapshot, machine)

def reset (machine : SessionStateMachine) : SessionStateMachine :=
  { machine with nextSequence := 1, deadline := none, heartbeatTimeouts := 0 }

def handleLogon (machine : SessionStateMachine) (firstSequence : SequenceNumber) (now : U64) :
    Except SessionError Transition × SessionStateMachine :=
  if firstSequence = 0 then (.error .arithmeticOverflow, machine)
  else
    match machine.arm .active machine.config.heartbeatTimeoutTicks now with
    | (.error error, machine) => (.error error, machine)
    | (.ok transition, machine) =>
      (.ok transition, { machine with nextSequence := firstSequence, heartbeatTimeouts := 0 })

def handleCommand (machine : SessionStateMachine) (sequence : SequenceNumber) (now : U64) :
    Except SessionError Transition × SessionStateMachine :=
  if sequence < machine.nextSequence then (.error (.duplicateSequence sequence machine.nextSequence), machine)
  else if machine.nextSequence < sequence then (.error (.gap machine.nextSequence sequence), machine)
  else
    match Unsigned.checkedAdd machine.nextSequence 1 with
    | none => (.error .arithmeticOverflow, machine)
    | some next =>
      match machine.arm .active machine.config.heartbeatTimeoutTicks now with
      | (.error error, machine) => (.error error, machine)
      | (.ok transition, machine) =>
        (.ok transition, { machine with nextSequence := next, heartbeatTimeouts := 0 })

/-- Applies one event at tick `now`. -/
def handle (machine : SessionStateMachine) (event : SessionEvent) (now : U64) :
    Except SessionError Transition × SessionStateMachine :=
  match machine.state, event with
  | .disconnected, .connect => machine.enter .connecting none
  | .connecting, .logonSent => machine.arm .logon machine.config.logonTimeoutTicks now
  | .logon, .logonAccepted firstSequence => machine.handleLogon firstSequence now
  | .active, .command sequence | .recovering, .command sequence => machine.handleCommand sequence now
  | .active, .heartbeatReceived => machine.arm .active machine.config.heartbeatTimeoutTicks now
  | .connecting, .logoutSent | .logon, .logoutSent | .active, .logoutSent | .recovering, .logoutSent =>
    machine.enter .logout none
  | .failed, .disconnect => (.error (.invalidTransition .failed (eventName .disconnect)), machine)
  | _, .disconnect => machine.reset.enter .disconnected none
  | _, .fail => machine.reset.enter .failed none
  | state, event => (.error (.invalidTransition state (eventName event)), machine)

/-- Advances virtual time; a deadline fires once the tick has reached it. -/
def tick (machine : SessionStateMachine) (now : U64) :
    Run (Except SessionError Transition × SessionStateMachine) :=
  match machine.deadline with
  | none => .ok (.ok machine.snapshot, machine)
  | some deadline =>
    if now < deadline then .ok (.ok machine.snapshot, machine)
    else
      match machine.state with
      | .logon => .ok (machine.reset.enter .failed none)
      | .active =>
        match Unsigned.checkedAdd now machine.config.heartbeatTimeoutTicks with
        | none => .ok (.error .arithmeticOverflow, machine)
        | some deadline => do
          let heartbeatTimeouts ← Run.addWord machine.heartbeatTimeouts 1
          let machine := { machine with
            heartbeatTimeouts := heartbeatTimeouts
            state := .recovering
            deadline := some deadline }
          return (.ok machine.snapshot, machine)
      | .recovering => do
        let heartbeatTimeouts ← Run.addWord machine.heartbeatTimeouts 1
        return { machine with heartbeatTimeouts := heartbeatTimeouts }.reset.enter .failed none
      | _ => .ok (.ok machine.snapshot, machine)

end SessionStateMachine

/-- The calls that drive a machine. -/
inductive Input where
  | handle (event : SessionEvent) (now : U64)
  | tick (now : U64)
  deriving DecidableEq, Repr

def SessionStateMachine.step (machine : SessionStateMachine) :
    Input → Run (Except SessionError Transition × SessionStateMachine)
  | .handle event now => .ok (machine.handle event now)
  | .tick now => machine.tick now

/-- One call with the machine before and after it. -/
structure Step where
  before : SessionStateMachine
  input : Input
  result : Except SessionError Transition
  after : SessionStateMachine

/-- The calls made on a new machine, in order, and the machine they lead to. -/
inductive Trace (config : SessionConfig) : List Step → SessionStateMachine → Prop where
  | nil : Trace config [] (SessionStateMachine.new config)
  | snoc {steps : List Step} {machine machine' : SessionStateMachine} {input : Input}
      {result : Except SessionError Transition} (h : Trace config steps machine)
      (hrun : machine.step input = .ok (result, machine')) :
      Trace config (steps ++ [⟨machine, input, result, machine'⟩]) machine'

end DeterministicExchange.Session
