import DeterministicExchange.Gateway.Reachable
import DeterministicExchange.Risk.KillSwitch

/-!
# Kill switches of a gateway

A gateway looks at the kill switches when it admits a new order. A replace passes
them by: one that asks for more than its order has reserved enlarges the exposure
of a stopped account, and it is the only command that does.
-/

namespace DeterministicExchange

open Machine Book Risk

/-! ## Logical commands -/

namespace Logical.Gateway

variable {RISK_ORDERS LEVELS ORDERS capacity : ℕ} {gateway : Logical.Gateway}

/-- A replace in sequence that raises a reservation of a stopped account. -/
def Raises (gateway : Logical.Gateway) (command : Command) : Prop :=
  ∃ replace, command = .replaceOrder replace ∧ command.sequence = gateway.expectedSequence ∧
    gateway.risk.Raises
      (.adjustReservation replace.orderId replace.accountId replace.price replace.quantity)

theorem holdsExposure_recordFills (reports : List ExecutionReport) (risk : RiskEngineState) :
    risk.HoldsExposure (recordFills reports risk).2 := by
  induction reports generalizing risk with
  | nil => exact .refl risk
  | cons report reports ih =>
    unfold recordFills
    split
    · exact .refl risk
    next maker hmaker =>
    have hmakerHolds := RiskEngineState.holdsExposure_recordFill hmaker
    split
    · exact hmakerHolds
    next taker htaker =>
    exact (hmakerHolds.trans (RiskEngineState.holdsExposure_recordFill htaker)).trans (ih taker)

theorem holdsExposure_release {risk : RiskEngineState} (h : risk.HoldsExposure gateway.risk)
    (orderId : OrderId) (result : Result) :
    risk.HoldsExposure (gateway.release orderId result).2.risk := by
  unfold release
  split
  · exact h
  · next hsettle => exact h.trans (RiskEngineState.holdsExposure_settle hsettle)

theorem holdsExposure_processNewOrder (gateway : Logical.Gateway) (order : NewOrder) :
    gateway.risk.HoldsExposure
      (gateway.processNewOrder RISK_ORDERS LEVELS ORDERS capacity order).2.1.risk := by
  unfold processNewOrder
  split
  · exact .refl _
  dsimp only
  split
  · exact .refl _
  next reserved hreserved =>
  have hreservedHolds := RiskEngineState.holdsExposure_checkAndReserve hreserved
  split
  · exact holdsExposure_release hreservedHolds _ _
  next summary fills book _ =>
  have hfilled := hreservedHolds.trans (holdsExposure_recordFills (fills.map (Fill.report order)) reserved)
  split
  · next hfills =>
    rw [hfills] at hfilled
    exact hfilled
  next hfills =>
  rw [hfills] at hfilled
  split
  · exact holdsExposure_release hfilled _ _
  · exact hfilled

theorem holdsExposure_processReplace (hrisk : gateway.risk.Consistent) {replace : ReplaceOrder}
    (hraises : ¬ gateway.risk.Raises
      (.adjustReservation replace.orderId replace.accountId replace.price replace.quantity)) :
    gateway.risk.HoldsExposure (gateway.processReplace LEVELS ORDERS replace).2.risk := by
  unfold processReplace
  split
  · exact .refl _
  next released prior risk hadjust =>
  split
  · exact RiskEngineState.holdsExposure_adjustReservation hraises hadjust
  · obtain ⟨_, _, _, _, _, _, _, hrestore, _⟩ := hrisk.adjustReservation hadjust
    rw [hrestore]
    exact .refl _

theorem holdsExposure_processCancel (gateway : Logical.Gateway) (cancel : CancelOrder) :
    gateway.risk.HoldsExposure (gateway.processCancel cancel).2.risk := by
  unfold processCancel
  split
  · exact .refl _
  split
  · exact .refl _
  split
  · exact .refl _
  · next hcancel => exact RiskEngineState.holdsExposure_cancelReservation hcancel

/-- A command that does not raise holds the exposure of every stopped account. -/
theorem holdsExposure_processCommand (hrisk : gateway.risk.Consistent) {command : Command}
    (hraises : ¬ gateway.Raises command) :
    gateway.risk.HoldsExposure
      (gateway.processCommand RISK_ORDERS LEVELS ORDERS capacity command).2.1.risk := by
  unfold processCommand
  rcases checkSequence_cases gateway.expectedSequence command.sequence with
    ⟨_, hcheck⟩ | ⟨_, _, hcheck⟩ | ⟨next, hsequence, _, hcheck⟩
  · rw [hcheck]
    exact .refl _
  · rw [hcheck]
    exact .refl _
  · rw [hcheck]
    cases command with
    | newOrder order => exact holdsExposure_processNewOrder { gateway with expectedSequence := next } order
    | cancelOrder cancel => exact holdsExposure_processCancel { gateway with expectedSequence := next } cancel
    | replaceOrder replace =>
      have hraises' : ¬ gateway.risk.Raises
          (.adjustReservation replace.orderId replace.accountId replace.price replace.quantity) :=
        fun h ↦ hraises ⟨replace, rfl, hsequence, h⟩
      have hrisk' : ({ gateway with expectedSequence := next } : Logical.Gateway).risk.Consistent := hrisk
      exact holdsExposure_processReplace hrisk' hraises'

end Logical.Gateway

/-! ## Sessions -/

namespace Gateway

variable {ACCOUNTS RISK_ORDERS LEVELS ORDERS_PER_LEVEL : ℕ}
  {gateway gateway' : Gateway ACCOUNTS RISK_ORDERS LEVELS ORDERS_PER_LEVEL} {logical : Logical.Gateway}

/-- A replace in sequence that raises a reservation of a stopped account. -/
def Raises (gateway : Gateway ACCOUNTS RISK_ORDERS LEVELS ORDERS_PER_LEVEL) (command : Command) : Prop :=
  ∃ replace, command = .replaceOrder replace ∧ command.sequence = gateway.expectedSequence ∧
    gateway.risk.Raises
      (.adjustReservation replace.orderId replace.accountId replace.price replace.quantity)

theorem Represents.raises_iff (h : gateway.Represents logical) (command : Command) :
    gateway.Raises command ↔ logical.Raises command := by
  unfold Gateway.Raises Logical.Gateway.Raises
  simp only [h.expectedSequence, h.risk.raises_iff]

/-- In a session whose replaces do not raise, the exposure of stopped accounts is held. -/
theorem Represents.holdsExposure_session (hc : Capacities ACCOUNTS RISK_ORDERS LEVELS ORDERS_PER_LEVEL)
    (h : gateway.Represents logical) (hinvariant : logical.Invariant LEVELS ORDERS_PER_LEVEL)
    (hsession : Sessions (fun start ↦ start = gateway) (fun before command ↦ ¬ before.Raises command)
      gateway') :
    ∃ logical' : Logical.Gateway, gateway'.Represents logical' ∧
      logical'.Invariant LEVELS ORDERS_PER_LEVEL ∧ logical.risk.HoldsExposure logical'.risk := by
  induction hsession with
  | start hstart =>
    rw [hstart]
    exact ⟨logical, h, hinvariant, .refl _⟩
  | @step before after REPORTS reports reports' command result _ hpermitted hrun ih =>
    obtain ⟨middle, hrep, hmiddle, hholds⟩ := ih
    obtain ⟨after₁, reports₁, hrun₁, hrep', _⟩ := hrep.processCommand hc command reports
    rw [hrun₁] at hrun
    obtain ⟨_, hnext⟩ := Prod.mk.inj (Except.ok.inj hrun)
    obtain ⟨rfl, _⟩ := Prod.mk.inj hnext
    rw [hrep.raises_iff] at hpermitted
    exact ⟨_, hrep', (hmiddle.processCommand hc.orders RISK_ORDERS REPORTS command).invariant hmiddle,
      hholds.trans (Logical.Gateway.holdsExposure_processCommand hmiddle.risk hpermitted)⟩

/-! A stopped engine and a gateway restored with the switch set. -/

theorem killedPrice_inRange : -2 ^ (64 - 1) ≤ (50 : ℤ) ∧ (50 : ℤ) < 2 ^ (64 - 1) := by decide

def killedCalls : List RiskCall :=
  [.registerAccount 7 sampleLimits, .checkAndReserve ⟨1, 7, 1, ⟨50, killedPrice_inRange⟩, 5, 1, .buy, .gtc⟩,
    .setKillSwitch true]

theorem killedCalls_return :
    (execute RiskEngine.call (RiskEngine.new 1 1) killedCalls).toOption.isSome = true := by decide

def killedEngine : RiskEngine 1 1 :=
  ((execute RiskEngine.call (RiskEngine.new 1 1) killedCalls).toOption.get killedCalls_return).2

theorem killedEngine_reached : killedEngine.Reached :=
  ⟨_, killedCalls, _, .new, Run.eq_ok_get killedCalls_return⟩

def killedState : GatewayState 1 1 :=
  let state := sampleGateway.exportState.toOption.get sampleGateway_exports
  { state with risk := { state.risk with killed := true } }

theorem killedState_restores :
    ((fromState 1 1 killedState : Run (Except GatewayStateError (Gateway 1 1 1 1))).toOption.bind
      Except.toOption).isSome = true := by decide

def killedGateway : Gateway 1 1 1 1 :=
  ((fromState 1 1 killedState).toOption.bind Except.toOption).get killedState_restores

theorem killedGateway_restored : killedGateway.Restored :=
  ⟨killedState, Run.eq_ok_ok_get killedState_restores⟩

theorem killedEngine_reservation {slot : ℕ} {r : Reservation} (h : killedEngine.ReservesAt slot r) :
    r.quantity = 5 := by
  cases slot with
  | zero => exact (congrArg Reservation.quantity (Slab.Cell.live.inj (Option.some.inj h))).symm
  | succ slot =>
    unfold RiskEngine.ReservesAt at h
    rw [Vector.getElem?_eq_none (by omega)] at h
    simp at h

def loweringOperation : OrderOperation := .adjustReservation 1 7 ⟨50, killedPrice_inRange⟩ 4

theorem loweringOperation_lowers : ¬ killedEngine.Raises loweringOperation := by
  apply RiskEngine.not_raises_of_le
  intro slot r hreserves
  rw [killedEngine_reservation hreserves]
  decide

theorem loweringOperation_returns :
    (killedEngine.call loweringOperation.call).toOption.isSome = true := by decide

/-- A replace of the sample order after the switch was set. -/
def amendKilled (quantity : Quantity) : Command :=
  .replaceOrder ⟨1, 7, 1, 2, ⟨50, killedPrice_inRange⟩, quantity⟩

theorem killedGateway_reservation {slot : ℕ} {r : Reservation} (h : killedGateway.risk.ReservesAt slot r) :
    r.quantity = 5 := by
  cases slot with
  | zero => exact (congrArg Reservation.quantity (Slab.Cell.live.inj (Option.some.inj h))).symm
  | succ slot =>
    unfold RiskEngine.ReservesAt at h
    rw [Vector.getElem?_eq_none (by omega)] at h
    simp at h

theorem amendKilled_lowers : ¬ killedGateway.Raises (amendKilled 4) := by
  rintro ⟨replace, hcommand, _, hraises⟩
  obtain rfl : (⟨1, 7, 1, 2, ⟨50, killedPrice_inRange⟩, 4⟩ : ReplaceOrder) = replace :=
    Command.replaceOrder.inj hcommand
  refine RiskEngine.not_raises_of_le ?_ hraises
  intro slot r hreserves
  rw [killedGateway_reservation hreserves]
  decide

theorem amendKilled_returns :
    (killedGateway.processCommand (amendKilled 4) (ReportBuffer.new 1)).toOption.isSome = true := by
  decide

/-- While kill switches are set, no order operation on the risk engine and no command of a gateway
enlarges the exposure of an account that they stop, as long as no amendment raises a reservation of
such an account. A single operation enlarges it exactly when it raises one. -/
theorem exposure_held_while_stopped (hc : Capacities ACCOUNTS RISK_ORDERS LEVELS ORDERS_PER_LEVEL) :
    (∀ engine : RiskEngine ACCOUNTS RISK_ORDERS, engine.Reached →
      (∀ operation, ∃ reply engine', engine.call (OrderOperation.call operation) = .ok (reply, engine') ∧
        (engine.HoldsExposure engine' ↔ ¬ engine.Raises operation)) ∧
      ∀ engine', RiskEngine.Serves (fun before operation ↦ ¬ before.Raises operation) engine engine' →
        engine.HoldsExposure engine') ∧
    ∀ gateway gateway' : Gateway ACCOUNTS RISK_ORDERS LEVELS ORDERS_PER_LEVEL, gateway.Reachable →
      Sessions (fun start ↦ start = gateway) (fun before command ↦ ¬ before.Raises command) gateway' →
        gateway.risk.HoldsExposure gateway'.risk := by
  constructor
  · intro engine hreached
    obtain ⟨state, hrep, hbalanced⟩ := hreached.sound hc.accounts hc.reservations
    constructor
    · intro operation
      obtain ⟨reply, engine', hrun, _⟩ := hrep.serve hc.accounts hc.reservations operation
      exact ⟨reply, engine', hrun,
        hrep.holdsExposure_iff hc.accounts hc.reservations hbalanced hrun⟩
    · intro engine' hserves
      obtain ⟨state', hrep', hholds⟩ := hrep.serves hc.accounts hc.reservations hserves
      exact hrep.holdsExposure hrep' hholds
  · intro gateway gateway' hreachable hsession
    obtain ⟨logical, hrep, hinvariant⟩ := hreachable.sound hc
    obtain ⟨logical', hrep', _, hholds⟩ := hrep.holdsExposure_session hc hinvariant hsession
    exact hrep.risk.holdsExposure hrep'.risk hholds

theorem exposure_held_by_lowering :
    (∃ reply engine', killedEngine.call loweringOperation.call = .ok (reply, engine') ∧
      (killedEngine.HoldsExposure engine' ↔ ¬ killedEngine.Raises loweringOperation)) ∧
    (∃ engine', RiskEngine.Serves (fun before operation ↦ ¬ before.Raises operation) killedEngine engine' ∧
      killedEngine.HoldsExposure engine') ∧
    ∃ gateway' : Gateway 1 1 1 1, Sessions (fun start ↦ start = killedGateway)
        (fun before command ↦ ¬ before.Raises command) gateway' ∧
      killedGateway.risk.HoldsExposure gateway'.risk := by
  obtain ⟨⟨reply, engine'⟩, hrun⟩ : ∃ outcome, killedEngine.call loweringOperation.call = .ok outcome :=
    ⟨_, Run.eq_ok_get loweringOperation_returns⟩
  obtain ⟨⟨result, gateway', reports'⟩, hcommand⟩ : ∃ outcome,
      killedGateway.processCommand (amendKilled 4) (ReportBuffer.new 1) = .ok outcome :=
    ⟨_, Run.eq_ok_get amendKilled_returns⟩
  have hserves : RiskEngine.Serves (fun before operation ↦ ¬ before.Raises operation) killedEngine
      engine' := .step .start loweringOperation_lowers hrun
  have hsession : Sessions (fun start ↦ start = killedGateway)
      (fun before command ↦ ¬ before.Raises command) gateway' :=
    .step (.start rfl) amendKilled_lowers hcommand
  have hc : Capacities 1 1 1 1 := ⟨by decide, by decide, by decide, by decide⟩
  exact ⟨((exposure_held_while_stopped hc).1 killedEngine killedEngine_reached).1 loweringOperation,
    ⟨engine', hserves, ((exposure_held_while_stopped hc).1 killedEngine killedEngine_reached).2 _ hserves⟩,
    ⟨gateway', hsession, (exposure_held_while_stopped hc).2 killedGateway _
      (.start (.inr killedGateway_restored)) hsession⟩⟩

/-! A raised reservation. -/

/-- Account 7 of the sample session. -/
def stoppedAccount (reservedBuys : U128) : AccountState :=
  ⟨7, sampleLimits, Signed.zero 128, reservedBuys, 0, 1, false⟩

theorem not_holdsExposure_of_six {ACCOUNTS ORDERS : ℕ} {engine engine' : RiskEngine ACCOUNTS ORDERS}
    (hkilled : engine.killed = true) (h : engine.accounts[0]? = some (some (stoppedAccount 5)))
    (h' : engine'.accounts[0]? = some (some (stoppedAccount 6))) : ¬ engine.HoldsExposure engine' := by
  intro hholds
  have hkept := hholds.2 0 0 _ _ h h' rfl
  exact absurd (hkept.2 (.inl hkilled)).1 (by decide)

/-- Amending from five to six is accepted by the engine and by the gateway after the global kill
switch was set. -/
theorem raised_while_killed :
    (killedEngine.Reached ∧ killedEngine.killed = true ∧ ∃ engine',
      RiskEngine.Serves (fun _ _ ↦ True) killedEngine engine' ∧ ¬ killedEngine.HoldsExposure engine') ∧
    killedGateway.Restored ∧ killedGateway.risk.killed = true ∧ ∃ gateway' : Gateway 1 1 1 1,
      Sessions (fun start ↦ start = killedGateway) (fun _ _ ↦ True) gateway' ∧
        ¬ killedGateway.risk.HoldsExposure gateway'.risk := by
  have hengine :
      (killedEngine.call (OrderOperation.call (.adjustReservation 1 7 ⟨50, killedPrice_inRange⟩ 6))).map
      (fun outcome ↦ outcome.2.accounts[0]?) = .ok (some (some (stoppedAccount 6))) := by decide
  have hgateway : (killedGateway.processCommand (amendKilled 6) (ReportBuffer.new 1)).map
      (fun outcome ↦ outcome.2.1.risk.accounts[0]?) = .ok (some (some (stoppedAccount 6))) := by
    decide
  constructor
  · refine ⟨killedEngine_reached, rfl, ?_⟩
    cases hrun : killedEngine.call (OrderOperation.call
      (.adjustReservation 1 7 ⟨50, killedPrice_inRange⟩ 6)) with
    | error fault =>
      rw [hrun] at hengine
      exact absurd hengine nofun
    | ok outcome =>
      rw [hrun] at hengine
      exact ⟨outcome.2, .step .start trivial hrun,
        not_holdsExposure_of_six rfl rfl (Except.ok.inj hengine)⟩
  · refine ⟨killedGateway_restored, rfl, ?_⟩
    cases hrun : killedGateway.processCommand (amendKilled 6) (ReportBuffer.new 1) with
    | error fault =>
      rw [hrun] at hgateway
      exact absurd hgateway nofun
    | ok outcome =>
      rw [hrun] at hgateway
      exact ⟨outcome.2.1, .step (.start rfl) trivial hrun,
        not_holdsExposure_of_six rfl rfl (Except.ok.inj hgateway)⟩

end Gateway

end DeterministicExchange
