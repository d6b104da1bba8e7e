import DeterministicExchange.Gateway.OrderLimits

/-!
# Restored gateways are indistinguishable

Two gateways that represent the same logical gateway answer every sequence of
commands alike, whatever their slots, free lists and probe layouts. A gateway
restored from an exported state represents the logical gateway of the original.
-/

namespace DeterministicExchange

open Machine

open Book Risk

variable {ACCOUNTS RISK_ORDERS LEVELS ORDERS_PER_LEVEL : ℕ}

/-- A command with the buffer for its reports. -/
structure CommandRequest where
  command : Command
  capacity : ℕ
  reports : ReportBuffer capacity

/-- What a caller sees of a gateway after a command. -/
structure Observation (LEVELS ORDERS_PER_LEVEL : ℕ) where
  result : Except GatewayError GatewayOutcome
  reports : List ExecutionReport
  state : GatewayState LEVELS ORDERS_PER_LEVEL
  topLevel : Side → Option TopLevel
  accountSnapshot : AccountId → Run (Option (I128 × U32))

namespace Gateway

/-- Processes a command and observes its outcome. -/
def observe (gateway : Gateway ACCOUNTS RISK_ORDERS LEVELS ORDERS_PER_LEVEL) (request : CommandRequest) :
    Run (Observation LEVELS ORDERS_PER_LEVEL ×
      Gateway ACCOUNTS RISK_ORDERS LEVELS ORDERS_PER_LEVEL) := do
  let (result, gateway, reports) ← gateway.processCommand request.command request.reports
  let state ← gateway.exportState
  return (⟨result, reports.entries, state, gateway.topLevel, gateway.risk.accountSnapshot⟩, gateway)

/-- What is observed of a command on a logical gateway. -/
def logicalObservation (RISK_ORDERS LEVELS ORDERS_PER_LEVEL : ℕ) (logical : Logical.Gateway)
    (request : CommandRequest) : Observation LEVELS ORDERS_PER_LEVEL :=
  let outcome :=
    logical.processCommand RISK_ORDERS LEVELS ORDERS_PER_LEVEL request.capacity request.command
  { result := outcome.1
    reports := outcome.2.2
    state := outcome.2.1.state LEVELS ORDERS_PER_LEVEL
    topLevel := outcome.2.1.book.topLevel
    accountSnapshot := fun id ↦ .ok ((outcome.2.1.risk.account? id).bind RiskEngine.projected) }

/-- Everything observed of a command is determined by the logical gateway. -/
theorem Represents.observe (hc : Capacities ACCOUNTS RISK_ORDERS LEVELS ORDERS_PER_LEVEL)
    {gateway : Gateway ACCOUNTS RISK_ORDERS LEVELS ORDERS_PER_LEVEL} {logical : Logical.Gateway}
    (h : gateway.Represents logical) (request : CommandRequest) :
    ∃ gateway', gateway.observe request =
        .ok (logicalObservation RISK_ORDERS LEVELS ORDERS_PER_LEVEL logical request, gateway') ∧
      gateway'.Represents (logical.processCommand RISK_ORDERS LEVELS ORDERS_PER_LEVEL request.capacity
        request.command).2.1 := by
  obtain ⟨gateway', reports', hrun, h', hreports⟩ := h.processCommand hc request.command request.reports
  have htop : gateway'.topLevel = (logical.processCommand RISK_ORDERS LEVELS ORDERS_PER_LEVEL
      request.capacity request.command).2.1.book.topLevel := funext h'.book.topLevel
  have hsnapshot := funext (h'.risk.accountSnapshot hc.accounts)
  refine ⟨gateway', ?_, h'⟩
  unfold Gateway.observe logicalObservation
  simp only [hrun, Run.ok_bind, h'.exportState hc.index.addressable, hreports, htop, hsnapshot]
  rfl

/-- Gateways that represent the same logical gateway. -/
def Alike (gateway gateway' : Gateway ACCOUNTS RISK_ORDERS LEVELS ORDERS_PER_LEVEL) : Prop :=
  ∃ logical : Logical.Gateway, gateway.Represents logical ∧ gateway'.Represents logical

/-- Alike gateways answer every sequence of commands alike. -/
theorem Alike.execute (hc : Capacities ACCOUNTS RISK_ORDERS LEVELS ORDERS_PER_LEVEL)
    {gateway gateway' : Gateway ACCOUNTS RISK_ORDERS LEVELS ORDERS_PER_LEVEL} (h : gateway.Alike gateway')
    (requests : List CommandRequest) :
    ∃ observations g g', execute observe gateway requests = .ok (observations, g) ∧
      execute observe gateway' requests = .ok (observations, g') ∧ g.Alike g' := by
  refine execute_simulation requests ?_ h
  rintro s t ⟨logical, hs, ht⟩ request _
  obtain ⟨s', hrun, hs'⟩ := hs.observe hc request
  obtain ⟨t', hrun', ht'⟩ := ht.observe hc request
  exact ⟨_, s', t', hrun, hrun', _, hs', ht'⟩

/-- A gateway restored from the state of a reachable one is indistinguishable from it. -/
theorem restored_indistinguishable (hc : Capacities ACCOUNTS RISK_ORDERS LEVELS ORDERS_PER_LEVEL)
    {gateway : Gateway ACCOUNTS RISK_ORDERS LEVELS ORDERS_PER_LEVEL} (h : gateway.ReachableFromNew)
    (hlimits : gateway.WithinLimits) :
    ∃ state, gateway.exportState = .ok state ∧
      ∃ gateway' : Gateway ACCOUNTS RISK_ORDERS LEVELS ORDERS_PER_LEVEL,
        fromState ACCOUNTS RISK_ORDERS state = .ok (.ok gateway') ∧ gateway'.exportState = .ok state ∧
          ∀ requests, ∃ observations g g', execute observe gateway requests = .ok (observations, g) ∧
            execute observe gateway' requests = .ok (observations, g') := by
  obtain ⟨logical, hrep, hinvariant⟩ := h.reachable.sound hc
  obtain ⟨gateway', hrestored, hrep'⟩ := hrep.restored hc hinvariant (hrep.withinLimits_iff.mp hlimits)
  refine ⟨_, hrep.exportState hc.index.addressable, gateway', hrestored,
    hrep'.exportState hc.index.addressable, ?_⟩
  intro requests
  obtain ⟨observations, g, g', hrun, hrun', _⟩ := Alike.execute hc ⟨logical, hrep, hrep'⟩ requests
  exact ⟨observations, g, g', hrun, hrun'⟩

theorem sampleAmended_reachableFromNew : sampleAmended.ReachableFromNew :=
  .step sampleGateway_reachableFromNew trivial (Run.eq_ok_get sampleAmend_returns)

theorem sampleAmended_indistinguishable :
    ∃ state, sampleAmended.exportState = .ok state ∧ ∃ gateway' : Gateway 1 1 1 1,
      fromState 1 1 state = .ok (.ok gateway') ∧ gateway'.exportState = .ok state ∧
        ∀ requests, ∃ observations g g', execute observe sampleAmended requests = .ok (observations, g) ∧
          execute observe gateway' requests = .ok (observations, g') := by
  obtain ⟨logical, hrep, _, hlimited⟩ :=
    sampleAmended_session.limited ⟨by decide, by decide, by decide, by decide⟩
  exact restored_indistinguishable ⟨by decide, by decide, by decide, by decide⟩
    sampleAmended_reachableFromNew (hrep.withinLimits_iff.mpr hlimited)

end Gateway

end DeterministicExchange
