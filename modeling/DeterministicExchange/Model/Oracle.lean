import DeterministicExchange.Gateway.Positions
import DeterministicExchange.Model.Consistency
import DeterministicExchange.Model.EngineRefinement

/-!
# The reference gateway as an oracle

The gateway and the reference gateway start from the same accounts and run the same commands. They
answer alike and show the same accounts until an amendment asks for more than the limits of its
account admit: the reference gateway then keeps the total that it raised before the check, and is no
longer consistent. So the reference gateway is a correct oracle exactly for the runs without such an
amendment that do not exhaust the sequence numbers.
-/

namespace DeterministicExchange.Model

open Machine DeterministicExchange.Book DeterministicExchange.Risk

variable {ACCOUNTS RISK_ORDERS LEVELS ORDERS_PER_LEVEL REPORTS : ℕ}

/-! ## Runs -/

/-- Registers accounts, each of which has to be accepted. -/
def registerAll : List (AccountId × RiskLimits) → RiskEngine ACCOUNTS RISK_ORDERS →
    Run (Except RegistrationError (RiskEngine ACCOUNTS RISK_ORDERS))
  | [], risk => .ok (.ok risk)
  | (id, limits) :: accounts, risk => do
    match ← risk.registerAccount id limits with
    | (.error reason, _) => return .error reason
    | (.ok _, risk) => registerAll accounts risk

def ModelEngine.registerAll : List (AccountId × RiskLimits) → ModelEngine → Run ModelEngine
  | [], engine => .ok engine
  | (id, limits) :: accounts, engine => do
    let engine ← engine.registerAccount id (.of limits)
    engine.registerAll accounts

/-- A command of an instrument, with a positive price and quantity. -/
def WellFormed (instrument : InstrumentId) (command : Command) : Prop :=
  command.instrumentId = instrument ∧
    match command with
    | .newOrder order => 0 < order.price.val ∧ 0 < order.quantity.val
    | .cancelOrder _ => True
    | .replaceOrder replace => 0 < replace.price.val ∧ 0 < replace.quantity.val

instance (instrument : InstrumentId) : DecidablePred (WellFormed instrument)
  | .newOrder _ => inferInstanceAs (Decidable (_ ∧ _ ∧ _))
  | .cancelOrder _ => inferInstanceAs (Decidable (_ ∧ True))
  | .replaceOrder _ => inferInstanceAs (Decidable (_ ∧ _ ∧ _))

/-- The results of the commands of a run, up to a panic. -/
def results : List Command → Gateway ACCOUNTS RISK_ORDERS LEVELS ORDERS_PER_LEVEL → ReportBuffer REPORTS →
    List (Except GatewayError GatewayOutcome)
  | [], _, _ => []
  | command :: commands, gateway, reports =>
    match gateway.processCommand command reports with
    | .error _ => []
    | .ok (result, gateway, reports) => result :: results commands gateway reports

/-- The commands of a run, each with the reference gateway that it finds. -/
def ModelEngine.steps (reportCapacity : ℕ) : List Command → ModelEngine → List (ModelEngine × Command)
  | [], _ => []
  | command :: commands, engine =>
    (engine, command) ::
      match engine.apply reportCapacity command with
      | .error _ => []
      | .ok (_, engine) => engine.steps reportCapacity commands

/-- Reserved exposure of one side of an account, as the risk engine stores it. -/
def storedTotal (risk : RiskEngine ACCOUNTS RISK_ORDERS) (id : AccountId) (side : Side) : U128 :=
  match risk.registered.find? fun account ↦ account.id = id with
  | none => 0
  | some account => account.reserved side

/-- Both gateways show the same accounts, and the reference gateway is consistent. -/
structure Alike (engine : ModelEngine) (gateway : Gateway ACCOUNTS RISK_ORDERS LEVELS ORDERS_PER_LEVEL) :
    Prop where
  snapshots : ∀ id, gateway.risk.accountSnapshot id = .ok (engine.accountView id)
  totals : ∀ id side, engine.reservedTotal id side = storedTotal gateway.risk id side
  consistent : engine.assertConsistent = .ok ()

/-- Both gateways answer every command of a run alike, and are alike around it. -/
def Agree : List Command → ModelEngine → Gateway ACCOUNTS RISK_ORDERS LEVELS ORDERS_PER_LEVEL →
    ReportBuffer REPORTS → Prop
  | [], engine, gateway, _ => Alike engine gateway
  | command :: commands, engine, gateway, reports =>
    Alike engine gateway ∧ ∃ answer engine' result gateway' reports',
      engine.apply REPORTS command = .ok (answer, engine') ∧
      gateway.processCommand command reports = .ok (result, gateway', reports') ∧
      answerOf result reports'.entries = some answer ∧ Agree commands engine' gateway' reports'

/-! ## What the reference gateway affords -/

/-- The notional and position limits let an order grow. -/
def ModelAccount.AdmitsIncrease (account : ModelAccount) (side : Side) (price : PriceTicks)
    (added newTotal : Quantity) : Prop :=
  |price.val| * newTotal.val ≤ account.limits.maxNotional.val ∧
    account.settledPosition.val + (account.reservedBuys.val + onSide side .buy added.val) ≤
      account.limits.maxAbsPosition.val ∧
    -account.limits.maxAbsPosition.val ≤
      account.settledPosition.val - (account.reservedSells.val + onSide side .sell added.val)

instance (account : ModelAccount) (side : Side) (price : PriceTicks) (added newTotal : Quantity) :
    Decidable (account.AdmitsIncrease side price added newTotal) :=
  inferInstanceAs (Decidable (_ ∧ _ ∧ _))

/-- An amendment that an account asks for its own order does not exceed the limits of the account. -/
def ModelEngine.Affords (engine : ModelEngine) : Command → Prop
  | .replaceOrder replace =>
    ∀ r ∈ engine.reservations.get replace.orderId, ∀ account ∈ engine.accounts.get replace.accountId,
      r.accountId = replace.accountId → r.remaining.val < replace.quantity.val →
        account.AdmitsIncrease r.side replace.price (Unsigned.monus replace.quantity r.remaining)
          replace.quantity
  | _ => True

instance (engine : ModelEngine) : DecidablePred engine.Affords
  | .newOrder _ => .isTrue trivial
  | .cancelOrder _ => .isTrue trivial
  | .replaceOrder replace => inferInstanceAs (Decidable (∀ r ∈ engine.reservations.get replace.orderId, _))

/-- A step on which the reference gateway can be relied on. -/
def Reliable (step : ModelEngine × Command) : Prop :=
  step.2.sequence ≠ Unsigned.maxValue 64 ∧ step.1.Affords step.2

instance : DecidablePred Reliable := fun _ ↦ inferInstanceAs (Decidable (_ ∧ _))

/-! ## Registration -/

/-- No kill switch is set. -/
def Live (risk : RiskEngineState) : Prop :=
  risk.killed = false ∧ ∀ account ∈ risk.accounts, account.killed = false

section Registration

variable {engine : ModelEngine} {risk risk' : RiskEngine ACCOUNTS RISK_ORDERS}
    {state state' : RiskEngineState}
  {id : AccountId} {limits : RiskLimits}

theorem Live.registerAccount (h : Live state)
    (hok : state.registerAccount ACCOUNTS id limits = .ok ((), state')) : Live state' := by
  obtain ⟨_, _, rfl⟩ := RiskEngineState.registerAccount_eq_ok hok
  refine ⟨h.1, fun account hmem ↦ ?_⟩
  rcases (List.mem_orderedInsert _).mp hmem with rfl | hmem
  · rfl
  · exact h.2 account hmem

/-- An account that is accepted is registered alike. -/
theorem Keeps.registerAccount (h : Keeps engine.accounts engine.reservations state)
    (hconsistent : state.Consistent) (hok : state.registerAccount ACCOUNTS id limits = .ok ((), state')) :
    ∃ accounts, engine.registerAccount id (.of limits) = .ok { engine with accounts := accounts } ∧
      Keeps accounts engine.reservations state' := by
  have hordered' : state'.Ordered := (hconsistent.registerAccount hok).1.ordered
  obtain ⟨_, hnew, rfl⟩ := RiskEngineState.registerAccount_eq_ok hok
  have hvacant : engine.accounts.get id = none := by
    rw [h.accounts, hnew]
    rfl
  refine ⟨engine.accounts.insert id (.of ⟨id, limits, Signed.zero 128, 0, 0, 0, false⟩),
    ?_, ?_, h.reservations⟩
  · unfold ModelEngine.registerAccount
    rw [hvacant, Option.isNone_none, require_true, Run.ok_bind]
    rfl
  · intro other
    rw [OrderedMap.get_insert]
    by_cases heq : other = id
    · subst heq
      rw [if_pos rfl, hordered'.account?_eq_some.mpr ⟨(List.mem_orderedInsert _).mpr (.inl rfl), rfl⟩]
      rfl
    · rw [if_neg heq, h.accounts]
      congr 1
      ext account
      rw [hconsistent.ordered.account?_eq_some, hordered'.account?_eq_some, List.mem_orderedInsert]
      constructor
      · rintro ⟨hmem, hid⟩
        exact ⟨.inr hmem, hid⟩
      · rintro ⟨rfl | hmem, hid⟩
        · exact absurd hid.symm heq
        · exact ⟨hmem, hid⟩

/-- Accounts that the risk engine accepts are registered alike. -/
theorem Keeps.registerAll (hA : ACCOUNTS * indexPlanes ≤ 2 ^ 32) (accounts : List (AccountId × RiskLimits))
    (h : Keeps engine.accounts engine.reservations state) (hrep : risk.Represents state)
    (hunused : state.Unused) (hlive : Live state) (hrun : registerAll accounts risk = .ok (.ok risk')) :
    ∃ registered state', engine.registerAll accounts = .ok { engine with accounts := registered } ∧
      Keeps registered engine.reservations state' ∧ risk'.Represents state' ∧
        state'.Unused ∧ Live state' := by
  induction accounts generalizing engine risk state with
  | nil =>
    obtain rfl := Except.ok.inj (Except.ok.inj hrun)
    exact ⟨engine.accounts, state, rfl, h, hrep, hunused, hlive⟩
  | cons account accounts ih =>
    obtain ⟨id, limits⟩ := account
    have himplements := hrep.registerAccount hA id limits
    unfold Model.registerAll at hrun
    cases hspec : state.registerAccount ACCOUNTS id limits with
    | error reason =>
      rw [himplements.of_error hspec, Run.ok_bind] at hrun
      cases Except.ok.inj hrun
    | ok outcome =>
      obtain ⟨_, state₁⟩ := outcome
      obtain ⟨risk₁, hrun₁, hrep₁⟩ := himplements.of_ok hspec
      rw [hrun₁, Run.ok_bind] at hrun
      obtain ⟨accounts₁, hregister, h₁⟩ := h.registerAccount hunused.consistent hspec
      let engine₁ : ModelEngine := { engine with accounts := accounts₁ }
      have h₁ : Keeps engine₁.accounts engine₁.reservations state₁ := h₁
      obtain ⟨registered, state', hregistered, h'⟩ :=
        ih h₁ hrep₁ (hunused.registerAccount hspec) (hlive.registerAccount hspec) hrun
      refine ⟨registered, state', ?_, h'⟩
      unfold ModelEngine.registerAll
      rw [hregister, Run.ok_bind]
      exact hregistered

end Registration

/-! ## Both gateways between two commands -/

theorem storedTotal_eq {risk : RiskEngine ACCOUNTS RISK_ORDERS} {state : RiskEngineState}
    (h : risk.Represents state) (hordered : state.Ordered) (id : AccountId) (side : Side) :
    storedTotal risk id side = ((state.account? id).map fun account ↦ account.reserved side).getD 0 := by
  have hperm := h.registered_perm
  have hnodup : (risk.registered.map AccountRiskState.id).Nodup :=
    (hperm.map _).nodup_iff.mpr hordered.ids_nodup
  have hfind : (risk.registered.find? fun account ↦ account.id = id) = state.account? id := by
    ext account
    rw [KeyOrder.find?_eq_some hnodup, hordered.account?_eq_some, hperm.mem_iff]
  unfold storedTotal
  rw [hfind]
  cases state.account? id <;> rfl

/-- The state of both gateways between two commands. -/
structure InStep (engine : ModelEngine) (gateway : Gateway ACCOUNTS RISK_ORDERS LEVELS ORDERS_PER_LEVEL)
    (logical : Logical.Gateway) : Prop where
  represents : gateway.Represents logical
  invariant : logical.Invariant LEVELS ORDERS_PER_LEVEL
  live : Live logical.risk
  tracks : Tracks LEVELS ORDERS_PER_LEVEL engine logical

namespace InStep

variable {engine : ModelEngine} {gateway : Gateway ACCOUNTS RISK_ORDERS LEVELS ORDERS_PER_LEVEL}
  {logical : Logical.Gateway}

theorem alike (h : InStep engine gateway logical) (hA : ACCOUNTS * indexPlanes ≤ 2 ^ 32) :
    Alike engine gateway := by
  have hconsistent := h.invariant.risk
  refine ⟨fun id ↦ ?_, fun id side ↦ ?_, ?_⟩
  · rw [h.represents.risk.accountSnapshot hA, h.tracks.kept.accountView]
  · rw [h.tracks.kept.reservedTotal, storedTotal_eq h.represents.risk hconsistent.ordered]
  · refine h.tracks.kept.assertConsistent hconsistent h.tracks.book h.live.2
      (fun entry hentry ↦ ?_) fun r hr ↦ ?_
    · exact h.invariant.backed.mem_iff.mpr (List.mem_map_of_mem hentry)
    · obtain ⟨entry, hentry, rfl⟩ := h.invariant.backed_entry hr
      exact h.invariant.book.compatible.quantity_pos entry hentry

/-- Freshly registered gateways are in step. -/
theorem start (hc : Capacities ACCOUNTS RISK_ORDERS LEVELS ORDERS_PER_LEVEL)
    {accounts : List (AccountId × RiskLimits)} {risk : RiskEngine ACCOUNTS RISK_ORDERS}
    (hrun : registerAll accounts (RiskEngine.new ACCOUNTS RISK_ORDERS) = .ok (.ok risk))
    (instrument : InstrumentId) :
    ∃ engine logical, (ModelEngine.new instrument LEVELS ORDERS_PER_LEVEL).registerAll accounts = .ok engine ∧
      InStep engine (Gateway.new risk instrument : Gateway ACCOUNTS RISK_ORDERS LEVELS ORDERS_PER_LEVEL)
        logical ∧ logical.expectedSequence = 1 ∧ logical.book.instrument = instrument := by
  have hkeeps : Keeps (ModelEngine.new instrument LEVELS ORDERS_PER_LEVEL).accounts
      (ModelEngine.new instrument LEVELS ORDERS_PER_LEVEL).reservations .empty := ⟨fun _ ↦ rfl, fun _ ↦ rfl⟩
  have hunused : RiskEngineState.empty.Unused := ⟨.empty, rfl, rfl, by simp [RiskEngineState.empty]⟩
  have hlive : Live .empty := ⟨rfl, by simp [RiskEngineState.empty]⟩
  obtain ⟨registered, state, hregistered, hkept, hrep, hunused, hlive⟩ :=
    hkeeps.registerAll hc.accounts accounts (RiskEngine.Represents.new ..) hunused hlive hrun
  refine ⟨_, Logical.Gateway.new state instrument, hregistered, ⟨⟨hrep, OrderBook.Represents.new instrument,
    rfl, rfl⟩, hunused.invariant LEVELS ORDERS_PER_LEVEL instrument, hlive, rfl, rfl,
      rfl, ?_, hkept, rfl, rfl⟩,
    rfl, rfl⟩
  intro side
  cases side <;> exact List.Perm.refl _

end InStep

/-! ## One command -/

/-- A command keeps the instrument and the sequence that is expected next. -/
theorem dispatch_frame (logical : Logical.Gateway) (RISK_ORDERS LEVELS ORDERS capacity : ℕ)
    (command : Command) :
    (logical.dispatch RISK_ORDERS LEVELS ORDERS capacity command).2.1.book.instrument =
        logical.book.instrument ∧
      (logical.dispatch RISK_ORDERS LEVELS ORDERS capacity command).2.1.expectedSequence =
        logical.expectedSequence := by
  have hrelease (logical : Logical.Gateway) (orderId : OrderId) (result : Logical.Gateway.Result) :
      (logical.release orderId result).2.book = logical.book ∧
        (logical.release orderId result).2.expectedSequence = logical.expectedSequence := by
    unfold Logical.Gateway.release
    split <;> exact ⟨rfl, rfl⟩
  cases command with
  | newOrder order =>
    unfold Logical.Gateway.dispatch Logical.Gateway.processNewOrder
    dsimp only
    split
    · exact ⟨rfl, rfl⟩
    split
    · exact ⟨rfl, rfl⟩
    split
    · rw [(hrelease ..).1, (hrelease ..).2]
      exact ⟨rfl, rfl⟩
    next summary fills book hsubmit =>
    have hbook : book.instrument = logical.book.instrument := submit_instrument hsubmit
    split
    · exact ⟨hbook, rfl⟩
    split
    · rw [(hrelease ..).1, (hrelease ..).2]
      exact ⟨hbook, rfl⟩
    · exact ⟨hbook, rfl⟩
  | cancelOrder cancel =>
    unfold Logical.Gateway.dispatch Logical.Gateway.processCancel
    dsimp only
    split
    · exact ⟨rfl, rfl⟩
    split
    · exact ⟨rfl, rfl⟩
    next cancelled book hcancel =>
    have hbook : book.instrument = logical.book.instrument := cancel_instrument hcancel
    split <;> exact ⟨hbook, rfl⟩
  | replaceOrder replace =>
    unfold Logical.Gateway.dispatch Logical.Gateway.processReplace
    dsimp only
    split
    · exact ⟨rfl, rfl⟩
    split
    · next replaced book hreplace => exact ⟨replace_instrument hreplace, rfl⟩
    split <;> exact ⟨rfl, rfl⟩

section Command

variable {engine : ModelEngine} {gateway : Gateway ACCOUNTS RISK_ORDERS LEVELS ORDERS_PER_LEVEL}
  {logical : Logical.Gateway} {command : Command} {capacity : ℕ}

theorem Agrees.map {A : Type} {wrap : A → ModelOutcome} {run : Run (Except ModelRejection A × ModelEngine)}
    {outcome : Logical.Gateway.Result × Logical.Gateway × List ExecutionReport}
    (h : Agrees LEVELS ORDERS_PER_LEVEL wrap run outcome) :
    ∃ answer engine', run.map (fun outcome ↦ (outcome.1.map wrap, outcome.2)) = .ok (answer, engine') ∧
      answerOf outcome.1 outcome.2.2 = some answer ∧
      Tracks LEVELS ORDERS_PER_LEVEL engine' outcome.2.1 := by
  obtain ⟨answer, engine', rfl, hanswer, htracks⟩ := h
  exact ⟨answer.map wrap, engine', rfl, hanswer, htracks⟩

/-- Both gateways answer an admitted command alike, unless the limits refuse a larger amendment. -/
theorem Tracks.apply (h : Tracks LEVELS ORDERS_PER_LEVEL engine logical) (hO : 0 < ORDERS_PER_LEVEL)
    (hinvariant : logical.Invariant LEVELS ORDERS_PER_LEVEL) (hlive : Live logical.risk)
    (hwell : WellFormed logical.book.instrument command)
    (hsequence : command.sequence = logical.expectedSequence)
    {next : SequenceNumber} (hnext : next.val = logical.expectedSequence.val + 1)
    {outcome : Logical.Gateway.Result × Logical.Gateway × List ExecutionReport}
    (hdispatch : { logical with expectedSequence := next }.dispatch RISK_ORDERS LEVELS ORDERS_PER_LEVEL
      capacity command = outcome)
    (hroom : outcome.1 ≠ .error (.risk .orderCapacity))
    (hgranted : ∀ replace, command = .replaceOrder replace → ∀ reason r account,
      ¬ Refused logical.risk replace reason r account) :
    ∃ answer engine', engine.apply capacity command = .ok (answer, engine') ∧
      answerOf outcome.1 outcome.2.2 = some answer ∧
      Tracks LEVELS ORDERS_PER_LEVEL engine' outcome.2.1 := by
  subst hdispatch
  obtain ⟨hadvance, htracks⟩ := h.advance hsequence hnext
  have hready := hinvariant.ready hnext
  rw [← hsequence] at hready
  obtain ⟨hinstrument, hpositive⟩ := hwell
  cases command with
  | newOrder order =>
    have hagrees := htracks.receiveNew hO hready hlive.1 hinstrument hpositive.2 hroom
    rw [← ModelEngine.applyNew_of_advance hadvance] at hagrees
    exact hagrees.map
  | cancelOrder cancel =>
    have hagrees := htracks.receiveCancel hready hinstrument
    rw [← ModelEngine.applyCancel_of_advance hadvance] at hagrees
    exact hagrees.map
  | replaceOrder replace =>
    have hagrees := htracks.receiveReplace hO hready hinstrument hpositive.1 hpositive.2
      (hgranted replace rfl)
    rw [← ModelEngine.applyReplace_of_advance hadvance] at hagrees
    exact hagrees.map

theorem admitsIncrease_of (account : AccountRiskState) (side : Side) {price : PriceTicks}
    (hprice : 0 < price.val) (added newTotal : Quantity) :
    (ModelAccount.of account).AdmitsIncrease side price added newTotal ↔
      account.AdmitsIncrease side price added newTotal := by
  have hmaximum : (ModelAccount.of account).limits.maxAbsPosition.val = account.limits.maxAbsPosition.val :=
    signed_val account.limits.maxAbsPosition
  unfold ModelAccount.AdmitsIncrease AccountRiskState.AdmitsIncrease
  rw [hmaximum]
  constructor
  · intro hadmits
    exact ⟨by omega, hadmits⟩
  · rintro ⟨_, hadmits⟩
    exact hadmits

/-- The reference gateway affords the amendments that the limits do not refuse. -/
theorem Tracks.affords_iff (h : Tracks LEVELS ORDERS_PER_LEVEL engine logical)
    (hbalanced : logical.risk.Balanced) {replace : ReplaceOrder} (hprice : 0 < replace.price.val) :
    engine.Affords (.replaceOrder replace) ↔
      ∀ reason r account, ¬ Refused logical.risk replace reason r account := by
  constructor
  · rintro haffords reason r account ⟨hlookup, howner, haccount, hlt, hrefused⟩
    have hadmits := (admitsIncrease_of account r.side hprice _ _).mp
      (haffords _ (h.kept.get_reservation hlookup)
      _ (h.kept.get_account haccount) howner hlt)
    obtain ⟨_, hgranted, _⟩ := hbalanced.evaluateIncrease_of_admits
      (hbalanced.ordered.account?_eq_some.mp haccount).1 hadmits
    cases hrefused.symm.trans hgranted
  · intro hgranted r' hr' account' haccount' howner hlt
    rw [h.kept.reservations] at hr'
    rw [h.kept.accounts] at haccount'
    obtain ⟨r, hlookup, rfl⟩ := Option.map_eq_some_iff.mp hr'
    obtain ⟨account, haccount, rfl⟩ := Option.map_eq_some_iff.mp haccount'
    refine (admitsIncrease_of account r.side hprice _ _).mpr ?_
    cases hincrease : evaluateIncrease account r.side replace.price
      (Unsigned.monus replace.quantity r.quantity)
        replace.quantity with
    | error reason => exact absurd ⟨hlookup, howner, haccount, hlt, hincrease⟩ (hgranted reason r account)
    | ok totals => exact RiskEngineState.admitsIncrease_of_ok hincrease

theorem Live.of_controls {logical' : Logical.Gateway} (h : Live logical.risk)
    (hcontrols : logical.SameControls logical') : Live logical'.risk := by
  refine ⟨hcontrols.1.trans h.1, fun account' hmem' ↦ ?_⟩
  have hprofile := List.mem_map_of_mem (f := AccountRiskState.profile) hmem'
  rw [hcontrols.2] at hprofile
  obtain ⟨account, hmem, heq⟩ := List.mem_map.mp hprofile
  have hkilled : account.killed = account'.killed := congrArg (fun profile ↦ profile.2.2) heq
  rw [← hkilled]
  exact h.2 account hmem

/-- On a reliable step both gateways answer alike and stay in step. -/
theorem InStep.reliable (hc : Capacities ACCOUNTS RISK_ORDERS LEVELS ORDERS_PER_LEVEL)
    (h : InStep engine gateway logical) (hwell : WellFormed logical.book.instrument command)
    (hsequence : command.sequence = logical.expectedSequence) (reports : ReportBuffer REPORTS)
    (hroom : ∀ result gateway' reports', gateway.processCommand command reports =
      .ok (result, gateway', reports') → result ≠ .error (.risk .orderCapacity))
    (hreliable : Reliable (engine, command)) :
    ∃ answer engine' result gateway' reports' logical',
      engine.apply REPORTS command = .ok (answer, engine') ∧
      gateway.processCommand command reports = .ok (result, gateway', reports') ∧
      answerOf result reports'.entries = some answer ∧ InStep engine' gateway' logical' ∧
      logical'.expectedSequence.val = command.sequence.val + 1 ∧
      logical'.book.instrument = logical.book.instrument := by
  obtain ⟨gateway', reports', hrun, hrep, hentries⟩ := h.represents.processCommand hc command reports
  have hstep := h.invariant.processCommand hc.orders RISK_ORDERS REPORTS command
  have hroom := hroom _ _ _ hrun
  obtain ⟨hunexhausted, haffords⟩ := hreliable
  have hprocess : ∃ next : SequenceNumber, next.val = logical.expectedSequence.val + 1 ∧
      logical.processCommand RISK_ORDERS LEVELS ORDERS_PER_LEVEL REPORTS command =
        { logical with expectedSequence := next }.dispatch RISK_ORDERS LEVELS ORDERS_PER_LEVEL REPORTS
          command := by
    unfold Logical.Gateway.processCommand
    rcases Logical.Gateway.checkSequence_cases logical.expectedSequence command.sequence with
      ⟨hne, _⟩ | ⟨_, hmaximum, _⟩ | ⟨next, _, hnext, hcheck⟩
    · exact absurd hsequence hne
    · exact absurd (hsequence.trans hmaximum) hunexhausted
    · exact ⟨next, hnext, by rw [hcheck]⟩
  obtain ⟨next, hnext, hprocess⟩ := hprocess
  have hgranted : ∀ replace, command = .replaceOrder replace → ∀ reason r account,
      ¬ Refused logical.risk replace reason r account := by
    rintro replace rfl
    exact (h.tracks.affords_iff h.invariant.risk.balanced hwell.2.1).mp haffords
  obtain ⟨answer, engine', happly, hanswer, htracks⟩ := h.tracks.apply hc.orders h.invariant h.live hwell
    hsequence hnext hprocess.symm hroom hgranted
  obtain ⟨hinstrument, hexpected⟩ := dispatch_frame { logical with expectedSequence := next } RISK_ORDERS
    LEVELS ORDERS_PER_LEVEL REPORTS command
  rw [← hprocess] at hinstrument hexpected
  rw [← hentries] at hanswer
  refine ⟨answer, engine', _, gateway', reports', _, happly, hrun, hanswer, ⟨hrep,
    hstep.invariant h.invariant, h.live.of_controls hstep.controls, htracks⟩, ?_, hinstrument⟩
  rw [hexpected, hsequence]
  exact hnext

/-- After a refused amendment the reserved totals differ. -/
theorem InStep.refuse (hc : Capacities ACCOUNTS RISK_ORDERS LEVELS ORDERS_PER_LEVEL)
    (h : InStep engine gateway logical) {replace : ReplaceOrder} {reason : RejectReason}
    {r : ReservationRiskState} {account : AccountRiskState}
    (hrefused : Refused logical.risk replace reason r account)
    (hsequence : replace.sequence = logical.expectedSequence) {next : SequenceNumber}
    (hnext : next.val = logical.expectedSequence.val + 1) (reports : ReportBuffer REPORTS)
    {answer : ModelAnswer}
    {engine' : ModelEngine} {result : Except GatewayError GatewayOutcome}
    {gateway' : Gateway ACCOUNTS RISK_ORDERS LEVELS ORDERS_PER_LEVEL} {reports' : ReportBuffer REPORTS}
    (hcheck : DeterministicExchange.Gateway.checkSequence logical.expectedSequence
      replace.sequence = .ok next)
    (happly : engine.apply REPORTS (.replaceOrder replace) = .ok (answer, engine'))
    (hrun : gateway.processCommand (.replaceOrder replace) reports = .ok (result, gateway', reports')) :
    engine'.reservedTotal replace.accountId r.side ≠ storedTotal gateway'.risk replace.accountId r.side := by
  obtain ⟨hadvance, htracks⟩ := h.tracks.advance hsequence hnext
  have hready := h.invariant.ready hnext
  obtain ⟨total, hraised, hprocess, hreceive⟩ := htracks.refuseReplace hready.invariant hrefused
  have hengine : engine' = { engine with
      nextSequence := next
      accounts := engine.accounts.insert replace.accountId
        ((ModelAccount.of account).setReserved r.side total) } := by
    have happly : (engine.applyReplace replace).map _ = _ := happly
    rw [ModelEngine.applyReplace_of_advance hadvance, hreceive] at happly
    exact (congrArg Prod.snd (Except.ok.inj happly)).symm
  obtain ⟨gateway₁, reports₁, hrun₁, hrep, _⟩ :=
    h.represents.processCommand hc (.replaceOrder replace) reports
  obtain rfl : gateway₁ = gateway' :=
    congrArg (fun outcome ↦ outcome.2.1) (Except.ok.inj (hrun₁.symm.trans hrun))
  have hlogical : (logical.processCommand RISK_ORDERS LEVELS ORDERS_PER_LEVEL REPORTS
      (.replaceOrder replace)).2.1 = { logical with expectedSequence := next } := by
    unfold Logical.Gateway.processCommand
    have hcheck' : DeterministicExchange.Gateway.checkSequence logical.expectedSequence
      (Command.replaceOrder replace).sequence = .ok next := hcheck
    rw [hcheck']
    exact congrArg Prod.snd hprocess
  rw [hlogical] at hrep
  have hgrown : (account.reserved r.side).val < total.val := by
    have hlarger := hrefused.larger
    omega
  have hstored : storedTotal gateway₁.risk replace.accountId r.side = account.reserved r.side := by
    rw [storedTotal_eq hrep.risk h.invariant.risk.ordered]
    have hlookup : RiskEngineState.account? logical.risk replace.accountId = some account :=
      hrefused.registered
    dsimp only
    rw [hlookup]
    rfl
  have hmodel : engine'.reservedTotal replace.accountId r.side = total := by
    unfold ModelEngine.reservedTotal
    rw [hengine, OrderedMap.get_insert, if_pos rfl]
    cases r.side <;> rfl
  rw [hstored, hmodel]
  intro heq
  rw [heq] at hgrown
  exact lt_irrefl _ hgrown

/-- On any other step both gateways differ in their answers or afterwards. -/
theorem InStep.unreliable (hc : Capacities ACCOUNTS RISK_ORDERS LEVELS ORDERS_PER_LEVEL)
    (h : InStep engine gateway logical) (hwell : WellFormed logical.book.instrument command)
    (hsequence : command.sequence = logical.expectedSequence) (reports : ReportBuffer REPORTS)
    (hunreliable : ¬ Reliable (engine, command)) {answer : ModelAnswer} {engine' : ModelEngine}
    {result : Except GatewayError GatewayOutcome}
    {gateway' : Gateway ACCOUNTS RISK_ORDERS LEVELS ORDERS_PER_LEVEL} {reports' : ReportBuffer REPORTS}
    (happly : engine.apply REPORTS command = .ok (answer, engine'))
    (hrun : gateway.processCommand command reports = .ok (result, gateway', reports'))
    (hanswer : answerOf result reports'.entries = some answer) : ¬ Alike engine' gateway' := by
  rcases Logical.Gateway.checkSequence_cases logical.expectedSequence command.sequence with
    ⟨hne, _⟩ | ⟨_, _, hcheck⟩ | ⟨next, _, hnext, hcheck⟩
  · exact absurd hsequence hne
  · have hexhausted : gateway.processCommand command reports =
        .ok (.error (.riskState .arithmeticOverflow), gateway, reports.clear) := by
      unfold DeterministicExchange.Gateway.processCommand
      rw [h.represents.expectedSequence, hcheck]
    obtain ⟨rfl, -⟩ := Prod.mk.inj (Except.ok.inj (hrun.symm.trans hexhausted))
    cases hanswer
  · have hunexhausted : command.sequence ≠ Unsigned.maxValue 64 := by
      intro heq
      have hvalue : command.sequence.val = 2 ^ 64 - 1 := congrArg Fin.val heq
      have hlt := next.isLt
      rw [hsequence] at hvalue
      omega
    have hdear : ¬ engine.Affords command := fun haffords ↦ hunreliable ⟨hunexhausted, haffords⟩
    cases command with
    | newOrder order => exact absurd trivial hdear
    | cancelOrder cancel => exact absurd trivial hdear
    | replaceOrder replace =>
      rw [h.tracks.affords_iff h.invariant.risk.balanced hwell.2.1] at hdear
      push Not at hdear
      obtain ⟨reason, r, account, hrefused⟩ := hdear
      intro halike
      exact h.refuse hc hrefused hsequence hnext reports hcheck happly hrun (halike.totals _ _)

end Command

/-! ## Runs of commands -/

section Commands

variable {engine : ModelEngine} {gateway : Gateway ACCOUNTS RISK_ORDERS LEVELS ORDERS_PER_LEVEL}
  {logical : Logical.Gateway} {commands : List Command} {reports : ReportBuffer REPORTS}

theorem Agree.alike (h : Agree commands engine gateway reports) : Alike engine gateway := by
  cases commands with
  | nil => exact h
  | cons command commands => exact h.1

/-- From gateways in step, a run agrees exactly when each of its steps is reliable. -/
theorem InStep.agree_iff (hc : Capacities ACCOUNTS RISK_ORDERS LEVELS ORDERS_PER_LEVEL)
    (h : InStep engine gateway logical)
    (hwell : ∀ command ∈ commands, WellFormed logical.book.instrument command)
    (horder : commands.map (fun command ↦ command.sequence.val) =
      List.range' logical.expectedSequence.val commands.length)
    (hroom : ∀ result ∈ results commands gateway reports, result ≠ .error (.risk .orderCapacity)) :
    Agree commands engine gateway reports ↔ ∀ step ∈ engine.steps REPORTS commands, Reliable step := by
  induction commands generalizing engine gateway logical reports with
  | nil => exact ⟨fun _ _ hstep ↦ absurd hstep List.not_mem_nil, fun _ ↦ h.alike hc.accounts⟩
  | cons command commands ih =>
    rw [List.map_cons, List.length_cons, List.range'_succ, List.cons.injEq] at horder
    obtain ⟨hfirst, hrest⟩ := horder
    have hsequence : command.sequence = logical.expectedSequence := Fin.ext hfirst
    have hwellFirst := hwell command List.mem_cons_self
    by_cases hreliable : Reliable (engine, command)
    · have hfits : ∀ result gateway' reports', gateway.processCommand command reports =
          .ok (result, gateway', reports') → result ≠ .error (.risk .orderCapacity) := by
        intro result gateway' reports' hrun
        apply hroom
        unfold results
        rw [hrun]
        exact List.mem_cons_self
      obtain ⟨answer, engine', result, gateway', reports', logical', happly, hrun, hanswer, hnext, hexpected,
        hinstrument⟩ := h.reliable hc hwellFirst hsequence reports hfits hreliable
      have hsteps : engine.steps REPORTS (command :: commands) =
          (engine, command) :: engine'.steps REPORTS commands := by
        rw [ModelEngine.steps, happly]
      have hagree : Agree (command :: commands) engine gateway reports ↔
          Agree commands engine' gateway' reports' := by
        constructor
        · rintro ⟨_, answer₁, engine₁, result₁, gateway₁, reports₁, happly₁, hrun₁, _, hagree⟩
          obtain ⟨-, rfl⟩ := Prod.mk.inj (Except.ok.inj (happly.symm.trans happly₁))
          obtain ⟨-, hrun⟩ := Prod.mk.inj (Except.ok.inj (hrun.symm.trans hrun₁))
          obtain ⟨rfl, rfl⟩ := Prod.mk.inj hrun
          exact hagree
        · intro hagree
          exact ⟨h.alike hc.accounts, answer, engine', result, gateway', reports',
            happly, hrun, hanswer, hagree⟩
      have hwellRest : ∀ command ∈ commands, WellFormed logical'.book.instrument command := by
        rw [hinstrument]
        exact fun command hmem ↦ hwell command (List.mem_cons_of_mem _ hmem)
      have hroomRest : ∀ result ∈ results commands gateway' reports',
          result ≠ .error (.risk .orderCapacity) := by
        intro result hmem
        apply hroom
        unfold results
        rw [hrun]
        exact List.mem_cons_of_mem _ hmem
      rw [← hfirst, ← hexpected] at hrest
      rw [hagree, hsteps, List.forall_mem_cons, ih hnext hwellRest hrest hroomRest]
      exact ⟨fun hsteps ↦ ⟨hreliable, hsteps⟩, And.right⟩
    · constructor
      · rintro ⟨_, answer, engine', result, gateway', reports', happly, hrun, hanswer, hagree⟩
        exact absurd hagree.alike (h.unreliable hc hwellFirst hsequence reports hreliable happly hrun hanswer)
      · intro hsteps
        refine absurd (hsteps _ ?_) hreliable
        unfold ModelEngine.steps
        exact List.mem_cons_self

/-- The reference gateway is a correct oracle exactly for the runs whose steps are reliable. -/
theorem oracle_iff (hc : Capacities ACCOUNTS RISK_ORDERS LEVELS ORDERS_PER_LEVEL)
    {accounts : List (AccountId × RiskLimits)} {risk : RiskEngine ACCOUNTS RISK_ORDERS}
    (hregistered : registerAll accounts (RiskEngine.new ACCOUNTS RISK_ORDERS) = .ok (.ok risk))
    (instrument : InstrumentId) (commands : List Command) (reports : ReportBuffer REPORTS)
    (hwell : ∀ command ∈ commands, WellFormed instrument command)
    (horder : commands.map (fun command ↦ command.sequence.val) = List.range' 1 commands.length)
    (hroom : ∀ result ∈ results commands
      (Gateway.new risk instrument : Gateway ACCOUNTS RISK_ORDERS LEVELS ORDERS_PER_LEVEL) reports,
      result ≠ .error (.risk .orderCapacity)) :
    ∃ engine, (ModelEngine.new instrument LEVELS ORDERS_PER_LEVEL).registerAll accounts = .ok engine ∧
      (Agree commands engine
          (Gateway.new risk instrument : Gateway ACCOUNTS RISK_ORDERS LEVELS ORDERS_PER_LEVEL) reports ↔
        ∀ step ∈ engine.steps REPORTS commands, Reliable step) := by
  obtain ⟨engine, logical, hengine, hstep, hexpected, rfl⟩ := InStep.start hc hregistered instrument
  refine ⟨engine, hengine, hstep.agree_iff hc hwell ?_ hroom⟩
  rw [hexpected]
  exact horder

end Commands

/-! ## Two runs

An account with a position limit of ten amends its order of five, within the limit and beyond it. -/

def sampleAccounts : List (AccountId × RiskLimits) := [(7, Gateway.sampleLimits)]

theorem sampleAccounts_registered :
    registerAll sampleAccounts (RiskEngine.new 1 1) = .ok (.ok Gateway.sampleRisk) := by
  unfold sampleAccounts
  rw [registerAll, Run.eq_ok_get Gateway.sampleLimits_registered]
  rfl

def sampleGrowth : Command := .replaceOrder ⟨1, 7, 1, 2, ⟨40, by decide⟩, 8⟩

def sampleOvergrowth : Command := .replaceOrder ⟨1, 7, 1, 2, ⟨40, by decide⟩, 20⟩

theorem sampleEngine_registers :
    ((ModelEngine.new 1 1 1).registerAll sampleAccounts).toOption.isSome = true := by decide

def sampleEngine : ModelEngine :=
  ((ModelEngine.new 1 1 1).registerAll sampleAccounts).toOption.get sampleEngine_registers

theorem sampleGrowth_agrees :
    Agree [Gateway.sampleOrder, sampleGrowth] sampleEngine Gateway.sampleStart (ReportBuffer.new 1) := by
  have hc : Capacities 1 1 1 1 := ⟨by decide, by decide, by decide, by decide⟩
  obtain ⟨engine, hengine, hiff⟩ := oracle_iff hc sampleAccounts_registered 1
    [Gateway.sampleOrder, sampleGrowth] (ReportBuffer.new 1) (by decide) (by decide) (by decide)
  obtain rfl : engine = sampleEngine :=
    Except.ok.inj (hengine.symm.trans (Run.eq_ok_get sampleEngine_registers))
  exact hiff.mpr (by decide)

/-- The reserved total of the account and the check of the reference gateway after two commands. -/
def drift (command command' : Command) : Run (ModelAnswer × U128 × Run Unit) := do
  let (_, engine) ← sampleEngine.apply 1 command
  let (answer, engine) ← engine.apply 1 command'
  return (answer, engine.reservedTotal 7 .buy, engine.assertConsistent)

/-- The refused amendment is kept in the total of the account, which its reservation does not bear out. -/
theorem drift_sampleOvergrowth : drift Gateway.sampleOrder sampleOvergrowth =
    .ok (.error (.risk .positionLimit), 20, .error (.expect "buy reservation total")) := by decide

theorem sampleOvergrowth_disagrees :
    registerAll sampleAccounts (RiskEngine.new 1 1) = .ok (.ok Gateway.sampleRisk) ∧
      (ModelEngine.new 1 1 1).registerAll sampleAccounts = .ok sampleEngine ∧
      (∀ command ∈ [Gateway.sampleOrder, sampleOvergrowth], WellFormed 1 command) ∧
      [Gateway.sampleOrder, sampleOvergrowth].map (fun command ↦ command.sequence.val) = List.range' 1 2 ∧
      (∀ result ∈ results [Gateway.sampleOrder, sampleOvergrowth] Gateway.sampleStart (ReportBuffer.new 1),
        result ≠ .error (.risk .orderCapacity)) ∧
      ¬ Agree [Gateway.sampleOrder, sampleOvergrowth] sampleEngine Gateway.sampleStart
        (ReportBuffer.new 1) := by
  refine ⟨sampleAccounts_registered, Run.eq_ok_get sampleEngine_registers, by decide,
    by decide, by decide, ?_⟩
  rintro ⟨_, _, engine₁, _, _, _, happly, _, _, _, _, engine₂, _, _, _, happly', _, _, halike⟩
  have hdrift := drift_sampleOvergrowth
  unfold drift at hdrift
  rw [happly, Run.ok_bind] at hdrift
  dsimp only at hdrift
  rw [happly', Run.ok_bind] at hdrift
  have hfails : engine₂.assertConsistent = .error (.expect "buy reservation total") :=
    congrArg (fun outcome ↦ outcome.2.2) (Except.ok.inj hdrift)
  rw [halike.consistent] at hfails
  cases hfails

end DeterministicExchange.Model
