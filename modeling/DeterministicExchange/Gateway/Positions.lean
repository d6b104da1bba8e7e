import DeterministicExchange.Gateway.Trace
import DeterministicExchange.Ledger.Trades

/-!
# Positions are the trades

Every report of a trace is a trade between the account of the command and the
account of the order that created the maker. Settled positions are the positions of
these trades.
-/

namespace DeterministicExchange

open Machine Book Risk

namespace Logical.Gateway

variable {LEVELS ORDERS : ℕ} {gateway : Gateway} {command : Command} {order : NewOrder}
  {outcome : Result × Gateway × List ExecutionReport}

theorem AmendStep.kept {orderId : OrderId} {accountId : AccountId} {asked : List Entry → Prop}
    {outcome : Result × Gateway}
    (hstep : AmendStep LEVELS ORDERS gateway orderId accountId asked outcome)
    (hasked : ∀ new, asked new → ∀ entry ∈ new, entry.2.2.accountId = accountId) :
    (∀ id, outcome.2.risk.settled id = gateway.risk.settled id) ∧
      ∀ entry' ∈ outcome.2.book.entries, ∃ entry ∈ gateway.book.entries,
        entry.2.2.id = entry'.2.2.id ∧ entry.2.2.accountId = entry'.2.2.accountId := by
  cases hstep with
  | refused _ _ => exact ⟨fun _ ↦ rfl, fun entry' hentry' ↦ ⟨entry', hentry', rfl, rfl⟩⟩
  | unplaced _ _ => exact ⟨fun _ ↦ rfl, fun entry' hentry' ↦ ⟨entry', hentry', rfl, rfl⟩⟩
  | accepted _ after new hnew hamended =>
    refine ⟨hamended.settled, ?_⟩
    intro entry' hentry'
    by_cases hnamed : entry'.2.2.id = orderId
    · obtain ⟨entry, hentry, hid, haccount⟩ := hamended.target
      have hown := mem_own.mpr ⟨hentry', hnamed⟩
      rw [hamended.own] at hown
      exact ⟨entry, hentry, hid.trans hnamed.symm, haccount.trans (hasked new hnew entry' hown).symm⟩
    · have hothers := mem_others.mpr ⟨hentry', hnamed⟩
      rw [hamended.others] at hothers
      exact ⟨entry', (mem_others.mp hothers).1, rfl, rfl⟩

theorem AskedByReplace.accountId {replace : ReplaceOrder} {new : List Entry}
    (h : gateway.AskedByReplace replace new) :
    ∀ entry ∈ new, entry.2.2.accountId = replace.accountId := by
  obtain ⟨side, order', rfl, haccount, _⟩ := h
  intro entry hentry
  rw [List.mem_singleton.mp hentry]
  exact haccount

/-- Nothing but an accepted new order moves positions or adds orders. -/
theorem CommandStep.unmoved (hstep : CommandStep LEVELS ORDERS gateway command outcome)
    (hnot : ∀ order result, command = .newOrder order → outcome.1 ≠ .ok result) :
    (∀ id, outcome.2.1.risk.settled id = gateway.risk.settled id) ∧
      ∀ entry' ∈ outcome.2.1.book.entries, ∃ entry ∈ gateway.book.entries,
        entry.2.2.id = entry'.2.2.id ∧ entry.2.2.accountId = entry'.2.2.accountId := by
  have hsame (es : List Entry) : ∀ entry' ∈ es, ∃ entry ∈ es,
      entry.2.2.id = entry'.2.2.id ∧ entry.2.2.accountId = entry'.2.2.accountId :=
    fun entry' hentry' ↦ ⟨entry', hentry', rfl, rfl⟩
  cases hstep with
  | outOfSequence _ => exact ⟨fun _ ↦ rfl, hsame _⟩
  | exhausted _ _ => exact ⟨fun _ ↦ rfl, hsame _⟩
  | @newOrder admitted order _ hadmitted _ hcommand hstep =>
    rw [hadmitted.rest] at hstep
    cases hstep with
    | stale _ => exact ⟨fun _ ↦ rfl, hsame _⟩
    | refused _ _ => exact ⟨fun _ ↦ rfl, hsame _⟩
    | unplaced _ _ => exact ⟨fun _ ↦ rfl, hsame _⟩
    | accepted _ summary _ _ _ => exact absurd rfl (hnot order _ hcommand)
  | cancelOrder hadmitted _ _ hstep =>
    rw [hadmitted.rest] at hstep
    exact hstep.kept fun new hnew ↦ by simp [hnew]
  | replaceOrder hadmitted _ _ hstep =>
    rw [hadmitted.rest] at hstep
    exact hstep.kept fun _ hnew ↦ hnew.accountId

/-- The accounts, their limits and all kill switches are the same. -/
def SameControls (gateway gateway' : Gateway) : Prop :=
  gateway'.risk.killed = gateway.risk.killed ∧
    gateway'.risk.accounts.map AccountRiskState.profile = gateway.risk.accounts.map AccountRiskState.profile

theorem AmendStep.controls {orderId : OrderId} {accountId : AccountId} {asked : List Entry → Prop}
    {outcome : Result × Gateway}
    (hstep : AmendStep LEVELS ORDERS gateway orderId accountId asked outcome) :
    gateway.SameControls outcome.2 := by
  cases hstep with
  | refused _ _ => exact ⟨rfl, rfl⟩
  | unplaced _ _ => exact ⟨rfl, rfl⟩
  | accepted _ _ _ _ hamended => exact ⟨hamended.kept.killed, hamended.kept.profiles⟩

/-- Commands keep the accounts, their limits and all kill switches. -/
theorem CommandStep.controls (hstep : CommandStep LEVELS ORDERS gateway command outcome) :
    gateway.SameControls outcome.2.1 := by
  cases hstep with
  | outOfSequence _ => exact ⟨rfl, rfl⟩
  | exhausted _ _ => exact ⟨rfl, rfl⟩
  | newOrder hadmitted _ _ hstep =>
    rw [hadmitted.rest] at hstep
    cases hstep with
    | stale _ => exact ⟨rfl, rfl⟩
    | refused _ _ => exact ⟨rfl, rfl⟩
    | unplaced _ _ => exact ⟨rfl, rfl⟩
    | accepted _ _ _ _ htraded => exact ⟨htraded.kept.killed, htraded.kept.profiles⟩
  | cancelOrder hadmitted _ _ hstep =>
    rw [hadmitted.rest] at hstep
    exact hstep.controls
  | replaceOrder hadmitted _ _ hstep =>
    rw [hadmitted.rest] at hstep
    exact hstep.controls

/-- The registered account ids. -/
def accountIds (gateway : Gateway) : List AccountId := gateway.risk.accounts.map AccountRiskState.id

theorem CommandStep.accountIds (hstep : CommandStep LEVELS ORDERS gateway command outcome) :
    outcome.2.1.accountIds = gateway.accountIds := by
  have hprofiles := congrArg (List.map Prod.fst) hstep.controls.2
  rw [List.map_map, List.map_map] at hprofiles
  exact hprofiles

end Logical.Gateway

/-! ## Trades of a trace -/

namespace Gateway

variable {ACCOUNTS RISK_ORDERS LEVELS ORDERS_PER_LEVEL : ℕ}
  {start gateway : Gateway ACCOUNTS RISK_ORDERS LEVELS ORDERS_PER_LEVEL}
  {transitions : List (Transition ACCOUNTS RISK_ORDERS LEVELS ORDERS_PER_LEVEL)}

/-- The account of the order with this id, if the transition accepts it. -/
def Transition.creates (transition : Transition ACCOUNTS RISK_ORDERS LEVELS ORDERS_PER_LEVEL)
    (orderId : OrderId) : Option AccountId :=
  match transition.command, transition.result with
  | .newOrder order, .ok _ => if order.orderId = orderId then some order.accountId else none
  | _, _ => none

/-- The account of the accepted new order that created this id. -/
def creator (transitions : List (Transition ACCOUNTS RISK_ORDERS LEVELS ORDERS_PER_LEVEL))
    (orderId : OrderId) : Option AccountId :=
  transitions.findSome? fun transition ↦ transition.creates orderId

/-- The trade that a report of a command stands for. -/
def tradeOf (owner : OrderId → Option AccountId) (command : Command) (report : ExecutionReport) :
    Ledger.Trade (Option AccountId) :=
  match command with
  | .newOrder order =>
    match order.side with
    | .buy => ⟨some order.accountId, owner report.makerOrderId, report.quantity.val⟩
    | .sell => ⟨owner report.makerOrderId, some order.accountId, report.quantity.val⟩
  | _ => ⟨none, none, report.quantity.val⟩

def trades (owner : OrderId → Option AccountId)
    (transitions : List (Transition ACCOUNTS RISK_ORDERS LEVELS ORDERS_PER_LEVEL)) :
    List (Ledger.Trade (Option AccountId)) :=
  transitions.flatMap fun transition ↦ transition.reports.map (tradeOf owner transition.command)

theorem creator_snoc (transitions : List (Transition ACCOUNTS RISK_ORDERS LEVELS ORDERS_PER_LEVEL))
    (transition : Transition ACCOUNTS RISK_ORDERS LEVELS ORDERS_PER_LEVEL) (orderId : OrderId) :
    creator (transitions ++ [transition]) orderId =
      (creator transitions orderId).or (transition.creates orderId) := by
  unfold creator
  rw [List.findSome?_append]
  congr 1
  cases h : transition.creates orderId <;> simp [h]

theorem trades_snoc (owner : OrderId → Option AccountId)
    (transitions : List (Transition ACCOUNTS RISK_ORDERS LEVELS ORDERS_PER_LEVEL))
    (transition : Transition ACCOUNTS RISK_ORDERS LEVELS ORDERS_PER_LEVEL) :
    trades owner (transitions ++ [transition]) =
      trades owner transitions ++ transition.reports.map (tradeOf owner transition.command) := by
  unfold trades
  rw [List.flatMap_append, List.flatMap_singleton]

/-- Trades depend on the owners of the makers only. -/
theorem trades_congr {owner owner' : OrderId → Option AccountId}
    (h : ∀ transition ∈ transitions, ∀ report ∈ transition.reports,
      owner' report.makerOrderId = owner report.makerOrderId) :
    trades owner' transitions = trades owner transitions := by
  unfold trades
  apply List.flatMap_congr
  intro transition htransition
  apply List.map_congr_left
  intro report hreport
  unfold tradeOf
  rw [h transition htransition report hreport]

/-- The trades of a new order move positions as its reports do. -/
theorem position_tradeOf {order : NewOrder} {owner : OrderId → Option AccountId}
    (htaker : owner order.orderId = some order.accountId) {reports : List ExecutionReport}
    (hreports : ∀ report ∈ reports, report.takerOrderId = order.orderId ∧
      (owner report.makerOrderId).isSome = true) (id : AccountId) :
    Ledger.position (some id) (reports.map (tradeOf owner (.newOrder order))) =
      Logical.reportMoves (fun orderId ↦ (owner orderId).getD 0) order.side id reports := by
  rw [Ledger.position_eq_sum, List.map_map]
  unfold Logical.reportMoves
  congr 1
  apply List.map_congr_left
  intro report hreport
  obtain ⟨htakerId, hmaker⟩ := hreports report hreport
  obtain ⟨maker, hmaker⟩ := Option.isSome_iff_exists.mp hmaker
  unfold Logical.reportMove tradeOf
  rw [htakerId]
  simp only [Function.comp_apply, htaker, hmaker, Option.getD_some]
  unfold Ledger.move
  cases order.side with
  | buy =>
    simp only [Option.some.injEq, Side.opposite, positionChange, eq_comm (a := id)]
    ring
  | sell =>
    simp only [Option.some.injEq, Side.opposite, positionChange, eq_comm (a := id)]

/-- What a trace knows of the owners and positions at its end. -/
structure Attributed (transitions : List (Transition ACCOUNTS RISK_ORDERS LEVELS ORDERS_PER_LEVEL))
    (logical : Logical.Gateway) : Prop where
  owners : ∀ entry ∈ logical.book.entries,
    creator transitions entry.2.2.id = some entry.2.2.accountId
  received : ∀ orderId account, creator transitions orderId = some account →
    ∃ received ∈ logical.maximumReceivedOrderId, orderId ≤ received
  registered : ∀ orderId account, creator transitions orderId = some account →
    account ∈ logical.accountIds
  parties : ∀ transition ∈ transitions, ∀ report ∈ transition.reports,
    (∃ order, transition.command = .newOrder order ∧ order.accountId ∈ logical.accountIds) ∧
      (creator transitions report.makerOrderId).isSome = true
  settled : ∀ id, logical.risk.settled id =
    Ledger.position (some id) (trades (creator transitions) transitions)

/-- A transition that accepts no new order. -/
theorem Attributed.snoc_unaccepted {logical logical' : Logical.Gateway}
    {transition : Transition ACCOUNTS RISK_ORDERS LEVELS ORDERS_PER_LEVEL}
    (h : Attributed transitions logical) (hfollows : transition.Follows logical logical')
    (hnot : ∀ order result, transition.command = .newOrder order → transition.result ≠ .ok result) :
    Attributed (transitions ++ [transition]) logical' := by
  have hcreates : ∀ orderId, transition.creates orderId = none := by
    intro orderId
    unfold Transition.creates
    split
    · next order result hcommand hresult => exact absurd hresult (hnot order result hcommand)
    · rfl
  have hcreator : creator (transitions ++ [transition]) = creator transitions := by
    funext orderId
    rw [creator_snoc, hcreates, Option.or_none]
  have hreports : transition.reports = [] := by
    by_contra hreports
    obtain ⟨order, result, hcommand, hresult⟩ := hfollows.step.reported hreports
    exact hnot order result hcommand hresult
  obtain ⟨hsettled, hentries⟩ := hfollows.step.unmoved hnot
  have hids := hfollows.step.accountIds
  refine ⟨?_, ?_, ?_, ?_, ?_⟩
  · intro entry' hentry'
    obtain ⟨entry, hentry, hid, haccount⟩ := hentries entry' hentry'
    rw [hcreator, ← hid, ← haccount]
    exact h.owners entry hentry
  · intro orderId account hcreated
    rw [hcreator] at hcreated
    obtain ⟨received, hreceived, hle⟩ := h.received orderId account hcreated
    obtain ⟨received', hreceived', hle'⟩ := hfollows.step.received_mono hreceived
    exact ⟨received', hreceived', hle.trans hle'⟩
  · intro orderId account hcreated
    rw [hcreator] at hcreated
    rw [show logical'.accountIds = logical.accountIds from hids]
    exact h.registered orderId account hcreated
  · intro t ht report hreport
    rw [hcreator, show logical'.accountIds = logical.accountIds from hids]
    rcases List.mem_append.mp ht with ht | ht
    · exact h.parties t ht report hreport
    · rw [List.mem_singleton.mp ht, hreports] at hreport
      simp at hreport
  · intro id
    rw [hcreator, trades_snoc, hreports, List.map_nil, List.append_nil, ← h.settled id]
    exact hsettled id

/-- The creators after a transition that accepts a new order. -/
theorem creator_accepted {transition : Transition ACCOUNTS RISK_ORDERS LEVELS ORDERS_PER_LEVEL}
    {order : NewOrder} {result : GatewayOutcome} (hcommand : transition.command = .newOrder order)
    (hresult : transition.result = .ok result) (hnone : creator transitions order.orderId = none) :
    (∀ orderId account, creator transitions orderId = some account →
      creator (transitions ++ [transition]) orderId = some account) ∧
    creator (transitions ++ [transition]) order.orderId = some order.accountId ∧
    ∀ orderId account, creator (transitions ++ [transition]) orderId = some account →
      creator transitions orderId = some account ∨
        orderId = order.orderId ∧ account = order.accountId := by
  have hcreates : ∀ orderId, transition.creates orderId =
      if order.orderId = orderId then some order.accountId else none := by
    intro orderId
    unfold Transition.creates
    rw [hcommand, hresult]
  refine ⟨?_, ?_, ?_⟩
  · intro orderId account hcreated
    rw [creator_snoc, hcreated, Option.some_or]
  · rw [creator_snoc, hnone, Option.none_or, hcreates, if_pos rfl]
  · intro orderId account hcreated
    rw [creator_snoc, Option.or_eq_some_iff] at hcreated
    rcases hcreated with hcreated | ⟨_, hcreated⟩
    · exact .inl hcreated
    · rw [hcreates] at hcreated
      split at hcreated
      · next hid => exact .inr ⟨hid.symm, (Option.some.inj hcreated).symm⟩
      · simp at hcreated

/-- A transition that accepts a new order. -/
theorem Attributed.snoc_accepted {logical logical' : Logical.Gateway}
    {transition : Transition ACCOUNTS RISK_ORDERS LEVELS ORDERS_PER_LEVEL} {order : NewOrder}
    {result : GatewayOutcome} (h : Attributed transitions logical)
    (hfollows : transition.Follows logical logical') (hcommand : transition.command = .newOrder order)
    (hresult : transition.result = .ok result) :
    Attributed (transitions ++ [transition]) logical' := by
  have hstep := hfollows.step
  have hids : logical'.accountIds = logical.accountIds := hstep.accountIds
  have hmono : ∀ received ∈ logical.maximumReceivedOrderId,
      ∃ received' ∈ logical'.maximumReceivedOrderId, received ≤ received' :=
    fun _ hreceived ↦ hstep.received_mono hreceived
  rw [hcommand] at hstep
  obtain ⟨summary, _, hfresh, htraded⟩ := hstep.accepted hresult
  have hnone : creator transitions order.orderId = none := by
    by_contra hsome
    obtain ⟨account, hcreated⟩ := Option.ne_none_iff_exists'.mp hsome
    obtain ⟨received, hreceived, hle⟩ := h.received order.orderId account hcreated
    exact absurd (hfresh received hreceived) (not_lt.mpr hle)
  obtain ⟨hold, hnew, hcases⟩ := creator_accepted hcommand hresult hnone
  have howner : order.accountId ∈ logical.accountIds := by
    obtain ⟨account, hmem, hid, _⟩ := htraded.admits
    exact List.mem_map.mpr ⟨account, hmem, hid⟩
  have hmakers : ∀ report ∈ transition.reports,
      report.takerOrderId = order.orderId ∧
        (creator (transitions ++ [transition]) report.makerOrderId).isSome = true := by
    intro report hreport
    obtain ⟨htaker, entry, hentry, hmaker, _⟩ := htraded.parties report hreport
    refine ⟨htaker, ?_⟩
    rw [← hmaker, hold _ _ (h.owners entry hentry)]
    rfl
  refine ⟨?_, ?_, ?_, ?_, ?_⟩
  · intro entry' hentry'
    rcases htraded.origin hentry' with hrest | ⟨entry, hentry, hafter⟩
    · unfold Logical.takerRest at hrest
      split at hrest
      · rw [List.mem_singleton.mp hrest]
        exact hnew
      · simp at hrest
    · obtain ⟨_, _, hid, haccount, _⟩ := Logical.afterReports_eq_some hafter
      rw [hid, haccount]
      exact hold _ _ (h.owners entry hentry)
  · intro orderId account hcreated
    rcases hcases orderId account hcreated with hcreated | ⟨rfl, _⟩
    · obtain ⟨received, hreceived, hle⟩ := h.received orderId account hcreated
      obtain ⟨received', hreceived', hle'⟩ := hmono received hreceived
      exact ⟨received', hreceived', hle.trans hle'⟩
    · exact ⟨order.orderId, htraded.received, le_rfl⟩
  · intro orderId account hcreated
    rw [hids]
    rcases hcases orderId account hcreated with hcreated | ⟨_, rfl⟩
    · exact h.registered orderId account hcreated
    · exact howner
  · intro t ht report hreport
    rw [hids]
    rcases List.mem_append.mp ht with ht | ht
    · obtain ⟨htaker, hmaker⟩ := h.parties t ht report hreport
      obtain ⟨account, hcreated⟩ := Option.isSome_iff_exists.mp hmaker
      exact ⟨htaker, by rw [hold _ _ hcreated]; rfl⟩
    · rw [List.mem_singleton.mp ht] at hreport ⊢
      exact ⟨⟨order, hcommand, howner⟩, (hmakers report hreport).2⟩
  · intro id
    have hprior : trades (creator (transitions ++ [transition])) transitions =
        trades (creator transitions) transitions := by
      apply trades_congr
      intro t ht report hreport
      obtain ⟨account, hcreated⟩ := Option.isSome_iff_exists.mp (h.parties t ht report hreport).2
      rw [hcreated]
      exact hold _ _ hcreated
    have howns : Logical.Owns (fun orderId ↦ (creator (transitions ++ [transition]) orderId).getD 0)
        logical.book.entries := by
      intro entry hentry
      simp only [hold _ _ (h.owners entry hentry), Option.getD_some]
    have hmove := htraded.settled _ howns (by simp only [hnew, Option.getD_some]) id
    rw [trades_snoc, Ledger.position_append, hprior, ← h.settled id, hcommand,
      position_tradeOf hnew hmakers]
    exact hmove

theorem Attributed.snoc {logical logical' : Logical.Gateway}
    {transition : Transition ACCOUNTS RISK_ORDERS LEVELS ORDERS_PER_LEVEL}
    (h : Attributed transitions logical) (hfollows : transition.Follows logical logical') :
    Attributed (transitions ++ [transition]) logical' := by
  by_cases haccepted : ∃ order result, transition.command = .newOrder order ∧ transition.result = .ok result
  · obtain ⟨order, result, hcommand, hresult⟩ := haccepted
    exact h.snoc_accepted hfollows hcommand hresult
  · push Not at haccepted
    exact h.snoc_unaccepted hfollows haccepted

theorem Attributed.empty {risk : RiskEngineState} (hunused : risk.Unused) (instrument : InstrumentId) :
    Attributed ([] : List (Transition ACCOUNTS RISK_ORDERS LEVELS ORDERS_PER_LEVEL))
      (Logical.Gateway.new risk instrument) := by
  refine ⟨?_, by simp [creator], by simp [creator], by simp, ?_⟩
  · intro entry hentry
    simp [Logical.Gateway.new, Logical.Book.empty, Logical.Book.entries] at hentry
  · intro id
    show risk.settled id = 0
    unfold RiskEngineState.settled
    cases haccount : risk.account? id with
    | none => rfl
    | some account =>
      exact hunused.positions account (hunused.consistent.ordered.account?_eq_some.mp haccount).1

/-- Only registered accounts trade. -/
theorem Attributed.registered_parties {logical : Logical.Gateway} (h : Attributed transitions logical)
    {trade : Ledger.Trade (Option AccountId)}
    (htrade : trade ∈ trades (creator transitions) transitions) :
    trade.buyer ∈ logical.accountIds.map some ∧ trade.seller ∈ logical.accountIds.map some := by
  obtain ⟨transition, htransition, hmem⟩ := List.mem_flatMap.mp htrade
  obtain ⟨report, hreport, rfl⟩ := List.mem_map.mp hmem
  obtain ⟨⟨order, hcommand, htaker⟩, hcreated⟩ := h.parties transition htransition report hreport
  obtain ⟨maker, hmaker⟩ := Option.isSome_iff_exists.mp hcreated
  have htaker' : some order.accountId ∈ logical.accountIds.map some := List.mem_map_of_mem htaker
  have hmaker' : some maker ∈ logical.accountIds.map some :=
    List.mem_map_of_mem (h.registered _ maker hmaker)
  unfold tradeOf
  rw [hcommand]
  simp only [hmaker]
  cases order.side with
  | buy => exact ⟨htaker', hmaker'⟩
  | sell => exact ⟨hmaker', htaker'⟩

/-- The accounts of a gateway, in any order. -/
def registeredAccounts (gateway : Gateway ACCOUNTS RISK_ORDERS LEVELS ORDERS_PER_LEVEL) :
    List AccountState := gateway.risk.accounts.toList.filterMap id

theorem Represents.registeredAccounts_perm {logical : Logical.Gateway} (h : gateway.Represents logical) :
    gateway.registeredAccounts.Perm logical.risk.accounts := h.risk.registered_perm

/-- Along every trace of a new gateway, the settled position of every account is what it has bought
less what it has sold, and the positions of all accounts sum to zero. -/
theorem trace_positions (hc : Capacities ACCOUNTS RISK_ORDERS LEVELS ORDERS_PER_LEVEL)
    (hstart : start.Started) (h : Trace start transitions gateway) :
    (∀ account ∈ gateway.registeredAccounts, account.settledPosition.val =
      (Ledger.bought (some account.id) (trades (creator transitions) transitions) : ℤ) -
        Ledger.sold (some account.id) (trades (creator transitions) transitions)) ∧
    (gateway.registeredAccounts.map fun account ↦ account.settledPosition.val).sum = 0 := by
  obtain ⟨risk, instrument, hunused, hstarted⟩ := hstart.represents hc
  obtain ⟨logical, hrep, hinvariant, hattributed⟩ := h.represents hc Attributed hstarted
    (hunused.invariant LEVELS ORDERS_PER_LEVEL instrument) (.empty hunused instrument)
    fun _ _ _ _ hfollows hattributed ↦ hattributed.snoc hfollows
  have hordered := hinvariant.risk.ordered
  have hposition : ∀ account ∈ logical.risk.accounts, account.settledPosition.val =
      Ledger.position (some account.id) (trades (creator transitions) transitions) := by
    intro account hmem
    rw [← hattributed.settled account.id]
    exact (RiskEngineState.settled_of_mem hordered hmem).symm
  constructor
  · intro account hmem
    exact hposition account (hrep.registeredAccounts_perm.mem_iff.mp hmem)
  · have hnodup : (logical.accountIds.map some).Nodup :=
      hordered.ids_nodup.map (Option.some_injective _)
    calc
      (gateway.registeredAccounts.map fun account ↦ account.settledPosition.val).sum
        = (logical.risk.accounts.map fun account ↦ account.settledPosition.val).sum :=
          (hrep.registeredAccounts_perm.map _).sum_eq
      _ = ((logical.accountIds.map some).map fun id ↦
            Ledger.position id (trades (creator transitions) transitions)).sum := by
          unfold Logical.Gateway.accountIds
          rw [List.map_map, List.map_map, List.map_congr_left hposition]
          rfl
      _ = 0 := Ledger.sum_position hnodup fun _ htrade ↦ hattributed.registered_parties htrade

/-! A session of two accounts: the second sells to the resting order of the first. -/

theorem sampleBuyer_registered :
    ((RiskEngine.new 2 2).registerAccount 7 sampleLimits).toOption.isSome = true := by decide

def sampleBuyerRisk : RiskEngine 2 2 :=
  (((RiskEngine.new 2 2).registerAccount 7 sampleLimits).toOption.get sampleBuyer_registered).2

theorem sampleSeller_registered :
    (sampleBuyerRisk.registerAccount 8 sampleLimits).toOption.isSome = true := by decide

def samplePairRisk : RiskEngine 2 2 :=
  ((sampleBuyerRisk.registerAccount 8 sampleLimits).toOption.get sampleSeller_registered).2

def samplePair : Gateway 2 2 1 1 := Gateway.new samplePairRisk 1

theorem samplePair_started : samplePair.Started :=
  ⟨samplePairRisk, 1, .registerAccount (.registerAccount .new (Run.eq_ok_get sampleBuyer_registered))
    (Run.eq_ok_get sampleSeller_registered), rfl⟩

theorem sampleBuy_returns :
    (samplePair.processCommand sampleOrder (ReportBuffer.new 1)).toOption.isSome = true := by
  decide

def samplePairResting : Gateway 2 2 1 1 :=
  ((samplePair.processCommand sampleOrder (ReportBuffer.new 1)).toOption.get sampleBuy_returns).2.1

theorem sampleSell_price : -2 ^ (64 - 1) ≤ (50 : ℤ) ∧ (50 : ℤ) < 2 ^ (64 - 1) := by decide

def sampleSell : Command := .newOrder ⟨2, 8, 1, ⟨50, sampleSell_price⟩, 3, 2, .sell, .ioc⟩

theorem sampleSell_returns :
    (samplePairResting.processCommand sampleSell (ReportBuffer.new 1)).toOption.isSome = true := by
  decide

theorem sampleSell_reports :
    ((samplePairResting.processCommand sampleSell (ReportBuffer.new 1)).toOption.get
      sampleSell_returns).2.2.entries = [⟨1, 2, 1, ⟨50, by decide⟩, 3, 2⟩] := by
  decide

theorem samplePair_positions :
    ∃ transitions gateway, Trace samplePair transitions gateway ∧
      (∃ transition ∈ transitions, transition.reports = [⟨1, 2, 1, ⟨50, by decide⟩, 3, 2⟩]) ∧
      (∀ account ∈ gateway.registeredAccounts, account.settledPosition.val =
        (Ledger.bought (some account.id) (trades (creator transitions) transitions) : ℤ) -
          Ledger.sold (some account.id) (trades (creator transitions) transitions)) ∧
      (gateway.registeredAccounts.map fun account ↦ account.settledPosition.val).sum = 0 := by
  have htrace := (Trace.nil.snoc (Run.eq_ok_get sampleBuy_returns)).snoc
    (Run.eq_ok_get sampleSell_returns)
  refine ⟨_, _, htrace, ⟨_, List.mem_append_right _ (List.mem_singleton_self _), sampleSell_reports⟩, ?_⟩
  exact trace_positions ⟨by decide, by decide, by decide, by decide⟩ samplePair_started htrace

end Gateway

end DeterministicExchange
