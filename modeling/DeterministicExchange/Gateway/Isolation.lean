import DeterministicExchange.Gateway.Lifecycle
import DeterministicExchange.Gateway.Positions

/-!
# Isolation of accounts

A command reaches the orders and totals of other accounts only through the reports
it publishes: their makers shrink by the reported quantities, and nothing else of
theirs changes.
-/

namespace DeterministicExchange

open Machine Book Risk

/-- The account that sends a command. -/
def Command.accountId : Command → AccountId
  | .newOrder order => order.accountId
  | .cancelOrder cancel => cancel.accountId
  | .replaceOrder replace => replace.accountId

namespace Logical

variable {es : List Entry} {reports : List ExecutionReport} {id : AccountId} {orderId : OrderId}

/-- The resting orders of one account. -/
def heldBy (id : AccountId) (es : List Entry) : List Entry := es.filter fun entry ↦ entry.2.2.accountId = id

theorem mem_heldBy {entry : Entry} : entry ∈ heldBy id es ↔ entry ∈ es ∧ entry.2.2.accountId = id := by
  simp [heldBy]

theorem heldBy_filterMap (id : AccountId) (reports : List ExecutionReport) (es : List Entry) :
    heldBy id (es.filterMap (afterReports reports)) = (heldBy id es).filterMap (afterReports reports) := by
  unfold heldBy
  rw [List.filter_filterMap, List.filterMap_filter]
  apply List.filterMap_congr
  intro entry _
  cases hafter : afterReports reports entry with
  | none => simp
  | some entry' =>
    have haccount := (afterReports_eq_some hafter).2.2.2.1
    simp [haccount, Option.filter]

/-- The orders of an account that does not own a given order. -/
theorem heldBy_others (h : ∀ entry ∈ es, entry.2.2.id = orderId → entry.2.2.accountId ≠ id) :
    heldBy id (others orderId es) = heldBy id es := by
  unfold heldBy others
  rw [List.filter_filter]
  apply List.filter_congr
  intro entry hentry
  by_cases haccount : entry.2.2.accountId = id
  · have hid : entry.2.2.id ≠ orderId := fun heq ↦ h entry hentry heq haccount
    simp [haccount, hid]
  · simp [haccount]

theorem positionChange_add (side : Side) (a b : ℕ) :
    positionChange side (a + b) = positionChange side a + positionChange side b := by
  cases side with
  | buy => simp [positionChange]
  | sell => simp [positionChange]; ring

/-- What reports move on the position of an account through its resting orders. -/
def makerMoves (id : AccountId) (reports : List ExecutionReport) (es : List Entry) : ℤ :=
  ((heldBy id es).map fun entry ↦ positionChange entry.1 (tradedWith entry.2.2.id reports)).sum

theorem makerMoves_nil (id : AccountId) (es : List Entry) : makerMoves id [] es = 0 := by
  apply List.sum_eq_zero
  intro n hn
  obtain ⟨entry, _, rfl⟩ := List.mem_map.mp hn
  exact positionChange_zero _

/-- One more report moves the position of the owner of its maker. -/
theorem makerMoves_cons (hids : (es.map fun entry ↦ entry.2.2.id).Nodup) {maker : Entry} (hmaker : maker ∈ es)
    {report : ExecutionReport} (hid : maker.2.2.id = report.makerOrderId) :
    makerMoves id (report :: reports) es =
      (if maker.2.2.accountId = id then positionChange maker.1 report.quantity.val else 0) +
        makerMoves id reports es := by
  have hsplit : ∀ entry ∈ heldBy id es,
      positionChange entry.1 (tradedWith entry.2.2.id (report :: reports)) =
        (if maker = entry then positionChange maker.1 report.quantity.val else 0) +
          positionChange entry.1 (tradedWith entry.2.2.id reports) := by
    intro entry hentry
    have hsame : report.makerOrderId = entry.2.2.id ↔ maker = entry := by
      rw [← hid]
      constructor
      · exact fun heq ↦ List.inj_on_of_nodup_map hids hmaker (mem_heldBy.mp hentry).1 heq
      · rintro rfl
        rfl
    rw [tradedWith_cons, positionChange_add]
    congr 1
    by_cases heq : maker = entry
    · rw [if_pos heq, if_pos (hsame.mpr heq), heq]
    · rw [if_neg heq, if_neg fun h ↦ heq (hsame.mp h), positionChange_zero]
  unfold makerMoves
  rw [List.map_congr_left hsplit, List.sum_map_add]
  congr 1
  by_cases howner : maker.2.2.accountId = id
  · rw [if_pos howner]
    have hnodup : (heldBy id es).Nodup := (List.Nodup.of_map _ hids).filter _
    exact Ledger.sum_single hnodup (mem_heldBy.mpr ⟨hmaker, howner⟩) _
  · rw [if_neg howner]
    apply List.sum_eq_zero
    intro n hn
    obtain ⟨entry, hentry, rfl⟩ := List.mem_map.mp hn
    refine if_neg ?_
    rintro rfl
    exact howner (mem_heldBy.mp hentry).2

/-- For an account that does not take, reports move its position through its resting orders only. -/
theorem reportMoves_eq_makerMoves {owner : OrderId → AccountId} {takerSide : Side} (howns : Owns owner es)
    (hids : (es.map fun entry ↦ entry.2.2.id).Nodup)
    (hreports : ∀ report ∈ reports, owner report.takerOrderId ≠ id ∧
      ∃ maker ∈ es, maker.2.2.id = report.makerOrderId ∧ maker.1 = takerSide.opposite) :
    reportMoves owner takerSide id reports = makerMoves id reports es := by
  induction reports with
  | nil => exact (makerMoves_nil id es).symm
  | cons report reports ih =>
    obtain ⟨htaker, maker, hmaker, hid, hside⟩ := hreports report List.mem_cons_self
    have hrest := ih fun r hr ↦ hreports r (List.mem_cons_of_mem _ hr)
    have hmakerOwner : owner report.makerOrderId = maker.2.2.accountId := by
      rw [← hid]
      exact howns maker hmaker
    rw [makerMoves_cons hids hmaker hid, ← hrest]
    unfold reportMoves
    rw [List.map_cons, List.sum_cons]
    congr 1
    unfold reportMove
    rw [hmakerOwner, if_neg (Ne.symm htaker), add_zero, hside]
    simp only [eq_comm]

/-- Resting orders have owners, and an order that does not rest can be given one. -/
theorem exists_owner (hids : (es.map fun entry ↦ entry.2.2.id).Nodup)
    (habsent : ∀ entry ∈ es, entry.2.2.id ≠ orderId) (accountId : AccountId) :
    ∃ owner, Owns owner es ∧ owner orderId = accountId := by
  refine ⟨fun x ↦ if x = orderId then accountId else
    (es.find? fun entry ↦ entry.2.2.id = x).elim 0 fun entry ↦ entry.2.2.accountId, ?_, if_pos rfl⟩
  intro entry hentry
  have hfind : es.find? (fun e ↦ e.2.2.id = entry.2.2.id) = some entry :=
    (KeyOrder.find?_eq_some hids).mpr ⟨hentry, rfl⟩
  simp only [if_neg (habsent entry hentry), hfind, Option.elim_some]

/-! ## Totals -/

/-- The quantity of the orders of one side. -/
def sideTotal (side : Side) (es : List Entry) : ℕ :=
  (es.map fun entry ↦ if entry.1 = side then entry.2.2.quantity.val else 0).sum

/-- What reports trade with the orders of one side. -/
def sideTraded (side : Side) (reports : List ExecutionReport) (es : List Entry) : ℕ :=
  (es.map fun entry ↦ if entry.1 = side then tradedWith entry.2.2.id reports else 0).sum

theorem reservedTotal_backing (side : Side) (id : AccountId) (es : List Entry) :
    reservedTotal side id (es.map backing) = sideTotal side (heldBy id es) := by
  unfold sideTotal heldBy
  induction es with
  | nil => rfl
  | cons entry es ih =>
    rw [List.map_cons, reservedTotal_cons, ih, List.filter_cons]
    by_cases haccount : entry.2.2.accountId = id
    · simp [exposureOf, backing, haccount]
    · simp [exposureOf, backing, haccount]

theorem openCount_backing (id : AccountId) (es : List Entry) :
    openCount id (es.map backing) = (heldBy id es).length := by
  unfold openCount heldBy
  rw [List.countP_map, List.countP_eq_length_filter]
  rfl

/-- Orders shrink by what is traded with them. -/
theorem sideTotal_afterReports (side : Side)
    (hle : ∀ entry ∈ es, tradedWith entry.2.2.id reports ≤ entry.2.2.quantity.val) :
    sideTotal side (es.filterMap (afterReports reports)) + sideTraded side reports es =
      sideTotal side es := by
  induction es with
  | nil => rfl
  | cons entry es ih =>
    have hrest := ih fun e he ↦ hle e (List.mem_cons_of_mem _ he)
    have hentry := hle entry List.mem_cons_self
    unfold sideTotal sideTraded at hrest ⊢
    rw [List.filterMap_cons]
    cases hafter : afterReports reports entry with
    | none =>
      have hall : tradedWith entry.2.2.id reports = entry.2.2.quantity.val := by
        unfold afterReports at hafter
        split at hafter
        · simp at hafter
        · omega
      simp only [List.map_cons, List.sum_cons, hall]
      omega
    | some entry' =>
      obtain ⟨hside, _, _, _, _, hquantity, _⟩ := afterReports_eq_some hafter
      simp only [List.map_cons, List.sum_cons, hside]
      split
      · omega
      · omega

/-- Orders leave when all of them is traded. -/
theorem length_afterReports (hle : ∀ entry ∈ es, tradedWith entry.2.2.id reports ≤ entry.2.2.quantity.val) :
    (es.filterMap (afterReports reports)).length +
      es.countP (fun entry ↦ tradedWith entry.2.2.id reports = entry.2.2.quantity.val) = es.length := by
  induction es with
  | nil => rfl
  | cons entry es ih =>
    have hrest := ih fun e he ↦ hle e (List.mem_cons_of_mem _ he)
    have hentry := hle entry List.mem_cons_self
    rw [List.filterMap_cons, List.countP_cons]
    cases hafter : afterReports reports entry with
    | none =>
      have hall : tradedWith entry.2.2.id reports = entry.2.2.quantity.val := by
        unfold afterReports at hafter
        split at hafter
        · simp at hafter
        · omega
      simp only [hall, decide_true, if_true, List.length_cons]
      omega
    | some entry' =>
      obtain ⟨_, _, _, _, _, hquantity, hpos⟩ := afterReports_eq_some hafter
      have hpartly : tradedWith entry.2.2.id reports ≠ entry.2.2.quantity.val := by omega
      simp only [hpartly, decide_false, List.length_cons]
      rw [if_neg (by simp)]
      omega

/-! ## Commands -/

namespace Gateway

variable {LEVELS ORDERS : ℕ} {gateway gateway' : Gateway} {command : Command} {order : NewOrder}
  {accountId : AccountId} {outcome : Result × Gateway × List ExecutionReport}

/-- What a command does to an account that did not send it. -/
structure Spared (gateway : Gateway) (reports : List ExecutionReport) (id : AccountId)
    (gateway' : Gateway) : Prop where
  orders : heldBy id gateway'.book.entries =
    (heldBy id gateway.book.entries).filterMap (afterReports reports)
  traded_le : ∀ entry ∈ heldBy id gateway.book.entries,
    tradedWith entry.2.2.id reports ≤ entry.2.2.quantity.val
  settled : gateway'.risk.settled id = gateway.risk.settled id + makerMoves id reports gateway.book.entries

/-- Without reports, nothing changes for the account. -/
theorem Spared.of_unreported (h : gateway.Invariant LEVELS ORDERS)
    (horders : heldBy id gateway'.book.entries = heldBy id gateway.book.entries)
    (hsettled : gateway'.risk.settled id = gateway.risk.settled id) : Spared gateway [] id gateway' := by
  refine ⟨?_, fun _ _ ↦ Nat.zero_le _, ?_⟩
  · rw [horders, List.filterMap_congr (g := some), List.filterMap_some]
    intro entry hentry
    exact afterReports_of_untraded
      (h.book.compatible.quantity_pos entry (mem_heldBy.mp hentry).1) rfl
  · rw [hsettled, makerMoves_nil, add_zero]

theorem Traded.spared {summary : MatchSummary}
    (h : gateway.Traded LEVELS ORDERS order summary reports gateway')
    (hinvariant : gateway.Invariant LEVELS ORDERS) (hfresh : gateway.Fresh order.orderId)
    (hne : id ≠ order.accountId) : Spared gateway reports id gateway' := by
  have hrest : ∀ entry ∈ gateway'.book.entries, entry.2.2.id = order.orderId →
      entry.2.2.accountId ≠ id := by
    intro entry hentry hid
    have hown : entry ∈ Logical.own order.orderId gateway'.book.entries := mem_own.mpr ⟨hentry, hid⟩
    rw [h.own, takerRest] at hown
    split at hown
    · rw [List.mem_singleton.mp hown]
      exact Ne.symm hne
    · simp at hown
  obtain ⟨owner, howns, howner⟩ :=
    exists_owner hinvariant.book.ids (hinvariant.absent_of_fresh hfresh) order.accountId
  refine ⟨?_, fun entry hentry ↦ h.traded_le entry (mem_heldBy.mp hentry).1, ?_⟩
  · rw [← heldBy_others hrest, h.others, heldBy_filterMap]
  · rw [h.settled owner howns howner, reportMoves_eq_makerMoves howns hinvariant.book.ids]
    intro report hreport
    obtain ⟨htaker, hmaker⟩ := h.parties report hreport
    rw [htaker, howner]
    exact ⟨Ne.symm hne, hmaker⟩

theorem AmendStep.spared {asked : List Entry → Prop} {outcome : Result × Gateway}
    (hstep : AmendStep LEVELS ORDERS gateway orderId accountId asked outcome)
    (hasked : ∀ new, asked new → ∀ entry ∈ new, entry.2.2.accountId = accountId)
    (hinvariant : gateway.Invariant LEVELS ORDERS) (hne : id ≠ accountId) :
    Spared gateway [] id outcome.2 := by
  cases hstep with
  | refused _ _ => exact .of_unreported hinvariant rfl rfl
  | unplaced _ _ => exact .of_unreported hinvariant rfl rfl
  | accepted _ after new hnew hamended =>
    refine .of_unreported hinvariant ?_ (hamended.settled id)
    obtain ⟨target, htarget, htargetId, htargetAccount⟩ := hamended.target
    have hbefore : ∀ entry ∈ gateway.book.entries, entry.2.2.id = orderId → entry.2.2.accountId ≠ id := by
      intro entry hentry hid
      have hsame : entry = target :=
        List.inj_on_of_nodup_map hinvariant.book.ids hentry htarget (hid.trans htargetId.symm)
      rw [hsame, htargetAccount]
      exact Ne.symm hne
    have hafter : ∀ entry ∈ after.book.entries, entry.2.2.id = orderId → entry.2.2.accountId ≠ id := by
      intro entry hentry hid
      have hown := mem_own.mpr ⟨hentry, hid⟩
      rw [hamended.own] at hown
      rw [hasked new hnew entry hown]
      exact Ne.symm hne
    rw [← heldBy_others hbefore, ← heldBy_others hafter, hamended.others]

/-- Every command spares the accounts that did not send it. -/
theorem CommandStep.spared (hstep : CommandStep LEVELS ORDERS gateway command outcome)
    (hinvariant : gateway.Invariant LEVELS ORDERS) (hne : id ≠ command.accountId) :
    Spared gateway outcome.2.2 id outcome.2.1 := by
  cases hstep with
  | outOfSequence _ => exact .of_unreported hinvariant rfl rfl
  | exhausted _ _ => exact .of_unreported hinvariant rfl rfl
  | @newOrder admitted order _ hadmitted hready hcommand hstep =>
    subst hcommand
    have hadmittedInvariant := hready.invariant
    rw [hadmitted.rest] at hstep hadmittedInvariant
    cases hstep with
    | stale _ => exact .of_unreported hinvariant rfl rfl
    | refused _ _ => exact .of_unreported hinvariant rfl rfl
    | unplaced _ _ => exact .of_unreported hinvariant rfl rfl
    | accepted hfresh _ _ _ htraded =>
      obtain ⟨horders, hle, hsettled⟩ := htraded.spared hadmittedInvariant hfresh hne
      exact ⟨horders, hle, hsettled⟩
  | @cancelOrder admitted cancel _ hadmitted hready hcommand hstep =>
    subst hcommand
    have hadmittedInvariant := hready.invariant
    rw [hadmitted.rest] at hstep hadmittedInvariant
    obtain ⟨horders, hle, hsettled⟩ :=
      hstep.spared (fun new hnew ↦ by simp [hnew]) hadmittedInvariant hne
    exact ⟨horders, hle, hsettled⟩
  | @replaceOrder admitted replace _ hadmitted hready hcommand hstep =>
    subst hcommand
    have hadmittedInvariant := hready.invariant
    rw [hadmitted.rest] at hstep hadmittedInvariant
    obtain ⟨horders, hle, hsettled⟩ :=
      hstep.spared (fun _ hnew ↦ hnew.accountId) hadmittedInvariant hne
    exact ⟨horders, hle, hsettled⟩

/-- What a cancel or a replace does to the orders it does not name. -/
structure Confined (gateway : Gateway) (orderId : OrderId) (accountId : AccountId) (result : Result)
    (gateway' : Gateway) : Prop where
  others : others orderId gateway'.book.entries = others orderId gateway.book.entries
  owned : ∀ outcome, result = .ok outcome → ∃ entry ∈ gateway.book.entries,
    entry.2.2.id = orderId ∧ entry.2.2.accountId = accountId
  rejected : (∀ outcome, result ≠ .ok outcome) →
    gateway'.book = gateway.book ∧ gateway'.risk = gateway.risk

theorem AmendStep.confined {asked : List Entry → Prop} {outcome : Result × Gateway}
    (hstep : AmendStep LEVELS ORDERS gateway orderId accountId asked outcome) :
    Confined gateway orderId accountId outcome.1 outcome.2 := by
  cases hstep with
  | refused _ _ => exact ⟨rfl, by simp, fun _ ↦ ⟨rfl, rfl⟩⟩
  | unplaced _ _ => exact ⟨rfl, by simp, fun _ ↦ ⟨rfl, rfl⟩⟩
  | accepted _ _ _ _ hamended =>
    exact ⟨hamended.others, fun _ _ ↦ hamended.target, fun hnot ↦ absurd rfl (hnot _)⟩

theorem CommandStep.confined (hstep : CommandStep LEVELS ORDERS gateway command outcome)
    (hnames : command.names = some orderId) :
    Confined gateway orderId command.accountId outcome.1 outcome.2.1 := by
  cases hstep with
  | outOfSequence _ => exact ⟨rfl, by simp, fun _ ↦ ⟨rfl, rfl⟩⟩
  | exhausted _ _ => exact ⟨rfl, by simp, fun _ ↦ ⟨rfl, rfl⟩⟩
  | newOrder _ _ hcommand _ =>
    rw [hcommand] at hnames
    simp [Command.names] at hnames
  | cancelOrder hadmitted _ hcommand hstep =>
    subst hcommand
    obtain rfl := Option.some.inj hnames
    rw [hadmitted.rest] at hstep
    obtain ⟨hothers, howned, hrejected⟩ := hstep.confined
    exact ⟨hothers, howned, hrejected⟩
  | replaceOrder hadmitted _ hcommand hstep =>
    subst hcommand
    obtain rfl := Option.some.inj hnames
    rw [hadmitted.rest] at hstep
    obtain ⟨hothers, howned, hrejected⟩ := hstep.confined
    exact ⟨hothers, howned, hrejected⟩

end Gateway

end Logical

/-! ## Exported states -/

/-- What reports leave of an exported order. -/
def Book.BookOrderState.afterReports (reports : List ExecutionReport) (order : BookOrderState) :
    Option BookOrderState :=
  if Logical.tradedWith order.orderId reports < order.quantity.val then
    some { order with
      quantity := Logical.reduced order.quantity (Logical.tradedWith order.orderId reports) }
  else none

/-- What reports leave of a reservation. -/
def Risk.ReservationRiskState.afterReports (reports : List ExecutionReport) (r : ReservationRiskState) :
    Option ReservationRiskState :=
  if Logical.tradedWith r.orderId reports < r.quantity.val then
    some { r with quantity := Logical.reduced r.quantity (Logical.tradedWith r.orderId reports) }
  else none

namespace GatewayState

variable {LEVELS ORDERS : ℕ}

/-- All resting orders, side by side, level by level and in queue order. -/
def orders (state : GatewayState LEVELS ORDERS) : List BookOrderState := OrderBook.stateOrders state.book

def ordersOf (state : GatewayState LEVELS ORDERS) (id : AccountId) : List BookOrderState :=
  state.orders.filter fun order ↦ order.accountId = id

def reservationsOf (state : GatewayState LEVELS ORDERS) (id : AccountId) : List ReservationRiskState :=
  state.risk.reservations.filter fun r ↦ r.accountId = id

/-- The effect of reports on the account of makers `orders`. -/
structure AccountMoved (account account' : AccountRiskState) (orders : List BookOrderState)
    (reports : List ExecutionReport) : Prop where
  profile : account'.profile = account.profile
  settled : account'.settledPosition.val = account.settledPosition.val +
    (orders.map fun order ↦ positionChange order.side (Logical.tradedWith order.orderId reports)).sum
  reserved : ∀ side, (account'.reserved side).val +
    (orders.map fun order ↦
      if order.side = side then Logical.tradedWith order.orderId reports else 0).sum =
    (account.reserved side).val
  openOrders : account'.openOrders.val +
    orders.countP (fun order ↦ Logical.tradedWith order.orderId reports = order.quantity.val) =
    account.openOrders.val
  reserved_le : ∀ side, (account'.reserved side).val ≤ (account.reserved side).val
  openOrders_le : account'.openOrders.val ≤ account.openOrders.val

/-- Reports change the orders, the reservations and the totals of an account by what is traded with its
resting orders, and nothing else of it changes. -/
structure Isolated (state state' : GatewayState LEVELS ORDERS) (reports : List ExecutionReport)
    (id : AccountId) : Prop where
  orders : state'.ordersOf id = (state.ordersOf id).filterMap (BookOrderState.afterReports reports)
  traded_le : ∀ order ∈ state.ordersOf id, Logical.tradedWith order.orderId reports ≤ order.quantity.val
  reservations : state'.reservationsOf id =
    (state.reservationsOf id).filterMap (ReservationRiskState.afterReports reports)
  account : ∀ account ∈ state.risk.accounts, account.id = id →
    ∃ account' ∈ state'.risk.accounts, AccountMoved account account' (state.ordersOf id) reports

/-- A cancel or a replace changes at most the order it names, which is its account's if it succeeds. -/
structure Confined (state state' : GatewayState LEVELS ORDERS) (orderId : OrderId)
    (accountId : AccountId) (result : Except GatewayError GatewayOutcome) : Prop where
  orders : state'.orders.filter (fun order ↦ order.orderId ≠ orderId) =
    state.orders.filter fun order ↦ order.orderId ≠ orderId
  reservations : state'.risk.reservations.filter (fun r ↦ r.orderId ≠ orderId) =
    state.risk.reservations.filter fun r ↦ r.orderId ≠ orderId
  owned : ∀ outcome, result = .ok outcome →
    ∃ order ∈ state.orders, order.orderId = orderId ∧ order.accountId = accountId
  rejected : (∀ outcome, result ≠ .ok outcome) →
    state'.book = state.book ∧ state'.risk.reservations = state.risk.reservations

end GatewayState

namespace Logical.Gateway

variable {LEVELS ORDERS : ℕ} {gateway gateway' : Gateway} {reports : List ExecutionReport}
  {id : AccountId} {orderId : OrderId}

/-- The exported form of an entry. -/
def exported (entry : Entry) : BookOrderState := orderState entry.1 entry.2.1 entry.2.2

theorem Invariant.orders_eq (h : gateway.Invariant LEVELS ORDERS) :
    (gateway.state LEVELS ORDERS).orders = gateway.book.entries.map exported :=
  stateOrders_state h.book

theorem Invariant.ordersOf_eq (h : gateway.Invariant LEVELS ORDERS) (id : AccountId) :
    (gateway.state LEVELS ORDERS).ordersOf id = (heldBy id gateway.book.entries).map exported := by
  unfold GatewayState.ordersOf heldBy
  rw [h.orders_eq, List.filter_map]
  rfl

theorem exported_afterReports (reports : List ExecutionReport) (es : List Entry) :
    (es.filterMap (afterReports reports)).map exported =
      (es.map exported).filterMap (BookOrderState.afterReports reports) := by
  rw [List.map_filterMap, List.filterMap_map]
  apply List.filterMap_congr
  intro entry _
  unfold afterReports
  by_cases hleft : tradedWith entry.2.2.id reports < entry.2.2.quantity.val
  · rw [if_pos hleft]
    exact (if_pos hleft).symm
  · rw [if_neg hleft]
    exact (if_neg hleft).symm

theorem backing_afterReports (reports : List ExecutionReport) (es : List Entry) :
    (es.filterMap (afterReports reports)).map backing =
      (es.map backing).filterMap (ReservationRiskState.afterReports reports) := by
  rw [List.map_filterMap, List.filterMap_map]
  apply List.filterMap_congr
  intro entry _
  unfold afterReports
  by_cases hleft : tradedWith entry.2.2.id reports < entry.2.2.quantity.val
  · rw [if_pos hleft]
    exact (if_pos hleft).symm
  · rw [if_neg hleft]
    exact (if_neg hleft).symm

theorem afterReports_orderId {r r' : ReservationRiskState} (h : r.afterReports reports = some r') :
    r'.orderId = r.orderId := by
  unfold ReservationRiskState.afterReports at h
  split at h
  · rw [← Option.some.inj h]
  · simp at h

theorem Spared.reservations (h : Spared gateway reports id gateway')
    (hinvariant : gateway.Invariant LEVELS ORDERS) (hinvariant' : gateway'.Invariant LEVELS ORDERS) :
    gateway'.risk.reservations.filter (fun r ↦ r.accountId = id) =
      (gateway.risk.reservations.filter fun r ↦ r.accountId = id).filterMap
        (ReservationRiskState.afterReports reports) := by
  have hheld (g : Gateway) (hg : g.Invariant LEVELS ORDERS) :
      (g.risk.reservations.filter fun r ↦ r.accountId = id).Perm
        ((heldBy id g.book.entries).map backing) := by
    have hperm := hg.backed.filter fun r ↦ r.accountId = id
    rw [List.filter_map] at hperm
    exact hperm
  refine KeyOrder.eq_of_perm (f := ReservationRiskState.orderId) ?_ ?_ ?_
  · exact hinvariant'.risk.ordered.reservations.filter _
  · rw [List.pairwise_filterMap]
    refine (hinvariant.risk.ordered.reservations.filter _).imp ?_
    intro r r' hlt left hleft left' hleft'
    rw [afterReports_orderId hleft, afterReports_orderId hleft']
    exact hlt
  · calc
      (gateway'.risk.reservations.filter fun r ↦ r.accountId = id).Perm
          ((heldBy id gateway'.book.entries).map backing) := hheld gateway' hinvariant'
      List.Perm _ (((heldBy id gateway.book.entries).map backing).filterMap
          (ReservationRiskState.afterReports reports)) := by rw [h.orders, backing_afterReports]
      List.Perm _ _ := ((hheld gateway hinvariant).filterMap _).symm

theorem Spared.account (h : Spared gateway reports id gateway') (hinvariant : gateway.Invariant LEVELS ORDERS)
    (hinvariant' : gateway'.Invariant LEVELS ORDERS)
    (hprofiles : gateway'.risk.accounts.map AccountRiskState.profile =
      gateway.risk.accounts.map AccountRiskState.profile) {account : AccountRiskState}
    (hmem : account ∈ gateway.risk.accounts) (hid : account.id = id) :
    ∃ account' ∈ gateway'.risk.accounts, GatewayState.AccountMoved account account'
      ((heldBy id gateway.book.entries).map exported) reports := by
  have hprofile := List.mem_map_of_mem (f := AccountRiskState.profile) hmem
  rw [← hprofiles] at hprofile
  obtain ⟨account', hmem', hprofile'⟩ := List.mem_map.mp hprofile
  have hid' : account'.id = id := (congrArg Prod.fst hprofile').trans hid
  have hconsistent := hinvariant.risk.account account hmem
  have hconsistent' := hinvariant'.risk.account account' hmem'
  have hreserved : ∀ side, (account.reserved side).val = sideTotal side (heldBy id gateway.book.entries) := by
    intro side
    rw [hconsistent.reserved, hid, ← reservedTotal_backing]
    exact (hinvariant.backed.map _).sum_eq
  have hreserved' : ∀ side, (account'.reserved side).val =
      sideTotal side ((heldBy id gateway.book.entries).filterMap (afterReports reports)) := by
    intro side
    rw [hconsistent'.reserved, hid', ← h.orders, ← reservedTotal_backing]
    exact (hinvariant'.backed.map _).sum_eq
  have hopen : account.openOrders.val = (heldBy id gateway.book.entries).length := by
    rw [hconsistent.openOrders, hid, ← openCount_backing]
    exact hinvariant.backed.countP_eq _
  have hopen' : account'.openOrders.val =
      ((heldBy id gateway.book.entries).filterMap (afterReports reports)).length := by
    rw [hconsistent'.openOrders, hid', ← h.orders, ← openCount_backing]
    exact hinvariant'.backed.countP_eq _
  have htotals := fun side ↦ sideTotal_afterReports side h.traded_le
  have hcounts := length_afterReports h.traded_le
  refine ⟨account', hmem', hprofile', ?_, ?_, ?_, ?_, ?_⟩
  · have hsettled := h.settled
    rw [← hid', RiskEngineState.settled_of_mem hinvariant'.risk.ordered hmem', hid', ← hid,
      RiskEngineState.settled_of_mem hinvariant.risk.ordered hmem, hid] at hsettled
    rw [hsettled, List.map_map]
    rfl
  · intro side
    rw [hreserved, hreserved', List.map_map]
    exact htotals side
  · rw [hopen, hopen', List.countP_map]
    exact hcounts
  · intro side
    rw [hreserved, hreserved', ← htotals side]
    exact Nat.le_add_right _ _
  · rw [hopen, hopen', ← hcounts]
    exact Nat.le_add_right _ _

theorem Spared.isolated (h : Spared gateway reports id gateway')
    (hinvariant : gateway.Invariant LEVELS ORDERS)
    (hinvariant' : gateway'.Invariant LEVELS ORDERS)
    (hprofiles : gateway'.risk.accounts.map AccountRiskState.profile =
      gateway.risk.accounts.map AccountRiskState.profile) :
    GatewayState.Isolated (gateway.state LEVELS ORDERS) (gateway'.state LEVELS ORDERS) reports id := by
  refine ⟨?_, ?_, h.reservations hinvariant hinvariant', ?_⟩
  · rw [hinvariant.ordersOf_eq, hinvariant'.ordersOf_eq, h.orders, exported_afterReports]
  · intro order horder
    rw [hinvariant.ordersOf_eq] at horder
    obtain ⟨entry, hentry, rfl⟩ := List.mem_map.mp horder
    exact h.traded_le entry hentry
  · intro account hmem hid
    rw [hinvariant.ordersOf_eq]
    exact h.account hinvariant hinvariant' hprofiles hmem hid

theorem Confined.state {accountId : AccountId} {result : Result}
    (h : Confined gateway orderId accountId result gateway') (hinvariant : gateway.Invariant LEVELS ORDERS)
    (hinvariant' : gateway'.Invariant LEVELS ORDERS) :
    GatewayState.Confined (gateway.state LEVELS ORDERS) (gateway'.state LEVELS ORDERS) orderId accountId
      result := by
  have hothers (g : Gateway) (hg : g.Invariant LEVELS ORDERS) :
      (g.risk.reservations.filter fun r ↦ r.orderId ≠ orderId).Perm
        ((Logical.others orderId g.book.entries).map backing) := by
    have hperm := hg.backed.filter fun r ↦ r.orderId ≠ orderId
    rw [List.filter_map] at hperm
    exact hperm
  refine ⟨?_, ?_, ?_, ?_⟩
  · rw [hinvariant.orders_eq, hinvariant'.orders_eq, List.filter_map, List.filter_map]
    exact congrArg (List.map exported) h.others
  · refine KeyOrder.eq_of_perm (f := ReservationRiskState.orderId)
      (hinvariant'.risk.ordered.reservations.filter _) (hinvariant.risk.ordered.reservations.filter _) ?_
    refine (hothers gateway' hinvariant').trans ?_
    rw [h.others]
    exact (hothers gateway hinvariant).symm
  · intro outcome hok
    obtain ⟨entry, hentry, hid, haccount⟩ := h.owned outcome hok
    rw [hinvariant.orders_eq]
    exact ⟨exported entry, List.mem_map_of_mem hentry, hid, haccount⟩
  · intro hnot
    obtain ⟨hbook, hrisk⟩ := h.rejected hnot
    exact ⟨congrArg (Logical.Book.state LEVELS ORDERS) hbook, congrArg RiskEngineState.reservations hrisk⟩

end Logical.Gateway

namespace Gateway

variable {ACCOUNTS RISK_ORDERS LEVELS ORDERS_PER_LEVEL REPORTS : ℕ}
  {gateway gateway' : Gateway ACCOUNTS RISK_ORDERS LEVELS ORDERS_PER_LEVEL}

/-- On a reachable gateway, a command changes other accounts only through its reports, by the reported
quantities of their resting orders. All limits and kill switches stay, and a cancel or a replace reaches
no order but the one it names. -/
theorem reachable_command_isolated (hc : Capacities ACCOUNTS RISK_ORDERS LEVELS ORDERS_PER_LEVEL)
    (h : gateway.Reachable) {command : Command} {reports reports' : ReportBuffer REPORTS}
    {result : Except GatewayError GatewayOutcome}
    (hrun : gateway.processCommand command reports = .ok (result, gateway', reports')) :
    ∃ state state', gateway.exportState = .ok state ∧ gateway'.exportState = .ok state' ∧
      (∀ id, id ≠ command.accountId → GatewayState.Isolated state state' reports'.entries id) ∧
      state'.risk.killed = state.risk.killed ∧
      state'.risk.accounts.map AccountRiskState.profile = state.risk.accounts.map AccountRiskState.profile ∧
      ∀ orderId, command.names = some orderId → reports'.entries = [] ∧
        GatewayState.Confined state state' orderId command.accountId result := by
  obtain ⟨logical, hrep, hinvariant⟩ := h.sound hc
  obtain ⟨logical', hfollows⟩ := hrep.follows hc hinvariant hrun
  have hinvariant' := hfollows.invariant'
  have hstep := hfollows.step
  obtain ⟨hkilled, hprofiles⟩ := hstep.controls
  refine ⟨_, _, hrep.exportState hc.index.addressable, hfollows.after.exportState hc.index.addressable, ?_,
    hkilled, hprofiles, ?_⟩
  · intro id hne
    exact (hstep.spared hinvariant hne).isolated hinvariant hinvariant' hprofiles
  · intro orderId hnames
    refine ⟨?_, (hstep.confined hnames).state hinvariant hinvariant'⟩
    by_contra hreports
    obtain ⟨order, _, hcommand, _⟩ := hstep.reported hreports
    have hnone : command.names = none := by
      rw [show command = .newOrder order from hcommand]
      rfl
    rw [hnone] at hnames
    simp at hnames

theorem samplePairResting_reachable : samplePairResting.Reachable :=
  .step (.start (.inl samplePair_started)) trivial (Run.eq_ok_get sampleBuy_returns)

theorem sampleSell_isolated :
    ∃ result gateway' reports' state state',
      samplePairResting.processCommand sampleSell (ReportBuffer.new 1) = .ok (result, gateway', reports') ∧
      samplePairResting.exportState = .ok state ∧ gateway'.exportState = .ok state' ∧
      reports'.entries = [⟨1, 2, 1, ⟨50, by decide⟩, 3, 2⟩] ∧
      GatewayState.Isolated state state' reports'.entries 7 := by
  obtain ⟨state, state', hexport, hexport', hisolated, _⟩ := reachable_command_isolated
    ⟨by decide, by decide, by decide, by decide⟩ samplePairResting_reachable
    (Run.eq_ok_get sampleSell_returns)
  exact ⟨_, _, _, state, state', Run.eq_ok_get sampleSell_returns, hexport, hexport', sampleSell_reports,
    hisolated 7 (by decide)⟩

end Gateway

end DeterministicExchange
