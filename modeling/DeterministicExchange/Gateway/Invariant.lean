import DeterministicExchange.Book.Effects
import DeterministicExchange.Gateway.Logical
import DeterministicExchange.Risk.Preservation

/-!
# Agreement of risk and book

Every resting order is backed by a reservation of the same order, account, side
and quantity, and there is no other reservation. The agreement is broken inside a
command and holds again at its end. Each command is described by the few ways in
which it can end.
-/

namespace DeterministicExchange.Logical

open Machine DeterministicExchange.Book DeterministicExchange.Risk

/-- The reservation behind a resting order. -/
def backing (entry : Entry) : ReservationRiskState :=
  ⟨entry.2.2.id, entry.2.2.accountId, entry.1, entry.2.2.quantity⟩

/-- What a report moves on the position of the account `id`, for given owners of the orders and a
given side of the taker. -/
def reportMove (owner : OrderId → AccountId) (takerSide : Side) (id : AccountId)
    (report : ExecutionReport) : ℤ :=
  (if id = owner report.makerOrderId then positionChange takerSide.opposite report.quantity.val else 0) +
    if id = owner report.takerOrderId then positionChange takerSide report.quantity.val else 0

def reportMoves (owner : OrderId → AccountId) (takerSide : Side) (id : AccountId)
    (reports : List ExecutionReport) : ℤ := (reports.map (reportMove owner takerSide id)).sum

/-- The owners that a collection of resting orders gives. -/
def Owns (owner : OrderId → AccountId) (es : List Entry) : Prop :=
  ∀ entry ∈ es, owner entry.2.2.id = entry.2.2.accountId

namespace Gateway

variable {LEVELS ORDERS : ℕ} {gateway : Gateway}

structure Invariant (LEVELS ORDERS : ℕ) (gateway : Gateway) : Prop where
  risk : gateway.risk.Consistent
  book : gateway.book.Restorable LEVELS ORDERS
  backed : gateway.risk.reservations.Perm (gateway.book.entries.map backing)
  expected_pos : 0 < gateway.expectedSequence.val
  sequences : ∀ entry ∈ gateway.book.entries, entry.2.2.sequence < gateway.expectedSequence
  watermark : ∀ maximum ∈ gateway.risk.maximumOrderId,
    ∃ received ∈ gateway.maximumReceivedOrderId, maximum ≤ received

/-- A gateway that has admitted a command with this sequence. -/
structure Ready (LEVELS ORDERS : ℕ) (gateway : Gateway) (sequence : SequenceNumber) : Prop where
  invariant : gateway.Invariant LEVELS ORDERS
  sequence_pos : 0 < sequence.val
  newest : ∀ entry ∈ gateway.book.entries, entry.2.2.sequence < sequence
  expected : sequence < gateway.expectedSequence

/-! ## Fills -/

theorem backing_makerRest (side : Side) (price : PriceTicks) (order : Order) {traded : Quantity}
    (hle : traded.val ≤ order.quantity.val) :
    (makerRest side price order traded).map backing = (backing (side, price, order)).after traded := by
  unfold makerRest ReservationRiskState.after
  by_cases hpartly : traded.val < order.quantity.val
  · rw [if_pos hpartly, if_neg (show (backing (side, price, order)).quantity.val ≠ traded.val from
      hpartly.ne')]
    rfl
  · rw [if_neg hpartly, if_pos (show (backing (side, price, order)).quantity.val = traded.val from
      le_antisymm (not_lt.mp hpartly) hle)]
    rfl

theorem backing_takerRest (order : NewOrder) {remaining traded : Quantity}
    (hle : traded.val ≤ remaining.val) :
    (takerRest order (Unsigned.monus remaining traded)).map backing =
      (backing (order.side, order.price, Book.restingOrder order remaining)).after traded := by
  unfold takerRest ReservationRiskState.after
  by_cases hall : remaining.val = traded.val
  · have hzero : ¬ 0 < (Unsigned.monus remaining traded).val := by
      rw [Unsigned.monus_val]
      omega
    rw [if_neg hzero, if_pos (show (backing (order.side, order.price,
      Book.restingOrder order remaining)).quantity.val = traded.val from hall)]
    rfl
  · have hleft : 0 < (Unsigned.monus remaining traded).val := by
      rw [Unsigned.monus_val]
      omega
    rw [if_pos hleft, if_neg (show (backing (order.side, order.price,
      Book.restingOrder order remaining)).quantity.val ≠ traded.val from hall)]
    rfl

/-- Recording the fills of a walk keeps risk in step with the book and with the taker. -/
theorem recordFills_matched {order : NewOrder} {levels rest : List Level} {remaining left : Quantity}
    {fills : List Fill} {book : Book} {risk : RiskEngineState}
    (hmatched : Matched order.side order.price levels remaining fills rest left)
    (hside : book.side order.side.opposite = levels) (hbook : book.Restorable LEVELS ORDERS)
    (hrisk : risk.Consistent)
    (hbacked : risk.reservations.Perm ((takerRest order remaining ++ book.entries).map backing)) :
    ∃ risk', recordFills (fills.map (Fill.report order)) risk = (.ok (), risk') ∧ risk'.Consistent ∧
      RiskEngineState.SameProfile risk risk' ∧
      risk'.reservations.Perm ((takerRest order left ++
        (book.setSide order.side.opposite rest).entries).map backing) ∧
      ∀ owner, Owns owner book.entries → owner order.orderId = order.accountId → ∀ id,
        risk'.settled id = risk.settled id +
          reportMoves owner order.side id (fills.map (Fill.report order)) := by
  induction hmatched generalizing book risk with
  | done levels remaining _ =>
    have hself : book.setSide order.side.opposite levels = book := by rw [← hside, setSide_side]
    rw [hself]
    exact ⟨risk, rfl, hrisk, ⟨rfl, rfl, rfl⟩, hbacked, fun _ _ _ _ ↦ (add_zero _).symm⟩
  | fill price maker orders levels remaining traded fills rest left hremaining _ htraded _ ih =>
    obtain ⟨hrestorable, others, hold, hnew⟩ := hbook.consume hside traded
    have hmaker : (order.side.opposite, price, maker) ∈ book.entries :=
      hold.mem_iff.mpr List.mem_cons_self
    have hmakerQuantity := hbook.compatible.quantity_pos _ hmaker
    have hpos : 0 < traded.val := by
      rw [htraded]
      exact lt_min hremaining hmakerQuantity
    have hleRemaining : traded.val ≤ remaining.val := htraded ▸ min_le_left remaining maker.quantity
    have hleMaker : traded.val ≤ maker.quantity.val := htraded ▸ min_le_right remaining maker.quantity
    set taker := backing (order.side, order.price, Book.restingOrder order remaining) with htaker
    set makerBacking := backing (order.side.opposite, price, maker) with hmakerBacking
    have htakerRest : (takerRest order remaining).map backing = [taker] := by
      rw [takerRest, if_pos hremaining]
      rfl
    have hperm : risk.reservations.Perm (makerBacking :: (taker :: others.map backing)) := by
      rw [List.map_append, htakerRest] at hbacked
      calc
        risk.reservations.Perm (taker :: book.entries.map backing) := hbacked
        List.Perm _ (taker :: makerBacking :: others.map backing) := (hold.map backing).cons taker
        List.Perm _ (makerBacking :: taker :: others.map backing) := List.Perm.swap ..
    obtain ⟨risk₁, hfill₁, hexchanged₁⟩ := hrisk.recordFill (hperm.mem_iff.mpr List.mem_cons_self)
      hpos hleMaker
    have hperm₁ := hexchanged₁.perm _ hperm
    have hperm₁' : risk₁.reservations.Perm
        (taker :: (makerBacking.after traded ++ others.map backing)) := hperm₁.trans List.perm_middle
    obtain ⟨risk₂, hfill₂, hexchanged₂⟩ := hexchanged₁.consistent.recordFill
      (hperm₁'.mem_iff.mpr List.mem_cons_self) hpos hleRemaining
    have hperm₂ := hexchanged₂.perm _ hperm₁'
    have hbacked₂ : risk₂.reservations.Perm ((takerRest order (Unsigned.monus remaining traded) ++
        (book.setSide order.side.opposite (consume price maker orders levels traded)).entries).map
          backing) := by
      rw [List.map_append, backing_takerRest order hleRemaining]
      refine hperm₂.trans (List.Perm.append_left _ ?_)
      rw [← backing_makerRest order.side.opposite price maker hleMaker, ← List.map_append]
      exact (hnew.map backing).symm
    obtain ⟨risk₃, hrest, hconsistent, hprofile, hbacked₃, hsettled⟩ :=
      ih (side_setSide ..) hrestorable hexchanged₂.consistent hbacked₂
    rw [setSide_setSide] at hbacked₃
    refine ⟨risk₃, ?_, hconsistent, ?_, hbacked₃, ?_⟩
    · rw [List.map_cons, recordFills]
      have hfill₁' : risk.recordFill maker.id traded = .ok ((), risk₁) := hfill₁
      have hfill₂' : risk₁.recordFill order.orderId traded = .ok ((), risk₂) := hfill₂
      simp only [Fill.report, OrderBook.report, hfill₁', hfill₂']
      exact hrest
    · exact hexchanged₁.profile.trans (hexchanged₂.profile.trans hprofile)
    · intro owner howner htakerOwner id
      have hmakerOwner : owner maker.id = maker.accountId := howner _ hmaker
      have howner' : Owns owner (book.setSide order.side.opposite
          (consume price maker orders levels traded)).entries := by
        intro e' he'
        obtain ⟨e, he, _, _, hid, haccount, _⟩ := Shrinks.of_exchanges ⟨others, hold, hnew⟩ e' he'
        rw [← hid, ← haccount]
        exact howner e he
      rw [hsettled owner howner' htakerOwner id, hexchanged₂.settled, hexchanged₁.settled]
      unfold reportMoves
      rw [List.map_cons, List.map_cons, List.sum_cons]
      unfold reportMove
      simp only [Fill.report, OrderBook.report, hmakerOwner, htakerOwner, htaker, hmakerBacking, backing,
        Book.restingOrder]
      ring

/-! ## What a command can do -/

/-- What every accepted command keeps. -/
structure Kept (LEVELS ORDERS : ℕ) (gateway gateway' : Gateway) : Prop where
  invariant : gateway'.Invariant LEVELS ORDERS
  expected : gateway'.expectedSequence = gateway.expectedSequence
  killed : gateway'.risk.killed = gateway.risk.killed
  profiles : gateway'.risk.accounts.map AccountRiskState.profile =
    gateway.risk.accounts.map AccountRiskState.profile

/-- An accepted new order: its makers are reduced, its remainder rests, and positions move as
reported. -/
structure Traded (LEVELS ORDERS : ℕ) (gateway : Gateway) (order : NewOrder) (summary : MatchSummary)
    (reports : List ExecutionReport) (gateway' : Gateway) : Prop where
  kept : gateway.Kept LEVELS ORDERS gateway'
  received : gateway'.maximumReceivedOrderId = some order.orderId
  watermark : gateway'.risk.maximumOrderId = some order.orderId
  admits : ∃ account ∈ gateway.risk.accounts, account.id = order.accountId ∧
    account.limits.Admits order.price order.quantity
  others : others order.orderId gateway'.book.entries =
    gateway.book.entries.filterMap (afterReports reports)
  own : own order.orderId gateway'.book.entries = takerRest order summary.restingQuantity
  accounted : summary.filledQuantity.val + summary.restingQuantity.val +
    summary.discardedQuantity.val = order.quantity.val
  remainder : summary.restingQuantity.val = 0 ∨ summary.discardedQuantity.val = 0
  parties : ∀ report ∈ reports, report.takerOrderId = order.orderId ∧
    ∃ entry ∈ gateway.book.entries, entry.2.2.id = report.makerOrderId ∧ entry.1 = order.side.opposite
  traded_le : ∀ entry ∈ gateway.book.entries,
    tradedWith entry.2.2.id reports ≤ entry.2.2.quantity.val
  settled : ∀ owner, Owns owner gateway.book.entries → owner order.orderId = order.accountId → ∀ id,
    gateway'.risk.settled id = gateway.risk.settled id + reportMoves owner order.side id reports

/-- An accepted replace or cancel of an owned order, which becomes `new`. -/
structure Amended (LEVELS ORDERS : ℕ) (gateway : Gateway) (orderId : OrderId) (accountId : AccountId)
    (new : List Entry) (gateway' : Gateway) : Prop where
  kept : gateway.Kept LEVELS ORDERS gateway'
  received : gateway'.maximumReceivedOrderId = gateway.maximumReceivedOrderId
  watermark : gateway'.risk.maximumOrderId = gateway.risk.maximumOrderId
  target : ∃ entry ∈ gateway.book.entries, entry.2.2.id = orderId ∧ entry.2.2.accountId = accountId
  others : others orderId gateway'.book.entries = others orderId gateway.book.entries
  own : own orderId gateway'.book.entries = new
  settled : ∀ id, gateway'.risk.settled id = gateway.risk.settled id

theorem Traded.resting_le {gateway' : Gateway} {order : NewOrder} {summary : MatchSummary}
    {reports : List ExecutionReport} (h : gateway.Traded LEVELS ORDERS order summary reports gateway') :
    summary.restingQuantity.val ≤ order.quantity.val := by
  have haccounted := h.accounted
  omega

/-- An order that rests after a new order is its remainder or was there before. -/
theorem Traded.origin {gateway' : Gateway} {order : NewOrder} {summary : MatchSummary}
    {reports : List ExecutionReport} (h : gateway.Traded LEVELS ORDERS order summary reports gateway')
    {entry' : Entry} (hentry' : entry' ∈ gateway'.book.entries) :
    entry' ∈ takerRest order summary.restingQuantity ∨
      ∃ entry ∈ gateway.book.entries, afterReports reports entry = some entry' := by
  by_cases hnew : entry'.2.2.id = order.orderId
  · rw [← h.own]
    exact .inl (mem_own.mpr ⟨hentry', hnew⟩)
  · have hothers : entry' ∈ Logical.others order.orderId gateway'.book.entries :=
      mem_others.mpr ⟨hentry', hnew⟩
    rw [h.others] at hothers
    exact .inr (List.mem_filterMap.mp hothers)

theorem Amended.origin {gateway' : Gateway} {orderId : OrderId} {accountId : AccountId} {new : List Entry}
    (h : gateway.Amended LEVELS ORDERS orderId accountId new gateway') {entry' : Entry}
    (hentry' : entry' ∈ gateway'.book.entries) : entry' ∈ new ∨ entry' ∈ gateway.book.entries := by
  by_cases hnamed : entry'.2.2.id = orderId
  · rw [← h.own]
    exact .inl (mem_own.mpr ⟨hentry', hnamed⟩)
  · have hothers : entry' ∈ Logical.others orderId gateway'.book.entries :=
      mem_others.mpr ⟨hentry', hnamed⟩
    rw [h.others] at hothers
    exact .inr (mem_others.mp hothers).1

/-- What a replace may leave of its order. An increase has passed the notional limit. -/
def AskedByReplace (gateway : Gateway) (replace : ReplaceOrder) (new : List Entry) : Prop :=
  ∃ side order', new = [(side, replace.price, order')] ∧ order'.accountId = replace.accountId ∧
    order'.quantity = replace.quantity ∧
    ∃ r ∈ gateway.risk.reservations, r.orderId = replace.orderId ∧ r.accountId = replace.accountId ∧
      (r.quantity.val < replace.quantity.val → ∀ account ∈ gateway.risk.accounts,
        account.id = replace.accountId →
          |replace.price.val| * replace.quantity.val ≤ account.limits.maxNotional.val)

/-- The ways in which a new order can end. -/
inductive NewOrderStep (LEVELS ORDERS : ℕ) (gateway : Gateway) (order : NewOrder) :
    Result × Gateway × List ExecutionReport → Prop where
  | stale (hstale : ∃ maximum ∈ gateway.maximumReceivedOrderId, order.orderId ≤ maximum) :
      NewOrderStep LEVELS ORDERS gateway order (.error (.risk .duplicateOrderId), gateway, [])
  | refused (hfresh : ∀ maximum ∈ gateway.maximumReceivedOrderId, maximum < order.orderId)
      (reason : RejectReason) :
      NewOrderStep LEVELS ORDERS gateway order
        (.error (.risk reason), { gateway with maximumReceivedOrderId := some order.orderId }, [])
  | unplaced (hfresh : ∀ maximum ∈ gateway.maximumReceivedOrderId, maximum < order.orderId)
      (reason : RejectReason) :
      NewOrderStep LEVELS ORDERS gateway order
        (.error (.book reason), { gateway with
          risk := { gateway.risk with maximumOrderId := some order.orderId }
          maximumReceivedOrderId := some order.orderId }, [])
  | accepted (hfresh : ∀ maximum ∈ gateway.maximumReceivedOrderId, maximum < order.orderId)
      (summary : MatchSummary) (gateway' : Gateway) (reports : List ExecutionReport)
      (htraded : gateway.Traded LEVELS ORDERS order summary reports gateway') :
      NewOrderStep LEVELS ORDERS gateway order (.ok (.newOrder summary), gateway', reports)

/-- The ways in which a replace or a cancel can end. -/
inductive AmendStep (LEVELS ORDERS : ℕ) (gateway : Gateway) (orderId : OrderId) (accountId : AccountId)
    (asked : List Entry → Prop) : Result × Gateway → Prop where
  | refused (reason : RejectReason)
      (hunknown : (∀ entry ∈ gateway.book.entries, entry.2.2.id ≠ orderId) → reason = .unknownOrder) :
      AmendStep LEVELS ORDERS gateway orderId accountId asked (.error (.risk reason), gateway)
  | unplaced (reason : RejectReason) (hknown : ∃ entry ∈ gateway.book.entries, entry.2.2.id = orderId) :
      AmendStep LEVELS ORDERS gateway orderId accountId asked (.error (.book reason), gateway)
  | accepted (outcome : GatewayOutcome) (gateway' : Gateway) (new : List Entry) (hasked : asked new)
      (hamended : gateway.Amended LEVELS ORDERS orderId accountId new gateway') :
      AmendStep LEVELS ORDERS gateway orderId accountId asked (.ok outcome, gateway')

section NewOrder

variable {order : NewOrder} {summary : MatchSummary} {fills : List Fill} {book' : Book} {capacity : ℕ}
  {risk₁ risk : RiskEngineState}

/-- Ids of resting orders are at most the received watermark. -/
theorem Invariant.id_le (h : gateway.Invariant LEVELS ORDERS) {entry : Entry}
    (hentry : entry ∈ gateway.book.entries) :
    ∃ received ∈ gateway.maximumReceivedOrderId, entry.2.2.id ≤ received := by
  have hr : backing entry ∈ gateway.risk.reservations :=
    h.backed.mem_iff.mpr (List.mem_map_of_mem hentry)
  obtain ⟨maximum, hmaximum, hle⟩ := h.risk.ordered.watermark _ hr
  obtain ⟨received, hreceived, hle'⟩ := h.watermark maximum hmaximum
  exact ⟨received, hreceived, hle.trans hle'⟩

/-- Where the orders of the book come from after a new order. -/
theorem Ready.submitted_sequence (hO : 0 < ORDERS) (h : gateway.Ready LEVELS ORDERS order.sequence)
    (hsubmit : gateway.book.submit LEVELS ORDERS capacity order = .ok (summary, fills, book')) :
    ∀ entry' ∈ book'.entries, entry'.2.2.sequence < gateway.expectedSequence := by
  obtain ⟨rest, left, _, _, _, _, _, hshrinks, others, hold, hnew⟩ :=
    (h.invariant.book.submit hO hsubmit h.sequence_pos h.newest).walk
  intro entry' hentry'
  rcases List.mem_append.mp (hnew.mem_iff.mp hentry') with hentry' | hentry'
  · unfold takerRest at hentry'
    split at hentry'
    · rw [List.mem_singleton.mp hentry']
      exact h.expected
    · simp at hentry'
  · obtain ⟨e, he, _, _, _, _, hsequence, _⟩ := hshrinks entry' (hold.mem_iff.mpr hentry')
    rw [← hsequence]
    exact h.invariant.sequences e he

/-- A matched order and a risk state that has followed it make an accepted order. -/
theorem Ready.traded (hO : 0 < ORDERS) (h : gateway.Ready LEVELS ORDERS order.sequence)
    (hfresh : ∀ maximum ∈ gateway.maximumReceivedOrderId, maximum < order.orderId)
    (hsubmit : gateway.book.submit LEVELS ORDERS capacity order = .ok (summary, fills, book'))
    (hreserved : RiskEngineState.Reserved gateway.risk order risk₁) (hrisk : risk.Consistent)
    (hsame : RiskEngineState.SameProfile risk₁ risk)
    (hbacked : risk.reservations.Perm (book'.entries.map backing))
    (hsettled : ∀ owner, Owns owner gateway.book.entries → owner order.orderId = order.accountId → ∀ id,
      risk.settled id = risk₁.settled id +
        reportMoves owner order.side id (fills.map (Fill.report order))) :
    gateway.Traded LEVELS ORDERS order summary (fills.map (Fill.report order))
      { gateway with
        risk := risk
        book := book'
        maximumReceivedOrderId := some order.orderId } := by
  have hinvariant := h.invariant
  have hsubmitted := hinvariant.book.submit hO hsubmit h.sequence_pos h.newest
  obtain ⟨rest, left, _, hleft, hfilled, hremainder, _, hshrinks, others, hold, hnew⟩ := hsubmitted.walk
  obtain ⟨hothers, hmakers, htradedLe⟩ := hinvariant.book.others_submit hsubmit
  have hsequences := h.submitted_sequence hO hsubmit
  have habsent : ∀ entry ∈ gateway.book.entries, entry.2.2.id ≠ order.orderId := by
    intro entry hentry heq
    obtain ⟨received, hreceived, hle⟩ := hinvariant.id_le hentry
    exact absurd (hfresh received hreceived) (not_lt.mpr (heq ▸ hle))
  refine ⟨⟨⟨hrisk, hsubmitted.restorable, hbacked, hinvariant.expected_pos,
    hsequences, ?_⟩, rfl, hsame.killed.trans hreserved.killed,
    hsame.profiles.trans hreserved.profiles⟩, rfl, hsame.watermark.trans hreserved.watermark,
    hreserved.admits, hothers, ?_, by omega, hremainder, ?_, htradedLe, ?_⟩
  · intro maximum hmaximum
    rw [hsame.watermark, hreserved.watermark] at hmaximum
    exact ⟨order.orderId, rfl, (Option.some.inj hmaximum).symm.le⟩
  · refine own_of_perm hnew ?_ ?_ ?_
    · intro entry hentry
      unfold takerRest at hentry
      split at hentry
      · rw [List.mem_singleton.mp hentry]
        rfl
      · simp at hentry
    · intro entry hentry
      obtain ⟨e, he, _, _, hid, _⟩ := hshrinks entry (hold.mem_iff.mpr hentry)
      rw [← hid]
      exact habsent e he
    · unfold takerRest
      split
      · rfl
      · exact Nat.zero_le 1
  · intro report hreport
    obtain ⟨fill, hfill, rfl⟩ := List.mem_map.mp hreport
    exact ⟨rfl, hmakers fill hfill⟩
  · intro owner howner htaker id
    exact (hsettled owner howner htaker id).trans (by rw [hreserved.settled])

theorem Ready.processNewOrder (hO : 0 < ORDERS) (h : gateway.Ready LEVELS ORDERS order.sequence)
    (RISK_ORDERS capacity : ℕ) :
    NewOrderStep LEVELS ORDERS gateway order
      (gateway.processNewOrder RISK_ORDERS LEVELS ORDERS capacity order) := by
  unfold Gateway.processNewOrder
  split
  · next hstale =>
    obtain ⟨maximum, hmem, hle⟩ := (Option.any_eq_true _ _).mp hstale
    exact .stale ⟨maximum, hmem, of_decide_eq_true hle⟩
  next hstale =>
  have hfresh : ∀ maximum ∈ gateway.maximumReceivedOrderId, maximum < order.orderId := by
    intro maximum hmem
    by_contra hle
    apply hstale
    rw [Option.any_eq_true]
    exact ⟨maximum, hmem, decide_eq_true (not_lt.mp hle)⟩
  have hinvariant := h.invariant
  simp only
  split
  · exact .refused hfresh _
  next risk₁ hreserve =>
  have hreserved := hinvariant.risk.checkAndReserve hreserve
  split
  · next error hsubmit =>
    simp only [release, hreserved.release]
    exact .unplaced hfresh error
  next summary fills book' hsubmit =>
  have hsubmitted := hinvariant.book.submit hO hsubmit h.sequence_pos h.newest
  obtain ⟨rest, left, hmatched, hleft, hfilled, hzero, _, _, others, hold, hnew⟩ := hsubmitted.walk
  have htaker : takerRest order order.quantity =
      [(order.side, order.price, Book.restingOrder order order.quantity)] :=
    if_pos hreserved.quantity
  have hbacked : risk₁.reservations.Perm
      ((takerRest order order.quantity ++ gateway.book.entries).map backing) := by
    rw [hreserved.reservations, htaker]
    calc
      (gateway.risk.reservations ++ [reservationOf order]).Perm
        ([reservationOf order] ++ gateway.risk.reservations) := List.perm_append_comm
      List.Perm _ ([reservationOf order] ++ gateway.book.entries.map backing) :=
        hinvariant.backed.append_left _
  obtain ⟨risk₂, hfills, hconsistent, hprofile, hbacked₂, hsettled⟩ :=
    recordFills_matched hmatched rfl hinvariant.book hreserved.consistent hbacked
  simp only [hfills]
  have hplaced : book'.entries.Perm (takerRest order summary.restingQuantity ++
      (gateway.book.setSide order.side.opposite rest).entries) :=
    hnew.trans (hold.symm.append_left _)
  split
  · next hdiscard =>
    obtain ⟨hresting, hpartly⟩ := hdiscard
    have hleft' : 0 < left.val := by omega
    have hnothing : takerRest order summary.restingQuantity = [] := if_neg (by omega)
    rw [takerRest, if_pos hleft', List.map_append] at hbacked₂
    have hnone : (0 : Quantity).val ≤
        (backing (order.side, order.price, Book.restingOrder order left)).quantity.val := Nat.zero_le _
    obtain ⟨risk₃, hsettle, hexchanged⟩ :=
      hconsistent.settle (hbacked₂.mem_iff.mpr List.mem_cons_self) hnone
    have hsettle' : risk₂.settle order.orderId 0 = .ok ((), risk₃) := hsettle
    have hunmoved : ∀ id, risk₃.settled id = risk₂.settled id := by
      intro id
      rw [hexchanged.settled, show (0 : Quantity).val = 0 from rfl, positionChange_zero, ite_self, add_zero]
    simp only [release, hsettle']
    refine .accepted hfresh summary _ _ (h.traded hO hfresh hsubmit hreserved hexchanged.consistent
      (hprofile.trans hexchanged.profile) ?_ ?_)
    · rw [hnothing] at hplaced
      exact (hexchanged.perm _ hbacked₂).trans (hplaced.map backing).symm
    · intro owner howner htakerOwner id
      rw [hunmoved, hsettled owner howner htakerOwner]
  · next hkept =>
    have hsame : left = summary.restingQuantity := by
      apply Fin.ext
      omega
    rw [hsame] at hbacked₂
    exact .accepted hfresh summary _ _ (h.traded hO hfresh hsubmit hreserved hconsistent hprofile
      (hbacked₂.trans (hplaced.map backing).symm) hsettled)

end NewOrder

/-! ## Replaces and cancels -/

/-- The order that a reservation backs. -/
theorem Invariant.backed_entry (h : gateway.Invariant LEVELS ORDERS) {r : ReservationRiskState}
    (hr : r ∈ gateway.risk.reservations) : ∃ entry ∈ gateway.book.entries, backing entry = r := by
  rw [h.backed.mem_iff] at hr
  obtain ⟨entry, hentry, heq⟩ := List.mem_map.mp hr
  exact ⟨entry, hentry, heq⟩

theorem Invariant.exists_entry (h : gateway.Invariant LEVELS ORDERS) {r : ReservationRiskState}
    (hr : r ∈ gateway.risk.reservations) :
    ∃ entry ∈ gateway.book.entries, entry.2.2.id = r.orderId := by
  obtain ⟨entry, hentry, rfl⟩ := h.backed_entry hr
  exact ⟨entry, hentry, rfl⟩

/-- An order that does not rest has no reservation. -/
theorem Invariant.reservation?_eq_none (h : gateway.Invariant LEVELS ORDERS) {orderId : OrderId}
    (habsent : ∀ entry ∈ gateway.book.entries, entry.2.2.id ≠ orderId) :
    gateway.risk.reservation? orderId = none := by
  rw [RiskEngineState.reservation?_eq_none]
  intro r hr heq
  obtain ⟨entry, hentry, hid⟩ := h.exists_entry hr
  exact habsent entry hentry (hid.trans heq)

theorem Invariant.backing_eq (h : gateway.Invariant LEVELS ORDERS) {r : ReservationRiskState}
    (hr : r ∈ gateway.risk.reservations) {entry : Entry} (hentry : entry ∈ gateway.book.entries)
    (hid : entry.2.2.id = r.orderId) : backing entry = r := by
  obtain ⟨entry', hentry', rfl⟩ := h.backed_entry hr
  rw [List.inj_on_of_nodup_map h.book.ids hentry hentry' hid]

/-- Exchanging an order and its reservation alike. -/
theorem Invariant.exchange (h : gateway.Invariant LEVELS ORDERS) {entry : Entry} {new : List Entry}
    {risk : RiskEngineState} {book : Book}
    (hrisk : RiskEngineState.Exchanged gateway.risk (backing entry) (new.map backing) 0 risk)
    (hbook : book.Restorable LEVELS ORDERS) (hex : Exchanges [entry] new gateway.book.entries book.entries)
    (hothers : others entry.2.2.id book.entries = others entry.2.2.id gateway.book.entries)
    (hid : ∀ e ∈ new, e.2.2.id = entry.2.2.id) (hlength : new.length ≤ 1)
    (hsequence : ∀ e ∈ new, e.2.2.sequence < gateway.expectedSequence) :
    gateway.Amended LEVELS ORDERS entry.2.2.id entry.2.2.accountId new
      { gateway with risk := risk, book := book } := by
  have hown := hex.own_eq hid h.book.ids hlength
  obtain ⟨others, hold, hnew⟩ := hex
  have hbacked : risk.reservations.Perm (book.entries.map backing) := by
    have hprior : gateway.risk.reservations.Perm (backing entry :: others.map backing) :=
      h.backed.trans (hold.map backing)
    have hnext := hrisk.perm _ hprior
    rw [← List.map_append] at hnext
    exact hnext.trans (hnew.map backing).symm
  refine ⟨⟨⟨hrisk.consistent, hbook, hbacked, h.expected_pos, ?_, ?_⟩, rfl, hrisk.profile.killed,
    hrisk.profile.profiles⟩, rfl, hrisk.profile.watermark,
    ⟨entry, hold.mem_iff.mpr List.mem_cons_self, rfl, rfl⟩, hothers, hown, ?_⟩
  · intro e he
    rcases List.mem_append.mp (hnew.mem_iff.mp he) with he | he
    · exact hsequence e he
    · exact h.sequences e (hold.mem_iff.mpr (List.mem_cons_of_mem _ he))
  · intro maximum hmaximum
    rw [hrisk.profile.watermark] at hmaximum
    exact h.watermark maximum hmaximum
  · intro id
    rw [hrisk.settled, ite_self, add_zero]

theorem Ready.processReplace {replace : ReplaceOrder} (hO : 0 < ORDERS)
    (h : gateway.Ready LEVELS ORDERS replace.sequence) :
    AmendStep LEVELS ORDERS gateway replace.orderId replace.accountId (gateway.AskedByReplace replace)
      (gateway.processReplace LEVELS ORDERS replace) := by
  have hinvariant := h.invariant
  unfold Gateway.processReplace
  split
  · next reason hadjust =>
    refine .refused reason fun habsent ↦ ?_
    unfold RiskEngineState.adjustReservation at hadjust
    rw [hinvariant.reservation?_eq_none habsent] at hadjust
    exact (Except.error.inj hadjust).symm
  next released prior risk hadjust =>
  obtain ⟨r, hr, hid, haccount, rfl, _, hexchanged, hrestore, hnotional⟩ :=
    hinvariant.risk.adjustReservation hadjust
  split
  · next replaced book hreplace =>
    obtain ⟨side, oldPrice, order, order', horder, howner, hid', haccount', hquantity, hsequence,
      hrestorable, _, hex⟩ := hinvariant.book.replace hO hreplace h.newest
    have hmem : (side, oldPrice, order) ∈ gateway.book.entries := by
      obtain ⟨others, hold, _⟩ := hex
      exact hold.mem_iff.mpr List.mem_cons_self
    have hbacking : backing (side, oldPrice, order) = r :=
      hinvariant.backing_eq hr hmem (horder.trans hid.symm)
    have hnew : [(side, replace.price, order')].map backing =
        [{ r with quantity := replace.quantity }] := by
      rw [← hbacking, List.map_singleton]
      unfold backing
      rw [hid', haccount', hquantity]
    rw [← hnew, ← hbacking] at hexchanged
    have hothers := Book.others_replace hreplace
    rw [← horder] at hothers
    have hamended := hinvariant.exchange hexchanged hrestorable hex hothers
      (fun e he ↦ by rw [List.mem_singleton.mp he]; exact hid') le_rfl
      (fun e he ↦ by rw [List.mem_singleton.mp he]; exact lt_of_le_of_lt hsequence h.expected)
    rw [← horder, ← howner]
    refine .accepted _ _ _ ⟨side, order', rfl, haccount'.trans howner, hquantity, r, hr, hid, haccount,
      hnotional⟩ hamended
  · next error hreplace =>
    simp only [hrestore]
    obtain ⟨entry, hentry, hentryId⟩ := hinvariant.exists_entry hr
    exact .unplaced error ⟨entry, hentry, hentryId.trans hid⟩

theorem Ready.processCancel {cancel : CancelOrder} (h : gateway.Ready LEVELS ORDERS cancel.sequence) :
    AmendStep LEVELS ORDERS gateway cancel.orderId cancel.accountId (fun new ↦ new = [])
      (gateway.processCancel cancel) := by
  have hinvariant := h.invariant
  unfold Gateway.processCancel
  split
  · next reason hcan =>
    refine .refused reason fun habsent ↦ ?_
    unfold RiskEngineState.canCancel at hcan
    rw [hinvariant.reservation?_eq_none habsent] at hcan
    exact (Except.error.inj hcan).symm
  next hcan =>
  split
  · next error _ =>
    refine .unplaced error ?_
    by_contra habsent
    push Not at habsent
    unfold RiskEngineState.canCancel at hcan
    rw [hinvariant.reservation?_eq_none habsent] at hcan
    simp at hcan
  next cancelled book hcancel =>
  obtain ⟨side, price, order, hid, howner, rfl, hrestorable, _, hex⟩ := hinvariant.book.cancel hcancel
  have hmem : (side, price, order) ∈ gateway.book.entries := by
    obtain ⟨others, hold, _⟩ := hex
    exact hold.mem_iff.mpr List.mem_cons_self
  have hr : backing (side, price, order) ∈ gateway.risk.reservations :=
    hinvariant.backed.mem_iff.mpr (List.mem_map_of_mem hmem)
  obtain ⟨risk, hrelease, hexchanged⟩ := hinvariant.risk.cancelReservation hr
  have hothers := Book.others_cancel hcancel
  rw [← hid] at hothers
  have hamended := hinvariant.exchange hexchanged hrestorable hex hothers (by simp) (Nat.zero_le _) (by simp)
  have hrelease' : gateway.risk.cancelReservation cancel.orderId cancel.accountId =
      .ok (order.quantity, risk) := by
    rw [← hid, ← howner]
    exact hrelease
  simp only [hrelease', ne_eq, not_true_eq_false, if_false]
  rw [← hid, ← howner]
  exact .accepted _ _ [] rfl hamended

/-! ## Commands -/

/-- The gateway once a command is admitted. -/
structure Admitted (gateway : Gateway) (command : Command) (gateway' : Gateway) : Prop where
  sequence : command.sequence = gateway.expectedSequence
  next : gateway'.expectedSequence.val = gateway.expectedSequence.val + 1
  rest : gateway' = { gateway with expectedSequence := gateway'.expectedSequence }

/-- The ways in which a command can end. -/
inductive CommandStep (LEVELS ORDERS : ℕ) (gateway : Gateway) (command : Command) :
    Result × Gateway × List ExecutionReport → Prop where
  | outOfSequence (hsequence : command.sequence ≠ gateway.expectedSequence) :
      CommandStep LEVELS ORDERS gateway command
        (.error (.sequence gateway.expectedSequence command.sequence), gateway, [])
  | exhausted (hsequence : command.sequence = gateway.expectedSequence)
      (hmaximum : gateway.expectedSequence = Unsigned.maxValue 64) :
      CommandStep LEVELS ORDERS gateway command (.error (.riskState .arithmeticOverflow), gateway, [])
  | newOrder {admitted : Gateway} {order : NewOrder} {outcome : Result × Gateway × List ExecutionReport}
      (hadmitted : gateway.Admitted command admitted) (hready : admitted.Ready LEVELS ORDERS command.sequence)
      (hcommand : command = .newOrder order) (hstep : NewOrderStep LEVELS ORDERS admitted order outcome) :
      CommandStep LEVELS ORDERS gateway command outcome
  | cancelOrder {admitted : Gateway} {cancel : CancelOrder} {outcome : Result × Gateway}
      (hadmitted : gateway.Admitted command admitted) (hready : admitted.Ready LEVELS ORDERS command.sequence)
      (hcommand : command = .cancelOrder cancel)
      (hstep : AmendStep LEVELS ORDERS admitted cancel.orderId cancel.accountId (fun new ↦ new = [])
        outcome) :
      CommandStep LEVELS ORDERS gateway command (outcome.1, outcome.2, [])
  | replaceOrder {admitted : Gateway} {replace : ReplaceOrder} {outcome : Result × Gateway}
      (hadmitted : gateway.Admitted command admitted) (hready : admitted.Ready LEVELS ORDERS command.sequence)
      (hcommand : command = .replaceOrder replace)
      (hstep : AmendStep LEVELS ORDERS admitted replace.orderId replace.accountId
        (admitted.AskedByReplace replace) outcome) :
      CommandStep LEVELS ORDERS gateway command (outcome.1, outcome.2, [])

theorem checkSequence_cases (expected received : SequenceNumber) :
    received ≠ expected ∧ DeterministicExchange.Gateway.checkSequence expected received =
        .error (.sequence expected received) ∨
      received = expected ∧ expected = Unsigned.maxValue 64 ∧
        DeterministicExchange.Gateway.checkSequence expected received =
          .error (.riskState .arithmeticOverflow) ∨
      ∃ next : SequenceNumber, received = expected ∧ next.val = expected.val + 1 ∧
        DeterministicExchange.Gateway.checkSequence expected received = .ok next := by
  unfold DeterministicExchange.Gateway.checkSequence
  by_cases heq : received = expected
  · rw [if_neg (not_not.mpr heq)]
    refine .inr ?_
    cases hadd : Unsigned.checkedAdd expected 1 with
    | none =>
      have hle : 2 ^ 64 ≤ expected.val + (1 : U64).val := Unsigned.checkedAdd_eq_none.mp hadd
      have hlt := expected.isLt
      refine .inl ⟨heq, ?_, rfl⟩
      apply Fin.ext
      show expected.val = 2 ^ 64 - 1
      have hone : (1 : U64).val = 1 := rfl
      omega
    | some next => exact .inr ⟨next, heq, (Unsigned.checkedAdd_eq_some.mp hadd).symm, rfl⟩
  · exact .inl ⟨heq, if_pos heq⟩

theorem Invariant.ready (h : gateway.Invariant LEVELS ORDERS) {next : SequenceNumber}
    (hnext : next.val = gateway.expectedSequence.val + 1) :
    { gateway with expectedSequence := next }.Ready LEVELS ORDERS gateway.expectedSequence := by
  have hlt : gateway.expectedSequence < next := by
    show gateway.expectedSequence.val < next.val
    omega
  refine ⟨⟨h.risk, h.book, h.backed, ?_, fun e he ↦ (h.sequences e he).trans hlt, h.watermark⟩,
    h.expected_pos, h.sequences, hlt⟩
  show 0 < next.val
  omega

/-- Every command on an agreeing gateway ends in one of the described ways. -/
theorem Invariant.processCommand (hO : 0 < ORDERS) (h : gateway.Invariant LEVELS ORDERS)
    (RISK_ORDERS capacity : ℕ) (command : Command) :
    CommandStep LEVELS ORDERS gateway command
      (gateway.processCommand RISK_ORDERS LEVELS ORDERS capacity command) := by
  unfold Gateway.processCommand
  rcases checkSequence_cases gateway.expectedSequence command.sequence with
    ⟨hne, hcheck⟩ | ⟨heq, hmaximum, hcheck⟩ | ⟨next, heq, hnext, hcheck⟩
  · simp only [hcheck]
    exact .outOfSequence hne
  · simp only [hcheck]
    exact .exhausted heq hmaximum
  · simp only [hcheck]
    have hready := h.ready hnext
    rw [← heq] at hready
    have hadmitted : gateway.Admitted command { gateway with expectedSequence := next } :=
      ⟨heq, hnext, rfl⟩
    cases command with
    | newOrder order =>
      exact .newOrder hadmitted hready rfl (hready.processNewOrder hO RISK_ORDERS capacity)
    | cancelOrder cancel =>
      exact .cancelOrder hadmitted hready rfl hready.processCancel
    | replaceOrder replace =>
      exact .replaceOrder hadmitted hready rfl (hready.processReplace hO)

/-! ## Every command keeps the agreement -/

theorem NewOrderStep.invariant {order : NewOrder} {outcome : Result × Gateway × List ExecutionReport}
    (hstep : NewOrderStep LEVELS ORDERS gateway order outcome) (h : gateway.Invariant LEVELS ORDERS) :
    outcome.2.1.Invariant LEVELS ORDERS := by
  have hwatermark (hfresh : ∀ maximum ∈ gateway.maximumReceivedOrderId, maximum < order.orderId) :
      ∀ maximum ∈ gateway.risk.maximumOrderId, maximum ≤ order.orderId := by
    intro maximum hmaximum
    obtain ⟨received, hreceived, hle⟩ := h.watermark maximum hmaximum
    exact hle.trans (hfresh received hreceived).le
  cases hstep with
  | stale _ => exact h
  | refused hfresh reason =>
    exact ⟨h.risk, h.book, h.backed, h.expected_pos, h.sequences,
      fun maximum hmaximum ↦ ⟨order.orderId, rfl, hwatermark hfresh maximum hmaximum⟩⟩
  | unplaced hfresh reason =>
    refine ⟨h.risk.raiseWatermark (hwatermark hfresh), h.book, h.backed, h.expected_pos,
      h.sequences, ?_⟩
    intro maximum hmaximum
    exact ⟨order.orderId, rfl, (Option.some.inj hmaximum).symm.le⟩
  | accepted _ _ _ _ htraded => exact htraded.kept.invariant

theorem AmendStep.invariant {orderId : OrderId} {accountId : AccountId} {asked : List Entry → Prop}
    {outcome : Result × Gateway}
    (hstep : AmendStep LEVELS ORDERS gateway orderId accountId asked outcome)
    (h : gateway.Invariant LEVELS ORDERS) : outcome.2.Invariant LEVELS ORDERS := by
  cases hstep with
  | refused _ _ => exact h
  | unplaced _ _ => exact h
  | accepted _ _ _ _ hamended => exact hamended.kept.invariant

theorem CommandStep.invariant {command : Command} {outcome : Result × Gateway × List ExecutionReport}
    (hstep : CommandStep LEVELS ORDERS gateway command outcome) (h : gateway.Invariant LEVELS ORDERS) :
    outcome.2.1.Invariant LEVELS ORDERS := by
  cases hstep with
  | outOfSequence _ => exact h
  | exhausted _ _ => exact h
  | newOrder _ hready _ hstep => exact hstep.invariant hready.invariant
  | cancelOrder _ hready _ hstep => exact hstep.invariant hready.invariant
  | replaceOrder _ hready _ hstep => exact hstep.invariant hready.invariant

/-- The state of risk is never in doubt, except at the end of the sequence space. -/
theorem CommandStep.riskState {command : Command} {outcome : Result × Gateway × List ExecutionReport}
    (hstep : CommandStep LEVELS ORDERS gateway command outcome) {reason : RejectReason}
    (herror : outcome.1 = .error (.riskState reason)) :
    reason = .arithmeticOverflow ∧ command.sequence = gateway.expectedSequence ∧
      gateway.expectedSequence = Unsigned.maxValue 64 ∧ outcome.2.1 = gateway := by
  cases hstep with
  | outOfSequence _ => simp at herror
  | exhausted hsequence hmaximum =>
    have hreason : reason = .arithmeticOverflow := by simpa using herror.symm
    exact ⟨hreason, hsequence, hmaximum, rfl⟩
  | newOrder _ _ _ hstep => cases hstep <;> simp at herror
  | cancelOrder _ _ _ hstep => cases hstep <;> simp at herror
  | replaceOrder _ _ _ hstep => cases hstep <;> simp at herror

end Gateway

end DeterministicExchange.Logical
