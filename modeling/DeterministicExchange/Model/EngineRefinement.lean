import DeterministicExchange.Gateway.Invariant
import DeterministicExchange.Model.BookRefinement
import DeterministicExchange.Model.Reservations

/-!
# The reference gateway and the logical gateway

The reference gateway tracks a logical gateway when its book mirrors the logical book and its maps
keep the logical risk state. Both then answer a command alike and stay in step, except where the
limits refuse a larger amendment.
-/

namespace DeterministicExchange.Model

open Machine DeterministicExchange.Book DeterministicExchange.Risk

variable {LEVELS ORDERS : ℕ} {engine : ModelEngine} {gateway : Logical.Gateway}

namespace Keeps

variable {risk risk' : RiskEngineState} {orderId : OrderId}

theorem settle (h : Keeps engine.accounts engine.reservations risk)
    (hok : risk.settle orderId 0 = .ok ((), risk')) :
    ∃ accounts reservations, engine.release orderId =
        .ok { engine with accounts := accounts, reservations := reservations } ∧
      Keeps accounts reservations risk' := by
  unfold RiskEngineState.settle at hok
  split at hok
  · cases hok
  next r hlookup =>
  split at hok
  · cases hok
  exact h.release hlookup hok

theorem cancelReservation (h : Keeps engine.accounts engine.reservations risk) {accountId : AccountId}
    {quantity : Quantity} (hok : risk.cancelReservation orderId accountId = .ok (quantity, risk')) :
    ∃ accounts reservations, engine.release orderId =
        .ok { engine with accounts := accounts, reservations := reservations } ∧
      Keeps accounts reservations risk' := by
  unfold RiskEngineState.cancelReservation at hok
  split at hok
  · cases hok
  next r hlookup =>
  split at hok
  · cases hok
  split at hok
  · cases hok
  next hsettle =>
  obtain ⟨-, rfl⟩ := Prod.mk.inj (Except.ok.inj hok)
  exact h.release hlookup hsettle

/-- The fills of a taker are recorded alike. -/
theorem recordFills (order : NewOrder) {fills : List ModelFill}
    (h : Keeps engine.accounts engine.reservations risk)
    (hok : Logical.Gateway.recordFills (fills.map (Logical.Fill.report order)) risk = (.ok (), risk')) :
    ∃ accounts reservations, ModelEngine.recordFills order.orderId fills engine =
        .ok { engine with accounts := accounts, reservations := reservations } ∧
      Keeps accounts reservations risk' := by
  induction fills generalizing engine risk with
  | nil =>
    obtain ⟨-, rfl⟩ := Prod.mk.inj hok
    exact ⟨_, _, rfl, h⟩
  | cons fill fills ih =>
    rw [List.map_cons, Logical.Gateway.recordFills] at hok
    split at hok
    · cases (Prod.mk.inj hok).1
    next risk₁ hmaker =>
    split at hok
    · cases (Prod.mk.inj hok).1
    next risk₂ htaker =>
    obtain ⟨accounts₁, reservations₁, hrun₁, h₁⟩ := h.recordFill hmaker
    let engine₁ : ModelEngine := { engine with accounts := accounts₁, reservations := reservations₁ }
    have h₁ : Keeps engine₁.accounts engine₁.reservations risk₁ := h₁
    obtain ⟨accounts₂, reservations₂, hrun₂, h₂⟩ := h₁.recordFill htaker
    let engine₂ : ModelEngine := { engine with accounts := accounts₂, reservations := reservations₂ }
    have h₂ : Keeps engine₂.accounts engine₂.reservations risk₂ := h₂
    obtain ⟨accounts₃, reservations₃, hrun₃, h₃⟩ := ih h₂ hok
    have hfill₁ : engine.recordFill fill.makerId fill.quantity = .ok engine₁ := hrun₁
    have hfill₂ : engine₁.recordFill order.orderId fill.quantity = .ok engine₂ := hrun₂
    refine ⟨accounts₃, reservations₃, ?_, h₃⟩
    rw [ModelEngine.recordFills, hfill₁, Run.ok_bind, hfill₂, Run.ok_bind, hrun₃]

end Keeps

/-- What the reference gateway reports of an accepted command. -/
inductive ModelOutcome where
  | accepted (outcome : ModelNewOutcome)
  | cancelled (outcome : ModelCancelled)
  | replaced (outcome : ModelReplaced)
  deriving DecidableEq, Repr

abbrev ModelAnswer := Except ModelRejection ModelOutcome

/-- A command on the reference gateway. -/
def ModelEngine.apply (reportCapacity : ℕ) (engine : ModelEngine) :
    Command → Run (ModelAnswer × ModelEngine)
  | .newOrder order =>
    (engine.applyNew order reportCapacity).map fun outcome ↦ (outcome.1.map .accepted, outcome.2)
  | .cancelOrder cancel =>
    (engine.applyCancel cancel).map fun outcome ↦ (outcome.1.map .cancelled, outcome.2)
  | .replaceOrder replace =>
    (engine.applyReplace replace).map fun outcome ↦ (outcome.1.map .replaced, outcome.2)

/-- The answer that the reference gateway gives for a result of the gateway and its reports; a frame
error or a doubtful risk state has none. -/
def answerOf (result : Except GatewayError GatewayOutcome) (reports : List ExecutionReport) :
    Option ModelAnswer :=
  match result with
  | .ok (.newOrder summary) =>
    some (.ok (.accepted ⟨summary.filledQuantity, summary.restingQuantity, summary.discardedQuantity,
      reports.map fillOf⟩))
  | .ok (.cancelled order) => some (.ok (.cancelled ⟨order.orderId, order.accountId, order.quantity⟩))
  | .ok (.replaced order) =>
    some (.ok (.replaced ⟨order.orderId, order.accountId, order.oldQuantity, order.newQuantity, order.price,
      order.priorityLost⟩))
  | .error (.risk reason) => some (.error (.risk reason))
  | .error (.book reason) => some (.error (.book reason))
  | .error _ => none

/-- The reference gateway is in step with a logical gateway. -/
structure Tracks (LEVELS ORDERS : ℕ) (engine : ModelEngine) (gateway : Logical.Gateway) : Prop where
  instrument : engine.instrument = gateway.book.instrument
  levelCap : engine.levelCap = LEVELS
  orderCap : engine.orderCap = ORDERS
  book : Mirrors engine.book gateway.book
  kept : Keeps engine.accounts engine.reservations gateway.risk
  received : engine.maximumReceivedOrderId = gateway.maximumReceivedOrderId
  sequence : engine.nextSequence = gateway.expectedSequence

/-- Both gateways answer alike and stay in step. -/
def Agrees {A : Type} (LEVELS ORDERS : ℕ) (wrap : A → ModelOutcome)
    (run : Run (Except ModelRejection A × ModelEngine))
    (outcome : Logical.Gateway.Result × Logical.Gateway × List ExecutionReport) : Prop :=
  ∃ answer engine', run = .ok (answer, engine') ∧
    answerOf outcome.1 outcome.2.2 = some (answer.map wrap) ∧ Tracks LEVELS ORDERS engine' outcome.2.1

/-- The limits of its account refuse to let the order of a larger amendment grow. -/
structure Refused (risk : RiskEngineState) (replace : ReplaceOrder) (reason : RejectReason)
    (r : ReservationRiskState) (account : AccountRiskState) : Prop where
  reserved : risk.reservation? replace.orderId = some r
  owner : r.accountId = replace.accountId
  registered : risk.account? replace.accountId = some account
  larger : r.quantity.val < replace.quantity.val
  refused : evaluateIncrease account r.side replace.price (Unsigned.monus replace.quantity r.quantity)
    replace.quantity = .error reason

namespace Tracks

theorem orderly (hinvariant : gateway.Invariant LEVELS ORDERS) : gateway.book.Orderly :=
  ⟨fun side level hlevel ↦ (hinvariant.book.level side level hlevel).nonempty, hinvariant.book.sorted,
    fun side level hlevel ↦ (hinvariant.book.level side level hlevel).quantity_pos, hinvariant.book.ids⟩

/-- The reference gateway admits the command that the gateway expects. -/
theorem advance (h : Tracks LEVELS ORDERS engine gateway) {sequence next : SequenceNumber}
    (hsequence : sequence = gateway.expectedSequence) (hnext : next.val = gateway.expectedSequence.val + 1) :
    engine.advance sequence = .ok { engine with nextSequence := next } ∧
      Tracks LEVELS ORDERS { engine with nextSequence := next }
        { gateway with expectedSequence := next } := by
  have hsucc : wrappingSucc engine.nextSequence = next := by
    apply Fin.ext
    show (engine.nextSequence.val + 1) % 2 ^ 64 = next.val
    rw [h.sequence, ← hnext]
    exact Nat.mod_eq_of_lt next.isLt
  refine ⟨?_, h.instrument, h.levelCap, h.orderCap, h.book, h.kept, h.received, rfl⟩
  unfold ModelEngine.advance
  rw [hsequence, h.sequence, decide_eq_true rfl, require_true, Run.ok_bind, ← h.sequence, hsucc]
  rfl

/-- A new order within the risk capacity is checked and reserved alike. -/
theorem checkAndReserve (hinvariant : gateway.Invariant LEVELS ORDERS) {order : NewOrder} {RISK_ORDERS : ℕ}
    (hkilled : gateway.risk.killed = false) (hquantity : 0 < order.quantity.val)
    (hfresh : ∀ maximum ∈ gateway.maximumReceivedOrderId, maximum < order.orderId)
    (hroom : gateway.risk.checkAndReserve RISK_ORDERS order ≠ .error .orderCapacity) :
    gateway.risk.checkAndReserve RISK_ORDERS order =
      match gateway.risk.account? order.accountId with
      | none => .error .unknownAccount
      | some account =>
        match Risk.evaluateLimits account order with
        | .error reason => .error reason
        | .ok (reservedBuys, reservedSells, openOrders) =>
          .ok ((), (gateway.risk.putAccount (account.withTotals account.settledPosition reservedBuys
            reservedSells openOrders)).addReservation (reservationOf order)) := by
  have hwatermark : ¬ (gateway.risk.maximumOrderId.any fun maximum ↦ order.orderId ≤ maximum) = true := by
    rw [Option.any_eq_true]
    rintro ⟨maximum, hmaximum, hle⟩
    obtain ⟨received, hreceived, hle'⟩ := hinvariant.watermark maximum hmaximum
    exact absurd ((of_decide_eq_true hle).trans hle') (not_le.mpr (hfresh received hreceived))
  have hstopped : ¬ gateway.risk.killed = true := by simp [hkilled]
  unfold RiskEngineState.checkAndReserve at hroom ⊢
  rw [if_neg hstopped, if_neg hquantity.ne', if_neg hwatermark] at hroom ⊢
  split at hroom
  · exact absurd rfl hroom
  · next hlength =>
    rw [if_neg hlength]
    rfl

section NewOrder

variable {order : NewOrder} {RISK_ORDERS capacity : ℕ}

/-- A reserved order is placed alike, as long as the risk state is not in doubt. -/
theorem place (h : Tracks LEVELS ORDERS engine gateway)
    (horderly : gateway.book.Orderly) (hinstrument : order.instrumentId = gateway.book.instrument)
    (outcome : Logical.Gateway.Result × Logical.Gateway × List ExecutionReport)
    (houtcome : outcome = match gateway.book.submit LEVELS ORDERS capacity order with
      | .error error =>
        let (result, gateway) := gateway.release order.orderId (.error (.book error))
        (result, gateway, [])
      | .ok (summary, fills, book) =>
        let reports := fills.map (Logical.Fill.report order)
        match Logical.Gateway.recordFills reports gateway.risk with
        | (.error reason, risk) =>
          (.error (.riskState reason), { gateway with risk := risk, book := book }, reports)
        | (.ok _, risk) =>
          let gateway := { gateway with risk := risk, book := book }
          if summary.restingQuantity.val = 0 ∧ summary.filledQuantity.val < order.quantity.val then
            let (result, gateway) := gateway.release order.orderId (.ok (.newOrder summary))
            (result, gateway, reports)
          else (.ok (.newOrder summary), gateway, reports))
    (hsure : ∀ reason, outcome.1 ≠ .error (.riskState reason)) :
    Agrees LEVELS ORDERS .accepted (engine.place order capacity) outcome := by
  subst houtcome
  have hsame : ¬ order.instrumentId ≠ engine.instrument := not_not.mpr (hinstrument.trans h.instrument.symm)
  unfold ModelEngine.place
  rw [if_neg hsame]
  have hsubmit : Implements Mirrors engine.book
      ((gateway.book.submit LEVELS ORDERS capacity order).map Mirrors.submitted)
      (engine.book.submit order capacity engine.levelCap engine.orderCap) := by
    rw [h.levelCap, h.orderCap]
    exact h.book.submit horderly hinstrument capacity
  cases hspec : gateway.book.submit LEVELS ORDERS capacity order with
  | error error =>
    rw [hspec] at hsure hsubmit
    rw [hsubmit.of_error rfl, Run.ok_bind]
    unfold Logical.Gateway.release at hsure ⊢
    dsimp only at hsure ⊢
    cases hsettle : gateway.risk.settle order.orderId 0 with
    | error reason =>
      rw [hsettle] at hsure
      exact absurd rfl (hsure reason)
    | ok settled =>
      obtain ⟨_, settled⟩ := settled
      obtain ⟨accounts, reservations, hrelease, hkept⟩ := h.kept.settle hsettle
      rw [hrelease, Run.ok_bind]
      exact ⟨_, _, rfl, rfl, h.instrument, h.levelCap, h.orderCap, h.book, hkept, h.received, h.sequence⟩
  | ok submitted =>
    rw [hspec] at hsure hsubmit
    obtain ⟨summary, fills, book⟩ := submitted
    obtain ⟨book', hrun, hmirrors⟩ := hsubmit.of_ok rfl
    rw [hrun, Run.ok_bind]
    have hbook : engine.instrument = book.instrument := h.instrument.trans (submit_instrument hspec).symm
    dsimp only [Mirrors.submitted] at hsure ⊢
    cases hrecord : Logical.Gateway.recordFills (fills.map (Logical.Fill.report order)) gateway.risk with
    | mk recorded risk₁ =>
      cases recorded with
      | error reason =>
        rw [hrecord] at hsure
        exact absurd rfl (hsure reason)
      | ok _ =>
        let placed : ModelEngine := { engine with book := book' }
        have hkept : Keeps placed.accounts placed.reservations gateway.risk := h.kept
        obtain ⟨accounts, reservations, hfills, hkept⟩ := hkept.recordFills order hrecord
        have hfills' : ModelEngine.recordFills order.orderId fills { engine with book := book' } = _ := hfills
        rw [hrecord] at hsure
        rw [hfills', Run.ok_bind]
        dsimp only at hsure ⊢
        have hreports : (fills.map (Logical.Fill.report order)).map fillOf = fills := by
          rw [List.map_map]
          exact List.map_id fills
        by_cases hdiscard : summary.restingQuantity.val = 0 ∧ summary.filledQuantity.val < order.quantity.val
        · rw [if_pos hdiscard] at hsure ⊢
          rw [if_pos hdiscard]
          unfold Logical.Gateway.release at hsure ⊢
          dsimp only at hsure ⊢
          cases hsettle : risk₁.settle order.orderId 0 with
          | error reason =>
            rw [hsettle] at hsure
            exact absurd rfl (hsure reason)
          | ok settled =>
            obtain ⟨_, settled⟩ := settled
            let filled : ModelEngine := { placed with accounts := accounts, reservations := reservations }
            have hkept : Keeps filled.accounts filled.reservations risk₁ := hkept
            obtain ⟨accounts', reservations', hrelease, hkept'⟩ := hkept.settle hsettle
            have hrelease' : ModelEngine.release { placed with
              accounts := accounts, reservations := reservations } order.orderId = _ := hrelease
            rw [hrelease', Run.ok_bind]
            refine ⟨_, _, rfl, ?_, hbook, h.levelCap, h.orderCap, hmirrors, hkept', h.received, h.sequence⟩
            dsimp only [answerOf, Except.map]
            rw [hreports]
        · rw [if_neg hdiscard] at hsure ⊢
          rw [if_neg hdiscard]
          refine ⟨_, _, rfl, ?_, hbook, h.levelCap, h.orderCap, hmirrors, hkept, h.received, h.sequence⟩
          dsimp only [answerOf, Except.map]
          rw [hreports]

/-- A new order is received alike. -/
theorem receiveNew (h : Tracks LEVELS ORDERS engine gateway) (hO : 0 < ORDERS)
    (hready : gateway.Ready LEVELS ORDERS order.sequence) (hkilled : gateway.risk.killed = false)
    (hinstrument : order.instrumentId = gateway.book.instrument) (hquantity : 0 < order.quantity.val)
    (hroom : (gateway.processNewOrder RISK_ORDERS LEVELS ORDERS capacity order).1 ≠
      .error (.risk .orderCapacity)) :
    Agrees LEVELS ORDERS .accepted (engine.receiveNew order capacity)
      (gateway.processNewOrder RISK_ORDERS LEVELS ORDERS capacity order) := by
  have hsure (reason : RejectReason) :
      (gateway.processNewOrder RISK_ORDERS LEVELS ORDERS capacity order).1 ≠ .error (.riskState reason) := by
    have hstep := hready.processNewOrder hO RISK_ORDERS capacity
    intro herror
    generalize gateway.processNewOrder RISK_ORDERS LEVELS ORDERS capacity order = outcome at hstep herror
    cases hstep <;> simp at herror
  have hinvariant := hready.invariant
  have horderly := orderly hinvariant
  unfold Logical.Gateway.processNewOrder at hroom hsure ⊢
  unfold ModelEngine.receiveNew
  rw [h.received]
  by_cases hstale : (gateway.maximumReceivedOrderId.any fun maximum ↦ order.orderId ≤ maximum) = true
  · rw [if_pos hstale, if_pos hstale]
    exact ⟨_, _, rfl, rfl, h⟩
  have hfresh : ∀ maximum ∈ gateway.maximumReceivedOrderId, maximum < order.orderId := by
    intro maximum hmem
    by_contra hle
    apply hstale
    rw [Option.any_eq_true]
    exact ⟨maximum, hmem, decide_eq_true (not_lt.mp hle)⟩
  rw [if_neg hstale] at hroom hsure ⊢
  rw [if_neg hstale]
  dsimp only at hroom hsure ⊢
  have hcapacity : gateway.risk.checkAndReserve RISK_ORDERS order ≠ .error .orderCapacity := by
    intro herror
    rw [herror] at hroom
    exact hroom rfl
  rw [checkAndReserve hinvariant hkilled hquantity hfresh hcapacity] at hsure ⊢
  cases haccount : gateway.risk.account? order.accountId with
  | none =>
    have hget : engine.accounts.get order.accountId = none := by
      rw [h.kept.accounts, haccount]
      rfl
    rw [hget]
    exact ⟨_, _, rfl, rfl, h.instrument, h.levelCap, h.orderCap, h.book, h.kept, rfl, h.sequence⟩
  | some account =>
    rw [haccount] at hsure
    rw [h.kept.get_account haccount]
    dsimp only at hsure ⊢
    rw [evaluateLimits_of]
    cases hlimits : Risk.evaluateLimits account order with
    | error reason =>
      exact ⟨_, _, rfl, rfl, h.instrument, h.levelCap, h.orderCap, h.book, h.kept, rfl, h.sequence⟩
    | ok totals =>
      obtain ⟨buys, sells, openOrders⟩ := totals
      rw [hlimits] at hsure
      have habsent : gateway.risk.reservation? order.orderId = none := by
        refine hinvariant.reservation?_eq_none fun entry hentry heq ↦ ?_
        obtain ⟨received, hreceived, hle⟩ := hinvariant.id_le hentry
        exact absurd (hfresh received hreceived) (not_lt.mpr (heq ▸ hle))
      let received : ModelEngine := { engine with maximumReceivedOrderId := some order.orderId }
      have hkept : Keeps received.accounts received.reservations gateway.risk := h.kept
      obtain ⟨accounts, reservations, hreserve, hkept⟩ := hkept.reserve haccount hlimits habsent
      have hreserve' : ModelEngine.reserve { engine with
        maximumReceivedOrderId := some order.orderId } order = _ := hreserve
      dsimp only [Except.map] at hsure ⊢
      rw [hreserve', Run.ok_bind]
      have htracks : Tracks LEVELS ORDERS { received with accounts := accounts, reservations := reservations }
          { gateway with
            risk := (gateway.risk.putAccount (account.withTotals account.settledPosition buys sells
              openOrders)).addReservation (reservationOf order)
            maximumReceivedOrderId := some order.orderId } :=
        ⟨h.instrument, h.levelCap, h.orderCap, h.book, hkept, rfl, h.sequence⟩
      exact htracks.place horderly hinstrument _ rfl hsure

end NewOrder

section Amendments

/-- A cancellation is received alike. -/
theorem receiveCancel (h : Tracks LEVELS ORDERS engine gateway) {cancel : CancelOrder}
    (hready : gateway.Ready LEVELS ORDERS cancel.sequence)
    (hinstrument : cancel.instrumentId = gateway.book.instrument) :
    Agrees LEVELS ORDERS .cancelled (engine.receiveCancel cancel)
      ((gateway.processCancel cancel).1, (gateway.processCancel cancel).2, []) := by
  have hsure (reason : RejectReason) : (gateway.processCancel cancel).1 ≠ .error (.riskState reason) := by
    have hstep := hready.processCancel
    intro herror
    generalize gateway.processCancel cancel = outcome at hstep herror
    cases hstep <;> simp at herror
  have hinvariant := hready.invariant
  have hsame : ¬ cancel.instrumentId ≠ engine.instrument := not_not.mpr (hinstrument.trans h.instrument.symm)
  unfold Logical.Gateway.processCancel RiskEngineState.canCancel at hsure ⊢
  unfold ModelEngine.receiveCancel
  rw [if_neg hsame, h.kept.reservations]
  cases hlookup : gateway.risk.reservation? cancel.orderId with
  | none => exact ⟨_, _, rfl, rfl, h⟩
  | some r =>
    rw [hlookup] at hsure
    dsimp only [Option.map_some] at hsure ⊢
    have howner : (ModelReservation.of r).accountId = r.accountId := rfl
    rw [howner]
    by_cases hother : r.accountId ≠ cancel.accountId
    · rw [if_pos hother, if_pos hother]
      exact ⟨_, _, rfl, rfl, h⟩
    rw [if_neg hother] at hsure ⊢
    rw [if_neg hother]
    dsimp only at hsure ⊢
    have hcancel := h.book.cancel (orderly hinvariant) hinstrument
    cases hspec : gateway.book.cancel cancel with
    | error error =>
      rw [hspec] at hcancel
      have hrun := Except.ok.inj (hcancel.of_error rfl)
      rw [hrun]
      exact ⟨_, _, rfl, rfl, h⟩
    | ok outcome =>
      obtain ⟨cancelled, book⟩ := outcome
      rw [hspec] at hsure hcancel
      obtain ⟨book', hrun, hmirrors⟩ := hcancel.of_ok rfl
      have hrun := Except.ok.inj hrun
      rw [hrun]
      obtain ⟨_, _, order, hid, haccount, rfl, _⟩ := hinvariant.book.cancel hspec
      have hbook : engine.instrument = book.instrument := h.instrument.trans (cancel_instrument hspec).symm
      dsimp only at hsure ⊢
      cases hrelease : gateway.risk.cancelReservation cancel.orderId cancel.accountId with
      | error reason =>
        rw [hrelease] at hsure
        exact absurd rfl (hsure reason)
      | ok released =>
        obtain ⟨released, risk⟩ := released
        rw [hrelease] at hsure
        dsimp only at hsure ⊢
        by_cases hquantity : released ≠ order.quantity
        · rw [if_pos hquantity] at hsure
          exact absurd rfl (hsure _)
        let cancelled : ModelEngine := { engine with book := book' }
        have hkept : Keeps cancelled.accounts cancelled.reservations gateway.risk := h.kept
        obtain ⟨accounts, reservations, hreleased, hkept⟩ := hkept.cancelReservation hrelease
        have hreleased' : ModelEngine.release { engine with book := book' } cancel.orderId = _ := hreleased
        rw [if_neg hquantity, hreleased', Run.ok_bind]
        refine ⟨_, _, rfl, ?_, hbook, h.levelCap, h.orderCap, hmirrors, hkept, h.received, h.sequence⟩
        dsimp only [answerOf, Except.map]
        rw [hid, haccount]

theorem replaced_eq {book book' : Logical.Book} {replace : ReplaceOrder} {replaced : ReplacedOrder}
    (h : book.replace LEVELS ORDERS replace = .ok (replaced, book')) :
    replaced = ⟨replace.orderId, replace.accountId, replaced.oldQuantity, replace.quantity, replace.price,
      replaced.priorityLost⟩ := by
  unfold Logical.Book.replace at h
  dsimp only at h
  split at h
  · cases h
  split at h
  · cases h
  split at h
  · cases h
  split at h
  · obtain ⟨rfl, -⟩ := Prod.mk.inj (Except.ok.inj h)
    rfl
  split at h
  · cases h
  obtain ⟨rfl, -⟩ := Prod.mk.inj (Except.ok.inj h)
  rfl

/-- An amendment is received alike, unless the limits refuse a larger one. -/
theorem receiveReplace (h : Tracks LEVELS ORDERS engine gateway) {replace : ReplaceOrder}
    (hO : 0 < ORDERS) (hready : gateway.Ready LEVELS ORDERS replace.sequence)
    (hinstrument : replace.instrumentId = gateway.book.instrument) (hprice : 0 < replace.price.val)
    (hquantity : 0 < replace.quantity.val)
    (hgranted : ∀ reason r account, ¬ Refused gateway.risk replace reason r account) :
    Agrees LEVELS ORDERS .replaced (engine.receiveReplace replace)
      ((gateway.processReplace LEVELS ORDERS replace).1,
        (gateway.processReplace LEVELS ORDERS replace).2, []) := by
  have hsure (reason : RejectReason) :
      (gateway.processReplace LEVELS ORDERS replace).1 ≠ .error (.riskState reason) := by
    have hstep := hready.processReplace hO
    intro herror
    generalize gateway.processReplace LEVELS ORDERS replace = outcome at hstep herror
    cases hstep <;> simp at herror
  have hinvariant := hready.invariant
  have hsame : ¬ replace.instrumentId ≠ engine.instrument := not_not.mpr (hinstrument.trans h.instrument.symm)
  cases hlookup : gateway.risk.reservation? replace.orderId with
  | none =>
    have hadjust : gateway.risk.adjustReservation replace.orderId replace.accountId replace.price
        replace.quantity = .error .unknownOrder := by
      unfold RiskEngineState.adjustReservation
      rw [hlookup]
    have hget : engine.reservations.get replace.orderId = none := by
      rw [h.kept.reservations, hlookup]
      rfl
    unfold Logical.Gateway.processReplace ModelEngine.receiveReplace
    rw [hadjust, hget]
    exact ⟨_, _, rfl, rfl, h⟩
  | some r =>
    have hget : engine.reservations.get replace.orderId = some (.of r) := h.kept.get_reservation hlookup
    have howner : (ModelReservation.of r).accountId = r.accountId := rfl
    by_cases hother : r.accountId ≠ replace.accountId
    · have hadjust : gateway.risk.adjustReservation replace.orderId replace.accountId replace.price
          replace.quantity = .error .notOrderOwner := by
        unfold RiskEngineState.adjustReservation
        rw [hlookup]
        exact if_pos hother
      unfold Logical.Gateway.processReplace ModelEngine.receiveReplace
      rw [hadjust, hget]
      dsimp only
      rw [howner, if_pos hother]
      exact ⟨_, _, rfl, rfl, h⟩
    have howned : r.accountId = replace.accountId := not_not.mp hother
    obtain ⟨amounts, risk, accounts, reservations, hadjust, hadjusted, hkept⟩ |
        ⟨reason, account, _, _, haccount, hlt, hrefused, _⟩ :=
      h.kept.adjustReservation hinvariant.risk hlookup howned
    · obtain ⟨released, prior⟩ := amounts
      obtain ⟨_, _, _, _, _, _, hexchanged, _⟩ := hinvariant.risk.adjustReservation hadjust
      let adjusted : ModelEngine := { engine with accounts := accounts, reservations := reservations }
      have hreplace : Implements Mirrors engine.book
          ((gateway.book.replace LEVELS ORDERS replace).map Mirrors.replaced)
          (engine.book.replace replace engine.levelCap engine.orderCap) := by
        rw [h.levelCap, h.orderCap]
        exact h.book.replace (orderly hinvariant) hinstrument hprice hquantity
      unfold Logical.Gateway.processReplace at hsure ⊢
      unfold ModelEngine.receiveReplace
      rw [hadjust] at hsure ⊢
      rw [hget]
      dsimp only at hsure ⊢
      rw [howner, if_neg hother, hadjusted, Run.ok_bind]
      dsimp only
      rw [if_neg hsame]
      cases hspec : gateway.book.replace LEVELS ORDERS replace with
      | ok outcome =>
        obtain ⟨replaced, book⟩ := outcome
        rw [hspec] at hreplace
        obtain ⟨book', hrun, hmirrors⟩ := hreplace.of_ok rfl
        have hbook : engine.instrument = book.instrument :=
          h.instrument.trans (replace_instrument hspec).symm
        rw [hrun, Run.ok_bind]
        refine ⟨_, _, rfl, ?_, hbook, h.levelCap, h.orderCap, hmirrors, hkept, h.received, h.sequence⟩
        rw [replaced_eq hspec]
        rfl
      | error error =>
        rw [hspec] at hreplace hsure
        rw [hreplace.of_error rfl, Run.ok_bind]
        dsimp only at hsure ⊢
        cases hrestore : risk.restoreReservation replace.orderId replace.accountId prior with
        | error reason =>
          rw [hrestore] at hsure
          exact absurd rfl (hsure reason)
        | ok restored =>
          obtain ⟨_, restored⟩ := restored
          have hkept' : Keeps adjusted.accounts adjusted.reservations risk := hkept
          obtain ⟨accounts', reservations', hrestored, hkept''⟩ :=
            hkept'.restoreReservation hexchanged.consistent hrestore
          have hrestored' : ModelEngine.restoreReservation { engine with
            accounts := accounts, reservations := reservations } replace.orderId prior = _ := hrestored
          rw [hrestored', Run.ok_bind]
          exact ⟨_, _, rfl, rfl, h.instrument, h.levelCap, h.orderCap, h.book, hkept'',
            h.received, h.sequence⟩
    · exact absurd ⟨hlookup, howned, haccount, hlt, hrefused⟩ (hgranted reason r account)

/-- The reference gateway rejects a refused amendment alike, but keeps the total that it raised. -/
theorem refuseReplace (h : Tracks LEVELS ORDERS engine gateway) (hinvariant : gateway.Invariant LEVELS ORDERS)
    {replace : ReplaceOrder} {reason : RejectReason} {r : ReservationRiskState} {account : AccountRiskState}
    (hrefused : Refused gateway.risk replace reason r account) :
    ∃ total : U128, total.val = (account.reserved r.side).val + (replace.quantity.val - r.quantity.val) ∧
      gateway.processReplace LEVELS ORDERS replace = (.error (.risk reason), gateway) ∧
      engine.receiveReplace replace = .ok (.error (.risk reason), { engine with
        accounts := engine.accounts.insert replace.accountId
          ((ModelAccount.of account).setReserved r.side total) }) := by
  obtain ⟨hlookup, howner, haccount, hlt, hincrease⟩ := hrefused
  have hget : engine.reservations.get replace.orderId = some (.of r) := h.kept.get_reservation hlookup
  have howned : ¬ (ModelReservation.of r).accountId ≠ replace.accountId := not_not.mpr howner
  have hne : replace.quantity ≠ r.quantity := fun heq ↦ hlt.ne (congrArg Fin.val heq.symm)
  have hadjust : gateway.risk.adjustReservation replace.orderId replace.accountId replace.price
      replace.quantity = .error reason := by
    unfold RiskEngineState.adjustReservation
    rw [hlookup]
    dsimp only
    rw [if_neg (not_not.mpr howner), if_neg hne, haccount]
    dsimp only
    rw [if_pos hlt, hincrease]
  obtain ⟨_, _, _, _, hadjust', _⟩ | ⟨reason', account', total, hadjust', haccount', _,
    _, hraised, hadjusted⟩ :=
    h.kept.adjustReservation hinvariant.risk hlookup howner
  · rw [hadjust] at hadjust'
    cases hadjust'
  · obtain rfl := Except.error.inj (hadjust.symm.trans hadjust')
    obtain rfl := Option.some.inj (haccount.symm.trans haccount')
    refine ⟨total, hraised, ?_, ?_⟩
    · unfold Logical.Gateway.processReplace
      rw [hadjust]
    · unfold ModelEngine.receiveReplace
      rw [hget]
      dsimp only
      rw [if_neg howned, hadjusted]
      rfl

end Amendments

end Tracks

end DeterministicExchange.Model
