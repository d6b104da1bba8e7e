import DeterministicExchange.Book.Planning

/-!
# Submitting an order

Applying a plan performs the fills of the logical walk one at a time. Each
planned fill names the head order of the best level when its turn comes, so the
captured handles are still valid. The single-fill path is the walk of length
one. Together: `submit` implements the logical `submit`.
-/

namespace DeterministicExchange.Book

open Machine ProbeTable OrderIndex

variable {LEVELS ORDERS REPORTS : ℕ} {book : OrderBook LEVELS ORDERS} {place : OrderId → U32}
  {views : Views} {side : Side} {view : LevelView} {vs : List LevelView} {slot : ℕ}
  {maker : Logical.Order} {nodes : List (ℕ × Logical.Order)}

/-- The views of a side after its head order gave `traded`. -/
def consumeView (view : LevelView) (slot : ℕ) (maker : Logical.Order)
    (nodes : List (ℕ × Logical.Order)) (vs : List LevelView) (traded : Quantity) : List LevelView :=
  if traded.val < maker.quantity.val then
    ⟨view.price, view.handle,
      (slot, { maker with quantity := Unsigned.monus maker.quantity traded }) :: nodes, view.free⟩ :: vs
  else LevelView.kept ⟨view.price, view.handle, nodes, slot :: view.free⟩ ++ vs

theorem consumeView_toLevel (traded : Quantity) :
    (consumeView view slot maker nodes vs traded).map LevelView.toLevel =
      Logical.consume view.price maker (nodes.map Prod.snd) (vs.map LevelView.toLevel) traded := by
  unfold consumeView Logical.consume
  split
  · simp [LevelView.toLevel]
  · rw [List.map_append, kept_map_toLevel]
    rfl

/-- The first planned fill, and the plan of the rest against the views it leaves. -/
theorem planViews_cons {taker : Side} {limit : PriceTicks} (hnodes : view.nodes = (slot, maker) :: nodes)
    {remaining : Quantity} (hremaining : 0 < remaining.val)
    (hcrosses : crosses taker limit view.price = true) :
    planViews taker limit (view :: vs) remaining =
      (⟨view.handle, slot, maker.id, view.price, min remaining maker.quantity⟩ ::
        (planViews taker limit
          (consumeView view slot maker nodes vs (min remaining maker.quantity))
          (Unsigned.monus remaining (min remaining maker.quantity))).1,
        (planViews taker limit
          (consumeView view slot maker nodes vs (min remaining maker.quantity))
          (Unsigned.monus remaining (min remaining maker.quantity))).2) := by
  have hgo (r : Quantity) (hr : r.val ≠ 0) :
      ¬ (r.val = 0 ∨ (!crosses taker limit view.price) = true) := by
    simp only [hcrosses, Bool.not_true, Bool.false_eq_true, or_false]
    exact hr
  rw [planViews, if_neg (hgo remaining (by omega)), hnodes, planNodes, if_neg (by omega)]
  by_cases hpartly : remaining.val < maker.quantity.val
  · have hmin : min remaining maker.quantity = remaining := min_eq_left hpartly.le
    have hzero : (Unsigned.monus remaining remaining).val = 0 := by simp
    simp only [hmin, planNodes_of_zero _ _ _ hzero, planViews_of_zero _ _ _ hzero, List.append_nil]
  · have hmin : min remaining maker.quantity = maker.quantity := min_eq_right (by simpa using hpartly)
    simp only [hmin, consumeView, lt_irrefl, if_false]
    by_cases hzero : (Unsigned.monus remaining maker.quantity).val = 0
    · simp only [planNodes_of_zero _ _ _ hzero, planViews_of_zero _ _ _ hzero, List.append_nil]
    · cases nodes with
      | nil => simp [planNodes, LevelView.kept]
      | cons node nodes =>
        have hkept : LevelView.kept ⟨view.price, view.handle, node :: nodes, slot :: view.free⟩ ++ vs =
            ⟨view.price, view.handle, node :: nodes, slot :: view.free⟩ :: vs := by
          simp [LevelView.kept]
        rw [hkept, planViews, if_neg (hgo _ hzero)]
        simp

/-- A consumed side holds no new order ids. -/
theorem BookRep.live_consume (h : BookRep book place views) (hviews : views side = view :: vs)
    (hnodes : view.nodes = (slot, maker) :: nodes) (traded : Quantity) (l : OrderLocation)
    (x : Logical.Order)
    (hlive : Live (Function.update views side (consumeView view slot maker nodes vs traded)) l x) :
    ∃ l' x', Live views l' x' ∧ x'.id = x.id := by
  have hviews' : views side = [] ++ view :: vs := hviews
  have hnodes' : view.nodes = [] ++ (slot, maker) :: nodes := hnodes
  have hview : view ∈ views side := by simp [hviews]
  unfold consumeView at hlive
  split at hlive
  · obtain ⟨x', hx', rfl⟩ := (live_amend hviews' (h.sides side).handles_nodup (h.slots_nodup hview)
      hnodes' _ l x).mp hlive
    refine ⟨l, x', hx', ?_⟩
    split <;> rfl
  · obtain ⟨hx, _⟩ := (live_erase h.unique _ hviews' (h.sides side).handles_nodup
      (h.slots_nodup hview) hnodes' l x).mp hlive
    exact ⟨l, x, hx, rfl⟩

/-- One planned fill. -/
theorem BookRep.applyFill (hcap : indexCapacity LEVELS ORDERS ≤ 2 ^ 32) (h : BookRep book place views)
    (hviews : views side = view :: vs) (hnodes : view.nodes = (slot, maker) :: nodes)
    (order : NewOrder) {traded : Quantity} (htraded : traded.val ≤ maker.quantity.val)
    {reports : ReportBuffer REPORTS} (hreports : reports.len < REPORTS) :
    ∃ book' place' reports', OrderBook.applyFill order side
        ⟨view.handle, slot, maker.id, view.price, traded⟩ book reports = .ok (book', reports') ∧
      book'.instrument = book.instrument ∧
      BookRep book' place' (Function.update views side
        (consumeView view slot maker nodes vs traded)) ∧
      reports'.entries = reports.entries ++ [OrderBook.report order maker.id view.price traded] := by
  have hviews' : views side = [] ++ view :: vs := hviews
  have hnodes' : view.nodes = [] ++ (slot, maker) :: nodes := hnodes
  have hview : view ∈ views side := by simp [hviews]
  have hnode : (slot, maker) ∈ view.nodes := by simp [hnodes]
  obtain ⟨level, hget, hrep⟩ := (h.sides side).level view hview
  obtain ⟨reports', hpush, hentries⟩ := ReportBuffer.push_of_lt
    (OrderBook.report order maker.id view.price traded) hreports
  unfold OrderBook.applyFill
  simp only [OrderBook.expectLevel_of_get hget, Run.ok_bind, hrep.getLive_of_mem hnode,
    Run.expect_some, stored_id, decide_true, Run.debugAssert_true, hpush, Except.toOption,
    stored_quantity, stored_indexSlot]
  by_cases hfull : maker.quantity = traded
  · subst hfull
    obtain ⟨book', place', hremove, hinstrument, hrep'⟩ :=
      h.removeFilledOrder hcap hviews' hnodes'
    refine ⟨book', place', reports', ?_, hinstrument, ?_, hentries⟩
    · simp only [if_true, hremove, Run.ok_bind]
      rfl
    · unfold consumeView
      rw [if_neg (lt_irrefl _)]
      exact hrep'
  · have hlt : traded.val < maker.quantity.val := by
      rcases htraded.lt_or_eq with hlt | heq
      · exact hlt
      · exact absurd (Fin.ext heq.symm) hfull
    obtain ⟨level', hreduce, hrep'⟩ :=
      h.reduceQuantity hviews' hnodes' hlt hget hrep
    refine ⟨book.putLevel side view.handle (some level'), place, reports', ?_, by simp, ?_, hentries⟩
    · simp only [if_neg hfull, hreduce, Run.ok_bind, Run.expect_some]
      rfl
    · unfold consumeView
      rw [if_pos hlt]
      exact hrep'

/-- The fills of a plan, applied in order. -/
theorem BookRep.applyFills (hcap : indexCapacity LEVELS ORDERS ≤ 2 ^ 32) (order : NewOrder)
    (fills : List FillEntry) (h : BookRep book place views) {remaining left : Quantity}
    (hplan : planViews order.side order.price (views side) remaining = (fills, left))
    {reports : ReportBuffer REPORTS} (hreports : reports.len + fills.length ≤ REPORTS) :
    ∃ book' place' views' reports', OrderBook.applyFills order side fills book reports =
        .ok (book', reports') ∧
      book'.instrument = book.instrument ∧ BookRep book' place' views' ∧
      (∀ s, s ≠ side → views' s = views s) ∧
      (views' side).map LevelView.toLevel = (Logical.matchLevels order.side order.price
        ((views side).map LevelView.toLevel) remaining).2.1 ∧
      (∀ l x, Live views' l x → ∃ l' x', Live views l' x' ∧ x'.id = x.id) ∧
      reports'.entries = reports.entries ++ fills.map fun fill ↦ fill.toFill.report order := by
  induction fills generalizing book place views remaining reports with
  | nil =>
    have hstop : remaining.val = 0 ∨ ∀ level ∈ ((views side).map LevelView.toLevel).head?,
        crosses order.side order.price level.price = false := by
      by_contra hgo
      push Not at hgo
      obtain ⟨hremaining, level, hlevel, hcrosses⟩ := hgo
      rw [List.head?_map] at hlevel
      obtain ⟨view, hview, rfl⟩ := Option.map_eq_some_iff.mp hlevel
      obtain ⟨vs, hviews⟩ := List.head?_eq_some_iff.mp hview
      obtain ⟨⟨slot, maker⟩, nodes, hnodes⟩ := List.exists_cons_of_ne_nil
        (h.occupied side view (by simp [hviews]))
      rw [hviews, planViews_cons hnodes (Nat.pos_of_ne_zero hremaining) (by simpa using hcrosses)] at hplan
      simp at hplan
    refine ⟨book, place, views, reports, rfl, rfl, h, fun _ _ ↦ rfl, ?_, fun l x hl ↦ ⟨l, x, hl, rfl⟩,
      by simp⟩
    rw [Logical.matchLevels_of_stop hstop]
  | cons fill fills ih =>
    have hremaining : 0 < remaining.val := by
      refine Nat.pos_of_ne_zero fun hzero ↦ ?_
      rw [planViews_of_zero _ _ _ hzero] at hplan
      simp at hplan
    obtain ⟨view, vs, hviews⟩ : ∃ view vs, views side = view :: vs := by
      cases hviews : views side with
      | nil =>
        rw [hviews] at hplan
        simp [planViews] at hplan
      | cons view vs => exact ⟨view, vs, rfl⟩
    have hcrosses : crosses order.side order.price view.price = true := by
      by_contra hnot
      rw [hviews, planViews, if_pos (.inr (by simpa using hnot))] at hplan
      simp at hplan
    obtain ⟨⟨slot, maker⟩, nodes, hnodes⟩ := List.exists_cons_of_ne_nil
      (h.occupied side view (by simp [hviews]))
    rw [hviews, planViews_cons hnodes hremaining hcrosses] at hplan
    obtain ⟨hcons, hleft⟩ := Prod.mk.inj hplan
    obtain ⟨rfl, hfills⟩ := List.cons.inj hcons
    rw [List.length_cons] at hreports
    have hroom : reports.len < REPORTS := by omega
    obtain ⟨book₁, place₁, reports₁, happly, hinstrument₁, hrep₁, hentries₁⟩ :=
      h.applyFill hcap hviews hnodes order (min_le_right _ _ : min remaining maker.quantity ≤ _) hroom
    have hlen₁ : reports₁.len = reports.len + 1 := by
      unfold ReportBuffer.len
      rw [hentries₁]
      simp
    have hroom₁ : reports₁.len + fills.length ≤ REPORTS := by omega
    have hplan₁ : planViews order.side order.price (Function.update views side
        (consumeView view slot maker nodes vs (min remaining maker.quantity)) side)
        (Unsigned.monus remaining (min remaining maker.quantity)) = (fills, left) := by
      rw [Function.update_self]
      exact Prod.ext hfills hleft
    obtain ⟨book', place', views', reports', happlies, hinstrument, hrep, hsame, hlevels, hids, hentries⟩ :=
      ih hrep₁ hplan₁ hroom₁
    refine ⟨book', place', views', reports', ?_, hinstrument.trans hinstrument₁, hrep, ?_, ?_, ?_, ?_⟩
    · rw [OrderBook.applyFills, happly]
      exact happlies
    · intro s hs
      rw [hsame s hs, Function.update_of_ne hs]
    · rw [hlevels, Function.update_self, consumeView_toLevel, hviews, List.map_cons]
      have hlevel : view.toLevel = ⟨view.price, maker :: nodes.map Prod.snd⟩ := by
        simp [LevelView.toLevel, hnodes]
      rw [hlevel, Logical.matchLevels_cons hremaining hcrosses]
    · intro l x hl
      obtain ⟨l₁, x₁, hl₁, hid₁⟩ := hids l x hl
      obtain ⟨l₂, x₂, hl₂, hid₂⟩ := h.live_consume hviews hnodes _ l₁ x₁ hl₁
      exact ⟨l₂, x₂, hl₂, hid₂.trans hid₁⟩
    · rw [hentries, hentries₁, List.append_assoc]
      rfl

theorem BookRep.validateOrder (hcap : indexCapacity LEVELS ORDERS ≤ 2 ^ 32)
    (h : BookRep book place views) (order : NewOrder) :
    book.validateOrder order =
      match (Views.toBook book.instrument views).admissionReject order with
      | some reason => .error reason
      | none => .ok order.side.opposite := by
  unfold OrderBook.validateOrder Logical.Book.admissionReject
  rw [h.containsOrder_eq hcap order.orderId book.instrument,
    h.bestCrosses order.side order.price book.instrument]
  rw [toBook_instrument]
  split_ifs <;> rfl

theorem toBook_of_side {views' : Views} (hsame : ∀ s, s ≠ side → views' s = views s)
    (instrument : InstrumentId) :
    Views.toBook instrument views' =
      (Views.toBook instrument views).setSide side ((views' side).map LevelView.toLevel) := by
  cases side with
  | buy => simp [Views.toBook, Logical.Book.setSide, hsame .sell (by decide)]
  | sell => simp [Views.toBook, Logical.Book.setSide, hsame .buy (by decide)]

theorem restingReject_of_side {views' : Views} (hside : views' side = views side)
    (instrument : InstrumentId) (price : PriceTicks) :
    (Views.toBook instrument views').restingReject LEVELS ORDERS side price =
      (Views.toBook instrument views).restingReject LEVELS ORDERS side price := by
  unfold Logical.Book.restingReject
  rw [toBook_side, toBook_side, hside]

theorem side_ne_opposite (side : Side) : side ≠ side.opposite := by
  cases side <;> decide

/-- The stored outcome of a submission: the book, and the reports appended to the buffer. -/
def SubmitRep (reports : ReportBuffer REPORTS) (order : NewOrder)
    (state : OrderBook LEVELS ORDERS × ReportBuffer REPORTS) (outcome : List Logical.Fill × Logical.Book) :
    Prop :=
  state.1.Represents outcome.2 ∧
    state.2.entries = reports.entries ++ outcome.1.map (Logical.Fill.report order)

/-- Planning and applying implement the logical trade of an admitted order. -/
theorem BookRep.submitPlan (hO : 0 < ORDERS) (hcap : indexCapacity LEVELS ORDERS ≤ 2 ^ 32)
    (h : BookRep book place views) {order : NewOrder}
    (habsent : ∀ l x, Live views l x → x.id ≠ order.orderId) (reports : ReportBuffer REPORTS) :
    Implements (SubmitRep reports order) (book, reports)
      ((Views.toBook book.instrument views).trade LEVELS ORDERS reports.remainingCapacity order)
      (book.submitPlan order order.side.opposite reports) := by
  obtain ⟨hfills, hleft⟩ := planViews_matchLevels order.side order.price (views order.side.opposite)
    order.quantity
  have hmatched := Logical.matchLevels_matched order.side order.price
    (h.levels_nonempty order.side.opposite) order.quantity
  have hcount := congrArg List.length hfills
  rw [List.length_map] at hcount
  unfold OrderBook.submitPlan Logical.Book.trade
  rw [h.buildPlan hcap order.side.opposite reports.remainingCapacity REPORTS (Nat.sub_le _ _)
    book.instrument, toBook_side]
  rcases hplan : planViews order.side order.price (views order.side.opposite) order.quantity with
    ⟨entries, left⟩
  rw [hplan] at hfills hleft hcount
  simp only at hfills hleft hcount
  simp only [Run.ok_bind, hcount, ← hleft]
  by_cases hroom : reports.remainingCapacity < (Logical.matchLevels order.side order.price
      ((views order.side.opposite).map LevelView.toLevel) order.quantity).1.length
  · rw [if_pos hroom, if_pos hroom]
    exact .reject rfl rfl
  rw [if_neg hroom, if_neg hroom]
  rw [← hcount] at hroom
  cases houtcome : (Views.toBook book.instrument views).remainderOutcome LEVELS ORDERS order left with
  | error reason => exact .reject rfl rfl
  | ok outcome =>
    obtain ⟨resting, discarded⟩ := outcome
    obtain ⟨hsum, hrest⟩ := Logical.Book.remainderOutcome_ok houtcome
    have hleft_le := hmatched.left_le
    rw [← hleft] at hleft_le
    have hreports : reports.len + entries.length ≤ REPORTS := by
      have hlen : reports.len ≤ REPORTS := reports.length_le
      unfold ReportBuffer.remainingCapacity at hroom
      omega
    obtain ⟨book₁, place₁, views₁, reports₁, happly, hinstrument₁, hrep₁, hsame, hlevels, hids,
      hentries⟩ := h.applyFills hcap order entries hplan hreports
    have hside₁ : views₁ order.side = views order.side := hsame _ (side_ne_opposite _)
    have hlogical : Views.toBook book.instrument views₁ =
        (Views.toBook book.instrument views).setSide order.side.opposite
          (Logical.matchLevels order.side order.price
            ((views order.side.opposite).map LevelView.toLevel) order.quantity).2.1 := by
      rw [toBook_of_side hsame, hlevels]
    have hentries' : reports₁.entries = reports.entries ++ ((Logical.matchLevels order.side order.price
        ((views order.side.opposite).map LevelView.toLevel) order.quantity).1).map
          (Logical.Fill.report order) := by
      rw [hentries, ← hfills, List.map_map]
      rfl
    have hlen₁ : reports₁.len - reports.len = entries.length := by
      unfold ReportBuffer.len
      rw [hentries]
      simp
    have hle₁ : reports.len ≤ reports₁.len := by
      unfold ReportBuffer.len
      rw [hentries]
      simp
    have hsub₁ : resting.val ≤ order.quantity.val := by omega
    have hsub₂ : discarded.val ≤ (Unsigned.monus order.quantity resting).val := by
      rw [Unsigned.monus_val]
      omega
    simp only [Except.map]
    by_cases hresting : 0 < resting.val
    · have hroom₁ : (Views.toBook book.instrument views₁).restingReject LEVELS ORDERS order.side
          order.price = none := by
        rw [restingReject_of_side hside₁]
        exact hrest hresting
      have hpos : 0 < (Logical.Book.restingOrder order resting).quantity.val := hresting
      obtain ⟨book₂, place₂, views₂, hrestAtTail, hinstrument₂, hrep₂, htoBook⟩ :=
        hrep₁.restAtTail hO hcap book.instrument hroom₁ hpos (by
          intro l x hl
          obtain ⟨l', x', hl', hid⟩ := hids l x hl
          rw [← hid]
          exact habsent l' x' hl')
      refine .accept (book₂, reports₁) rfl ?_ ⟨⟨place₂, views₂, hrep₂, ?_⟩, hentries'⟩
      · unfold OrderBook.applyPlan OrderBook.rest
        have hrestAtTail' : book₁.restAtTail order.side order.price
            { id := order.orderId, accountId := order.accountId, indexSlot := 0, quantity := resting,
              sequence := order.sequence } = .ok book₂ := hrestAtTail
        simp only [happly, Run.ok_bind, if_pos hresting, hrestAtTail', Run.subWord_of_le hsub₁,
          Run.subWord_of_le hsub₂, Run.pure_eq_ok, Run.sub_of_le hle₁, hlen₁]
        rw [hcount]
        rfl
      · rw [hinstrument₂, hinstrument₁, htoBook, hlogical]
        unfold Logical.Book.settleWalk
        rw [if_pos hresting]
    · refine .accept (book₁, reports₁) rfl ?_ ⟨⟨place₁, views₁, hrep₁, ?_⟩, hentries'⟩
      · unfold OrderBook.applyPlan
        simp only [happly, Run.ok_bind, if_neg hresting, Run.subWord_of_le hsub₁,
          Run.subWord_of_le hsub₂, Run.pure_eq_ok, Run.sub_of_le hle₁, hlen₁]
        rw [hcount]
        rfl
      · rw [hinstrument₁, hlogical]
        unfold Logical.Book.settleWalk
        rw [if_neg hresting]

/-! ## The single-fill path -/

/-- The condition of the single-fill path: the head order can satisfy the whole taker. -/
def SingleFill (views : Views) (order : NewOrder) : Prop :=
  ∃ view vs slot maker nodes, views order.side.opposite = view :: vs ∧
    view.nodes = (slot, maker) :: nodes ∧ crosses order.side order.price view.price = true ∧
    order.quantity.val ≤ maker.quantity.val

theorem BookRep.trySingleFill_of_not (h : BookRep book place views) {order : NewOrder}
    (hsingle : ¬ SingleFill views order) (reports : ReportBuffer REPORTS) :
    book.trySingleFill order order.side.opposite reports = .ok (.ok none, book, reports) := by
  unfold OrderBook.trySingleFill
  rw [(h.sides order.side.opposite).entries, List.head?_map]
  cases hviews : views order.side.opposite with
  | nil => rfl
  | cons view vs =>
    simp only [List.head?_cons, Option.map_some]
    by_cases hcrosses : crosses order.side order.price view.price = true
    swap
    · rw [if_pos (by simpa using hcrosses)]
    rw [if_neg (by simp [hcrosses])]
    have hview : view ∈ views order.side.opposite := by simp [hviews]
    obtain ⟨⟨slot, maker⟩, nodes, hnodes⟩ := List.exists_cons_of_ne_nil (h.occupied _ view hview)
    obtain ⟨level, hget, hrep⟩ := (h.sides order.side.opposite).level view hview
    have hqueue := hrep.queue.queue
    rw [hnodes, storedNodes_cons] at hqueue
    have hlive : level.getLive level.queue.head = some (stored place maker) := by
      rw [hqueue.head_cons.1]
      exact hrep.getLive_of_mem (by simp [hnodes])
    have hlt : (stored place maker).quantity.val < order.quantity.val := by
      by_contra hge
      exact hsingle ⟨view, vs, slot, maker, nodes, hviews, hnodes, hcrosses, Nat.le_of_not_lt hge⟩
    simp only [Run.read_eq_ok.mpr hget, Run.ok_bind, hlive, if_pos hlt]
    rfl

/-- The logical trade of a taker that the head order satisfies. -/
theorem trade_singleFill {logical : Logical.Book} {order : NewOrder} {price : PriceTicks}
    {maker : Logical.Order} {orders : List Logical.Order} {levels : List Logical.Level} {capacity : ℕ}
    (hlevels : logical.side order.side.opposite = ⟨price, maker :: orders⟩ :: levels)
    (hcrosses : crosses order.side order.price price = true) (hpos : 0 < order.quantity.val)
    (hle : order.quantity.val ≤ maker.quantity.val) :
    logical.trade LEVELS ORDERS capacity order =
      if capacity = 0 then .error .reportCapacity
      else .ok (⟨.filled, order.quantity, 0, 0, 1⟩, [⟨maker.id, price, order.quantity⟩],
        logical.setSide order.side.opposite
          (Logical.consume price maker orders levels order.quantity)) := by
  have hmin : min order.quantity maker.quantity = order.quantity := min_eq_left hle
  have hzero : Unsigned.monus order.quantity order.quantity = 0 := Fin.ext (by simp)
  have hwalk : Logical.matchLevels order.side order.price (logical.side order.side.opposite)
      order.quantity = ([⟨maker.id, price, order.quantity⟩],
        Logical.consume price maker orders levels order.quantity, 0) := by
    rw [hlevels, Logical.matchLevels_cons hpos hcrosses, hmin, hzero,
      Logical.matchLevels_of_stop (.inl (rfl : (0 : Quantity).val = 0))]
  have hremainder : logical.remainderOutcome LEVELS ORDERS order 0 = .ok (0, 0) := by
    unfold Logical.Book.remainderOutcome
    cases order.timeInForce <;> rfl
  have hfilled : Unsigned.monus (Unsigned.monus order.quantity 0) 0 = order.quantity := by
    apply Fin.ext
    simp
  unfold Logical.Book.trade
  simp only [hwalk, hremainder, List.length_singleton]
  by_cases hcapacity : capacity = 0
  · rw [if_pos (by omega), if_pos hcapacity]
  · rw [if_neg (by omega), if_neg hcapacity]
    simp [Logical.Book.matchSummary, hfilled, Logical.Book.settleWalk]

/-- The fast path implements the logical trade where it applies. -/
theorem BookRep.trySingleFill (hcap : indexCapacity LEVELS ORDERS ≤ 2 ^ 32)
    (h : BookRep book place views) {order : NewOrder} (hpos : 0 < order.quantity.val)
    (hsingle : SingleFill views order) (reports : ReportBuffer REPORTS) :
    Implements (SubmitRep reports order) (book, reports)
      (((Views.toBook book.instrument views).trade LEVELS ORDERS reports.remainingCapacity order).map
        fun outcome ↦ (some outcome.1, outcome.2))
      (book.trySingleFill order order.side.opposite reports) := by
  obtain ⟨view, vs, slot, maker, nodes, hviews, hnodes, hcrosses, hle⟩ := hsingle
  have hview : view ∈ views order.side.opposite := by simp [hviews]
  have hlevels : (Views.toBook book.instrument views).side order.side.opposite =
      ⟨view.price, maker :: nodes.map Prod.snd⟩ :: vs.map LevelView.toLevel := by
    rw [toBook_side, hviews, List.map_cons]
    simp [LevelView.toLevel, hnodes]
  obtain ⟨level, hget, hrep⟩ := (h.sides order.side.opposite).level view hview
  have hqueue := hrep.queue.queue
  rw [hnodes, storedNodes_cons] at hqueue
  have hhead : level.queue.head = slot := hqueue.head_cons.1
  have hlive : level.getLive slot = some (stored place maker) := hrep.getLive_of_mem (by simp [hnodes])
  rw [trade_singleFill hlevels hcrosses hpos hle]
  unfold OrderBook.trySingleFill
  rw [(h.sides order.side.opposite).entries, hviews, List.map_cons]
  simp only [List.head?_cons, hcrosses, Bool.not_true, Bool.false_eq_true, if_false,
    Run.read_eq_ok.mpr hget, Run.ok_bind, hhead, hlive]
  have hstored : ¬ (stored place maker).quantity.val < order.quantity.val := Nat.not_lt.mpr hle
  rw [if_neg hstored]
  by_cases hfull : REPORTS ≤ reports.len
  · have hcapacity : reports.remainingCapacity = 0 := Nat.sub_eq_zero_of_le hfull
    rw [if_pos hcapacity, ReportBuffer.push_of_full _ hfull]
    exact .reject rfl rfl
  have hcapacity : reports.remainingCapacity ≠ 0 := by
    unfold ReportBuffer.remainingCapacity
    omega
  obtain ⟨reports', hpush, hentries⟩ := ReportBuffer.push_of_lt
    (OrderBook.report order (stored place maker).id view.price order.quantity) (Nat.lt_of_not_le hfull)
  rw [if_neg hcapacity]
  simp only [hpush]
  have hviews' : views order.side.opposite = [] ++ view :: vs := hviews
  have hnodes' : view.nodes = [] ++ (slot, maker) :: nodes := hnodes
  have hlogical (instrument : InstrumentId) : Views.toBook instrument (Function.update views
      order.side.opposite (consumeView view slot maker nodes vs order.quantity)) =
      (Views.toBook instrument views).setSide order.side.opposite
        (Logical.consume view.price maker (nodes.map Prod.snd) (vs.map LevelView.toLevel)
          order.quantity) := by
    rw [toBook_update, consumeView_toLevel]
  by_cases hequal : (stored place maker).quantity = order.quantity
  · obtain ⟨book', place', hremove, hinstrument, hrep'⟩ := h.removeFilledOrder hcap hviews' hnodes'
    have hconsume : consumeView view slot maker nodes vs order.quantity =
        [] ++ (LevelView.kept ⟨view.price, view.handle, [] ++ nodes, slot :: view.free⟩ ++ vs) := by
      unfold consumeView
      rw [if_neg (by rw [← hequal]; exact lt_irrefl _)]
      rfl
    have hremove' : book.removeFilledOrder ⟨order.side.opposite, view.handle, slot⟩
        (stored place maker).id (stored place maker).indexSlot order.quantity = .ok book' := by
      rw [← hequal]
      exact hremove
    simp only [if_pos hequal, hremove', Run.ok_bind]
    refine .accept (book', reports') rfl rfl ⟨⟨place', _, hrep', ?_⟩, hentries⟩
    rw [← hconsume, hlogical, hinstrument]
  · have hlt : order.quantity.val < maker.quantity.val := by
      rcases hle.lt_or_eq with hlt | heq
      · exact hlt
      · exact absurd (Fin.ext heq.symm) hequal
    obtain ⟨level', hreduce, hrep'⟩ := h.reduceQuantity hviews' hnodes' hlt hget hrep
    have hconsume : consumeView view slot maker nodes vs order.quantity =
        [] ++ ⟨view.price, view.handle, [] ++ (slot, { maker with
          quantity := Unsigned.monus maker.quantity order.quantity }) :: nodes, view.free⟩ :: vs := by
      unfold consumeView
      rw [if_pos hlt]
      rfl
    have haggregate : order.quantity.val ≤ level.aggregateQuantity := by
      rw [hrep.queue.aggregate, hnodes, storedNodes_cons, totalQuantity_cons]
      simp only [stored_quantity]
      omega
    unfold PriceLevel.reduceQuantity at hreduce
    simp only [hlive, stored_quantity, Unsigned.checkedSub_of_le hle, Run.sub_of_le haggregate,
      Run.ok_bind] at hreduce
    have hlevel' := Option.some.inj (Except.ok.inj hreduce)
    have hsub : Run.subWord (stored place maker).quantity order.quantity =
        .ok (Unsigned.monus maker.quantity order.quantity) := Run.subWord_of_le hle
    simp only [if_neg hequal, hsub, Run.sub_of_le haggregate, Run.ok_bind]
    refine .accept (book.putLevel order.side.opposite view.handle (some level'), reports') rfl ?_
      ⟨⟨place, _, hrep', ?_⟩, hentries⟩
    · rw [← hlevel']
      rfl
    · rw [← hconsume, hlogical, OrderBook.instrument_putLevel]

/-- `submit` implements the logical `submit`. -/
theorem OrderBook.Represents.submit (hO : 0 < ORDERS) (hcap : indexCapacity LEVELS ORDERS ≤ 2 ^ 32)
    {logical : Logical.Book} (h : book.Represents logical) (order : NewOrder)
    (reports : ReportBuffer REPORTS) :
    Implements (SubmitRep reports order) (book, reports)
      (logical.submit LEVELS ORDERS reports.remainingCapacity order) (book.submit order reports) := by
  obtain ⟨place, views, h, rfl⟩ := h
  unfold OrderBook.submit Logical.Book.submit
  rw [h.validateOrder hcap order]
  cases hadmission : (Views.toBook book.instrument views).admissionReject order with
  | some reason => exact .reject rfl rfl
  | none =>
    obtain ⟨_, _, hpos, hfind, _⟩ := Logical.Book.admitted hadmission
    simp only
    by_cases hsingle : SingleFill views order
    · have hfast := h.trySingleFill hcap hpos hsingle reports
      cases htrade : (Views.toBook book.instrument views).trade LEVELS ORDERS reports.remainingCapacity
          order with
      | error reason =>
        rw [htrade] at hfast
        rw [hfast.of_error rfl]
        exact .reject rfl rfl
      | ok outcome =>
        rw [htrade] at hfast
        obtain ⟨state, hrun, hrep⟩ := hfast.of_ok rfl
        rw [hrun]
        exact .accept state rfl rfl hrep
    · rw [h.trySingleFill_of_not hsingle reports]
      refine h.submitPlan hO hcap ?_ reports
      intro l x hlive hid
      obtain ⟨view, hview, _, hnode⟩ := hlive
      rw [← hid, h.find_of_mem hview hnode] at hfind
      simp at hfind

end DeterministicExchange.Book
