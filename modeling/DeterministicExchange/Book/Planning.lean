import DeterministicExchange.Book.Operations

/-!
# Match plans

A plan lists the fills of a walk with the handles of their makers, against the
unchanged book. `planViews` states which fills a book with the given views
plans; they are the fills of the logical walk. Building a plan fails exactly
when these fills exceed the report capacity or when the remainder has no place
to go.
-/

namespace DeterministicExchange.Book

open Machine ProbeTable OrderIndex

variable {LEVELS ORDERS : ℕ}

/-- The fills planned in one level and the quantity that remains. -/
def planNodes (handle : ℕ) (price : PriceTicks) :
    List (ℕ × Logical.Order) → Quantity → List FillEntry × Quantity
  | [], remaining => ([], remaining)
  | (slot, order) :: nodes, remaining =>
    if remaining.val = 0 then ([], remaining)
    else
      let traded := min remaining order.quantity
      let (fills, left) := planNodes handle price nodes (Unsigned.monus remaining traded)
      (⟨handle, slot, order.id, price, traded⟩ :: fills, left)

def planViews (side : Side) (limit : PriceTicks) :
    List LevelView → Quantity → List FillEntry × Quantity
  | [], remaining => ([], remaining)
  | view :: views, remaining =>
    if remaining.val = 0 ∨ !crosses side limit view.price then ([], remaining)
    else
      let (fills, left) := planNodes view.handle view.price view.nodes remaining
      let (more, left) := planViews side limit views left
      (fills ++ more, left)

def FillEntry.toFill (entry : FillEntry) : Logical.Fill := ⟨entry.orderId, entry.price, entry.quantity⟩

/-- The outcome of planning `fills` on top of a plan. -/
def MatchPlan.extend (plan : MatchPlan) (fills : List FillEntry) (remaining : Quantity) :
    Except RejectReason (Quantity × MatchPlan) :=
  if plan.fills.length + fills.length ≤ plan.capacity then
    .ok (remaining, { plan with fills := plan.fills ++ fills })
  else .error .reportCapacity

theorem MatchPlan.extend_nil {plan : MatchPlan} (h : plan.fills.length ≤ plan.capacity)
    (remaining : Quantity) : plan.extend [] remaining = .ok (remaining, plan) := by
  unfold MatchPlan.extend
  rw [if_pos (by simpa using h), List.append_nil]

/-! ## The planned fills are the fills of the logical walk -/

theorem planNodes_of_zero (handle : ℕ) (price : PriceTicks) (nodes : List (ℕ × Logical.Order))
    {remaining : Quantity} (h : remaining.val = 0) :
    planNodes handle price nodes remaining = ([], remaining) := by
  cases nodes with
  | nil => rfl
  | cons node nodes => rw [planNodes, if_pos h]

theorem planViews_of_zero (side : Side) (limit : PriceTicks) (views : List LevelView)
    {remaining : Quantity} (h : remaining.val = 0) :
    planViews side limit views remaining = ([], remaining) := by
  cases views with
  | nil => rfl
  | cons view views => rw [planViews, if_pos (.inl h)]

theorem planNodes_matchOrders (handle : ℕ) (price : PriceTicks) (nodes : List (ℕ × Logical.Order))
    (remaining : Quantity) :
    (planNodes handle price nodes remaining).1.map FillEntry.toFill =
        (Logical.matchOrders price (nodes.map Prod.snd) remaining).1 ∧
      (planNodes handle price nodes remaining).2 =
        (Logical.matchOrders price (nodes.map Prod.snd) remaining).2.2 ∧
      ((Logical.matchOrders price (nodes.map Prod.snd) remaining).2.1 ≠ [] →
        (planNodes handle price nodes remaining).2.val = 0) := by
  induction nodes generalizing remaining with
  | nil => simp [planNodes, Logical.matchOrders]
  | cons node nodes ih =>
    obtain ⟨slot, order⟩ := node
    rw [planNodes, List.map_cons, Logical.matchOrders]
    by_cases hzero : remaining.val = 0
    · simp [hzero]
    rw [if_neg hzero, if_neg hzero]
    by_cases hpartly : remaining.val < order.quantity.val
    · have hmin : min remaining order.quantity = remaining := min_eq_left hpartly.le
      have hleft : (Unsigned.monus remaining remaining).val = 0 := by simp
      simp only [if_pos hpartly, hmin, planNodes_of_zero handle price nodes hleft]
      exact ⟨rfl, Fin.ext hleft, fun _ ↦ hleft⟩
    · have hmin : min remaining order.quantity = order.quantity := min_eq_right (by simpa using hpartly)
      obtain ⟨hfills, hleft, hrest⟩ := ih (Unsigned.monus remaining order.quantity)
      simp only [if_neg hpartly, hmin]
      exact ⟨by rw [List.map_cons, hfills]; rfl, hleft, hrest⟩

theorem planViews_matchLevels (side : Side) (limit : PriceTicks) (views : List LevelView)
    (remaining : Quantity) :
    (planViews side limit views remaining).1.map FillEntry.toFill =
        (Logical.matchLevels side limit (views.map LevelView.toLevel) remaining).1 ∧
      (planViews side limit views remaining).2 =
        (Logical.matchLevels side limit (views.map LevelView.toLevel) remaining).2.2 := by
  induction views generalizing remaining with
  | nil => simp [planViews, Logical.matchLevels]
  | cons view views ih =>
    rw [planViews, List.map_cons, Logical.matchLevels]
    by_cases hstop : remaining.val = 0 ∨ (!crosses side limit view.price) = true
    · have hstop' : remaining.val = 0 ∨ (!crosses side limit view.toLevel.price) = true := hstop
      rw [if_pos hstop, if_pos hstop']
      exact ⟨rfl, rfl⟩
    have hgo : ¬ (remaining.val = 0 ∨ (!crosses side limit view.toLevel.price) = true) := hstop
    rw [if_neg hstop, if_neg hgo, toLevel_price, toLevel_orders]
    obtain ⟨hfills, hleft, hrest⟩ := planNodes_matchOrders view.handle view.price view.nodes remaining
    rcases hmatch : Logical.matchOrders view.price (view.nodes.map Prod.snd) remaining with
      ⟨fills, rest, left⟩
    rcases hplan : planNodes view.handle view.price view.nodes remaining with ⟨planned, left'⟩
    rw [hmatch, hplan] at hfills hleft hrest
    obtain rfl : left' = left := hleft
    cases rest with
    | nil =>
      obtain ⟨hmore, hmoreLeft⟩ := ih left'
      simp only
      exact ⟨by rw [List.map_append, hfills, hmore], hmoreLeft⟩
    | cons order rest =>
      have hzero : left'.val = 0 := hrest (by simp)
      simp only [planViews_of_zero side limit views hzero, List.append_nil]
      exact ⟨hfills, trivial⟩

/-! ## Building a plan -/

section Walk

variable {level : PriceLevel ORDERS} {handle : ℕ} {price : PriceTicks} {place : OrderId → U32}

theorem planLevel_spec {nodes : List (ℕ × Logical.Order)} {prev cursor last fuel : ℕ}
    (hseg : LinkedSlots.Seg level.queue.slots prev cursor (storedNodes place nodes) LinkedSlots.nil last)
    (hslots : ∀ node ∈ nodes, node.1 ≠ LinkedSlots.nil) (remaining : Quantity) (plan : MatchPlan)
    (hplan : plan.fills.length ≤ plan.capacity) (hfuel : plan.capacity + 2 ≤ fuel + plan.fills.length) :
    OrderBook.planLevel level handle price fuel cursor remaining plan =
      .ok (plan.extend (planNodes handle price nodes remaining).1
        (planNodes handle price nodes remaining).2) := by
  induction nodes generalizing prev cursor fuel remaining plan with
  | nil =>
    obtain ⟨hcursor, _⟩ := hseg
    obtain ⟨fuel, rfl⟩ : ∃ n, fuel = n + 1 := ⟨fuel - 1, by omega⟩
    rw [OrderBook.planLevel, if_pos (.inl hcursor)]
    simp only [planNodes]
    rw [MatchPlan.extend_nil hplan]
  | cons node nodes ih =>
    obtain ⟨slot, order⟩ := node
    obtain ⟨rfl, next, hget, hrest⟩ := hseg
    obtain ⟨fuel, rfl⟩ : ∃ n, fuel = n + 1 := ⟨fuel - 1, by omega⟩
    rw [OrderBook.planLevel, planNodes]
    by_cases hzero : remaining.val = 0
    · rw [if_pos (.inr hzero), if_pos hzero, MatchPlan.extend_nil hplan]
    have hne : cursor ≠ LinkedSlots.nil := hslots (cursor, order) (by simp)
    rw [if_neg (by tauto), if_neg hzero, Run.read_eq_ok.mpr hget]
    simp only [Run.ok_bind, stored_quantity, stored_id]
    have hle : (min remaining order.quantity).val ≤ remaining.val := min_le_left _ _
    by_cases hfull : plan.capacity ≤ plan.fills.length
    · simp only [MatchPlan.pushFill, if_pos hfull]
      rw [MatchPlan.extend, if_neg]
      · rfl
      · simp only [List.length_cons]
        omega
    · simp only [MatchPlan.pushFill, if_neg hfull, Run.subWord_of_le hle, Run.ok_bind]
      rw [ih hrest (fun node hnode ↦ hslots node (List.mem_cons_of_mem _ hnode)) _ _
        (by simp only [List.length_append, List.length_singleton]; omega)
        (by simp only [List.length_append, List.length_singleton]; omega)]
      simp only [MatchPlan.extend, List.length_append, List.length_cons, List.length_nil,
        List.append_assoc, List.singleton_append]
      congr 2
      simp only [Nat.add_assoc, Nat.add_comm 1]

end Walk

variable {book : OrderBook LEVELS ORDERS} {place : OrderId → U32} {views : Views} {order : NewOrder}

theorem BookRep.planLevels (hcap : indexCapacity LEVELS ORDERS ≤ 2 ^ 32) (h : BookRep book place views)
    (side : Side) (vs : List LevelView) (hvs : ∀ view ∈ vs, view ∈ views side) (remaining : Quantity)
    (plan : MatchPlan) (hplan : plan.fills.length ≤ plan.capacity) :
    book.planLevels order side (vs.map fun view ↦ (view.price, view.handle)) remaining plan =
      .ok (plan.extend (planViews order.side order.price vs remaining).1
        (planViews order.side order.price vs remaining).2) := by
  induction vs generalizing remaining plan with
  | nil =>
    simp only [List.map_nil, OrderBook.planLevels, planViews]
    rw [MatchPlan.extend_nil hplan]
  | cons view vs ih =>
    rw [List.map_cons, OrderBook.planLevels, planViews]
    by_cases hstop : remaining.val = 0 ∨ (!crosses order.side order.price view.price) = true
    · rw [if_pos hstop, if_pos hstop, MatchPlan.extend_nil hplan]
    rw [if_neg hstop, if_neg hstop]
    have hview := hvs view (by simp)
    obtain ⟨level, hget, hrep⟩ := (h.sides side).level view hview
    have horders := orders_le (addressable hcap) (h.levels_pos hview)
    have hslots : ∀ node ∈ view.nodes, node.1 ≠ LinkedSlots.nil := by
      intro node hnode
      have hlt := hrep.queue.slot_lt (mem_storedNodes.mpr ⟨node.2, hnode, rfl⟩)
      unfold LinkedSlots.nil
      omega
    have hwalk : OrderBook.planLevel level view.handle view.price (plan.capacity + 2) level.queue.head
        remaining plan = _ :=
      planLevel_spec hrep.queue.queue.seg hslots remaining plan hplan (by omega)
    simp only [OrderBook.expectLevel_of_get hget, Run.ok_bind, hwalk]
    rcases planNodes view.handle view.price view.nodes remaining with ⟨fills, left⟩
    by_cases hroom : plan.fills.length + fills.length ≤ plan.capacity
    · simp only [MatchPlan.extend, if_pos hroom]
      rw [ih (fun v hv ↦ hvs v (List.mem_cons_of_mem _ hv)) left _ (by simpa using hroom)]
      simp only [MatchPlan.extend, List.length_append, List.append_assoc, Nat.add_assoc]
    · simp only [MatchPlan.extend, if_neg hroom, List.length_append]
      rw [if_neg (by omega)]
      rfl

theorem BookRep.restingCapacity (h : BookRep book place views) (order : NewOrder)
    (instrument : InstrumentId) :
    book.restingCapacity order =
      .ok (match (Views.toBook instrument views).restingReject LEVELS ORDERS order.side order.price with
        | some reason => .error reason
        | none => .ok ()) := by
  unfold OrderBook.restingCapacity Logical.Book.restingReject
  rw [toBook_side]
  cases hfind : (book.sideIndex order.side).find order.price (descending order.side) with
  | some handle =>
    obtain ⟨view, hview, hprice, rfl⟩ := (h.sides order.side).find_eq_some.mp hfind
    obtain ⟨level, hget, hrep⟩ := (h.sides order.side).level view hview
    have hqueue := h.queueAt_of_mem hview
    rw [hprice] at hqueue
    simp only [OrderBook.expectLevel_of_get hget, Run.ok_bind, hqueue, hrep.len_eq, List.length_map]
    by_cases hfull : view.nodes.length = ORDERS
    · rw [if_pos hfull, if_pos hfull]
      rfl
    · rw [if_neg hfull, if_neg hfull]
      rfl
  | none =>
    have hprice := (h.sides order.side).find_eq_none.mp hfind
    simp only [BookRep.queueAt_of_absent hprice, List.length_map, (h.sides order.side).isFull_iff]
    by_cases hfull : (views order.side).length = LEVELS
    · rw [if_pos hfull, if_pos hfull]
    · rw [if_neg hfull, if_neg hfull]

/-- The plan of a book, or the reason why there is none. -/
theorem BookRep.buildPlan (hcap : indexCapacity LEVELS ORDERS ≤ 2 ^ 32) (h : BookRep book place views)
    (side : Side) (reportCapacity REPORTS : ℕ) (hreports : reportCapacity ≤ REPORTS)
    (instrument : InstrumentId) :
    book.buildPlan order side reportCapacity REPORTS =
      .ok (
        let walk := planViews order.side order.price (views side) order.quantity
        if reportCapacity < walk.1.length then .error .reportCapacity
        else
          ((Views.toBook instrument views).remainderOutcome LEVELS ORDERS order walk.2).map
            fun outcome ↦ ⟨walk.1, reportCapacity, side, outcome.1, outcome.2⟩) := by
  unfold OrderBook.buildPlan
  rw [(h.sides side).entries, h.planLevels hcap side (views side) (fun _ hv ↦ hv) _ _ (Nat.zero_le _)]
  rcases hwalk : planViews order.side order.price (views side) order.quantity with ⟨fills, left⟩
  have hmin : min reportCapacity REPORTS = reportCapacity := min_eq_left hreports
  simp only [Run.ok_bind, MatchPlan.extend, MatchPlan.new, hmin, List.length_nil, Nat.zero_add,
    List.nil_append]
  by_cases hroom : fills.length ≤ reportCapacity
  swap
  · rw [if_neg hroom, if_pos (by omega)]
    rfl
  rw [if_pos hroom, if_neg (by omega)]
  unfold Logical.Book.remainderOutcome
  have hzero : ¬ 0 < left.val → left = 0 := fun hleft ↦ Fin.ext (by
    simpa using hleft)
  cases order.timeInForce with
  | fok =>
    by_cases hleft : 0 < left.val
    · simp only [if_pos hleft]
      rfl
    · simp only [hzero hleft]
      rfl
  | ioc => rfl
  | gtc =>
    by_cases hleft : 0 < left.val
    · simp only [if_pos hleft, h.restingCapacity order instrument, Run.ok_bind]
      cases (Views.toBook instrument views).restingReject LEVELS ORDERS order.side order.price <;> rfl
    · simp only [hzero hleft]
      rfl
  | postOnly =>
    by_cases hleft : 0 < left.val
    · simp only [if_pos hleft, h.restingCapacity order instrument, Run.ok_bind]
      cases (Views.toBook instrument views).restingReject LEVELS ORDERS order.side order.price <;> rfl
    · simp only [hzero hleft]
      rfl

end DeterministicExchange.Book
