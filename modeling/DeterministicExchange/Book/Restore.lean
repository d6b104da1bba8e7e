import DeterministicExchange.Book.State
import DeterministicExchange.Book.Submit

/-!
# Exporting and restoring books

A represented book exports the state of its logical book. A state passes
validation exactly when it is the state of a restorable logical book, and the
rebuilt book then represents that logical book. Neither direction faults, for
any state.
-/

namespace DeterministicExchange.Logical

open Machine DeterministicExchange.Book

def orderState (side : Side) (price : PriceTicks) (order : Order) : BookOrderState :=
  ⟨order.id, order.accountId, side, price, order.quantity, order.sequence⟩

def levelState (ORDERS : ℕ) (side : Side) (level : Level) : BookLevelState ORDERS :=
  ⟨side, level.price, level.orders.length,
    pad ORDERS emptyBookOrderState (level.orders.map (orderState side level.price))⟩

/-- The exported form of a logical book. -/
def Book.state (LEVELS ORDERS : ℕ) (book : Book) : BookState LEVELS ORDERS where
  instrument := book.instrument
  bidLevelCount := book.bids.length
  bids := pad LEVELS (emptyBookLevelState ORDERS) (book.bids.map (levelState ORDERS .buy))
  askLevelCount := book.asks.length
  asks := pad LEVELS (emptyBookLevelState ORDERS) (book.asks.map (levelState ORDERS .sell))

def orderOf (state : BookOrderState) : Order :=
  ⟨state.orderId, state.accountId, state.quantity, state.sequence⟩

def levelOf {ORDERS : ℕ} (state : BookLevelState ORDERS) : Level :=
  ⟨state.price, (state.orders.toList.take state.orderCount).map orderOf⟩

/-- The logical book that a state describes. -/
def bookOf {LEVELS ORDERS : ℕ} (state : BookState LEVELS ORDERS) : Book where
  instrument := state.instrument
  bids := (state.bids.toList.take state.bidLevelCount).map levelOf
  asks := (state.asks.toList.take state.askLevelCount).map levelOf

/-- What a level must satisfy to be restored. -/
structure Level.Restorable (ORDERS : ℕ) (level : Level) : Prop where
  price_pos : 0 < level.price.val
  nonempty : level.orders ≠ []
  length_le : level.orders.length ≤ ORDERS
  quantity_pos : ∀ order ∈ level.orders, 0 < order.quantity.val
  sequence_pos : ∀ order ∈ level.orders, 0 < order.sequence.val
  fifo : level.orders.Pairwise fun a b ↦ a.sequence < b.sequence

/-- What a book must satisfy to be restored. -/
structure Book.Restorable (LEVELS ORDERS : ℕ) (book : Book) : Prop where
  level : ∀ side, ∀ level ∈ book.side side, level.Restorable ORDERS
  length_le : ∀ side, (book.side side).length ≤ LEVELS
  sorted : ∀ side, (book.side side).Pairwise fun a b ↦
    SortedIndex.before (descending side) a.price b.price = true
  uncrossed : ∀ bid ∈ book.bids.head?, ∀ ask ∈ book.asks.head?, bid.price.val < ask.price.val
  ids : (book.entries.map fun entry ↦ entry.2.2.id).Nodup
  sequences : (book.entries.map fun entry ↦ entry.2.2.sequence).Nodup

end DeterministicExchange.Logical

namespace DeterministicExchange.Book

open Machine

variable {LEVELS ORDERS : ℕ}

/-! ## Export -/

theorem exportOrders_pad {side : Side} {price : PriceTicks} (orders : List RestingOrder)
    (stored : List BookOrderState) (hlen : stored.length + orders.length ≤ ORDERS) :
    OrderBook.exportOrders side price orders
        ⟨side, price, stored.length, pad ORDERS emptyBookOrderState stored⟩ =
      .ok ⟨side, price, stored.length + orders.length, pad ORDERS emptyBookOrderState (stored ++
        orders.map fun order ↦
          ⟨order.id, order.accountId, side, price, order.quantity, order.sequence⟩)⟩ := by
  induction orders generalizing stored with
  | nil => simp [OrderBook.exportOrders]
  | cons order orders ih =>
    rw [List.length_cons] at hlen
    have hstep := ih (stored ++ [⟨order.id, order.accountId, side, price, order.quantity,
      order.sequence⟩]) (by simp; omega)
    rw [List.length_append, List.length_singleton] at hstep
    rw [OrderBook.exportOrders, OrderBook.exportOrder]
    simp only [write_pad (by omega : stored.length < ORDERS), Run.ok_bind, Run.pure_eq_ok, hstep,
      List.length_cons, List.map_cons, List.append_assoc, List.singleton_append]
    congr 2
    omega

theorem BookRep.exportSide {book : OrderBook LEVELS ORDERS} {place : OrderId → U32} {views : Views}
    (hcap : indexCapacity LEVELS ORDERS ≤ 2 ^ 63) (h : BookRep book place views) (side : Side)
    (vs : List LevelView) (hvs : ∀ view ∈ vs, view ∈ views side)
    (stored : List (BookLevelState ORDERS)) (hlen : stored.length + vs.length ≤ LEVELS) :
    book.exportSide side (vs.map fun view ↦ (view.price, view.handle))
        (pad LEVELS (emptyBookLevelState ORDERS) stored) stored.length =
      .ok (pad LEVELS (emptyBookLevelState ORDERS)
          (stored ++ vs.map fun view ↦ Logical.levelState ORDERS side view.toLevel),
        stored.length + vs.length) := by
  induction vs generalizing stored with
  | nil => simp [OrderBook.exportSide]
  | cons view vs ih =>
    rw [List.length_cons] at hlen
    have hview := hvs view (by simp)
    obtain ⟨level, hget, hrep⟩ := (h.sides side).level view hview
    have horders := BookRep.orders_le hcap (h.levels_pos hview)
    have hvalues := hrep.queue.queue.values (by unfold LinkedSlots.nil; omega)
    have hcount := hrep.queue.queue.length_add
    rw [storedNodes_length] at hcount
    have hlevel : OrderBook.exportOrders side view.price
        ((storedNodes place view.nodes).map Prod.snd)
        { emptyBookLevelState ORDERS with side, price := view.price } =
        .ok (Logical.levelState ORDERS side view.toLevel) := by
      have hexport : OrderBook.exportOrders side view.price ((storedNodes place view.nodes).map Prod.snd)
          (⟨side, view.price, ([] : List BookOrderState).length, pad ORDERS emptyBookOrderState []⟩ :
            BookLevelState ORDERS) = _ :=
        exportOrders_pad _ [] (by simp only [List.length_map, storedNodes_length]; simp; omega)
      rw [List.length_nil, Nat.zero_add, List.nil_append, List.length_map, storedNodes_length] at hexport
      unfold emptyBookLevelState
      rw [hexport]
      unfold Logical.levelState
      simp [storedNodes, Logical.orderState, Function.comp_def]
    have hstep := ih (fun v hv ↦ hvs v (List.mem_cons_of_mem _ hv))
      (stored ++ [Logical.levelState ORDERS side view.toLevel]) (by simp; omega)
    rw [List.length_append, List.length_singleton] at hstep
    rw [List.map_cons, OrderBook.exportSide]
    simp only [Run.read_eq_ok.mpr hget, Run.ok_bind, read_pad (by omega : stored.length < LEVELS),
      hvalues, hlevel, write_pad (by omega : stored.length < LEVELS), hstep, List.map_cons,
      List.append_assoc, List.singleton_append, List.length_cons]
    congr 2
    omega

/-- A represented book exports the state of its logical book. -/
theorem OrderBook.Represents.exportState {book : OrderBook LEVELS ORDERS} {logical : Logical.Book}
    (hcap : indexCapacity LEVELS ORDERS ≤ 2 ^ 63) (h : book.Represents logical) :
    book.exportState = .ok (logical.state LEVELS ORDERS) := by
  obtain ⟨place, views, h, rfl⟩ := h
  have hside (side : Side) : book.exportSide side (book.sideIndex side).entries
      (pad LEVELS (emptyBookLevelState ORDERS) []) 0 =
      .ok (pad LEVELS (emptyBookLevelState ORDERS)
        (((views side).map LevelView.toLevel).map (Logical.levelState ORDERS side)),
        ((views side).map LevelView.toLevel).length) := by
    have hexport := h.exportSide hcap side (views side) (fun _ hv ↦ hv) []
      (by simpa using (h.sides side).length_le)
    rw [← (h.sides side).entries] at hexport
    simpa [Function.comp_def] using hexport
  have hbuy : book.exportSide .buy book.bidLevels.entries _ 0 = _ := hside .buy
  have hsell : book.exportSide .sell book.askLevels.entries _ 0 = _ := hside .sell
  unfold OrderBook.exportState
  rw [hbuy, Run.ok_bind, hsell]
  rfl

/-! ## Validation -/

/-- What `validateSide` checks of one level. -/
structure LevelValid (side : Side) (level : BookLevelState ORDERS) : Prop where
  side_eq : level.side = side
  price_pos : 0 < level.price.val
  count_pos : 0 < level.orderCount
  count_le : level.orderCount ≤ ORDERS
  orders : ∀ order ∈ level.orders.toList.take level.orderCount,
    order.side = side ∧ order.price = level.price ∧ 0 < order.quantity.val ∧ 0 < order.sequence.val
  fifo : (level.orders.toList.take level.orderCount).Pairwise fun a b ↦ a.sequence < b.sequence
  unused : ∀ order ∈ level.orders.toList.drop level.orderCount, order = emptyBookOrderState

theorem orderStateError_eq_none {side : Side} {price : PriceTicks} {order : BookOrderState} :
    OrderBook.orderStateError side price order = none ↔
      order.side = side ∧ order.price = price ∧ 0 < order.quantity.val ∧ 0 < order.sequence.val := by
  unfold OrderBook.orderStateError
  split_ifs <;> simp_all <;> omega

theorem outOfSequence_eq_false (orders : List BookOrderState) :
    OrderBook.outOfSequence orders = false ↔ orders.Pairwise fun a b ↦ a.sequence < b.sequence := by
  have htrans : Trans (fun a b : BookOrderState ↦ a.sequence < b.sequence)
      (fun a b : BookOrderState ↦ a.sequence < b.sequence)
      (fun a b : BookOrderState ↦ a.sequence < b.sequence) := ⟨fun h h' ↦ lt_trans h h'⟩
  rw [← List.isChain_iff_pairwise]
  induction orders with
  | nil => simp [OrderBook.outOfSequence]
  | cons first rest ih =>
    cases rest with
    | nil => simp [OrderBook.outOfSequence]
    | cons second rest =>
      rw [OrderBook.outOfSequence, Bool.or_eq_false_iff, List.isChain_cons_cons]
      exact and_congr (by simp) ih

theorem misplaced_some {side : Side} {prior price : PriceTicks} :
    OrderBook.misplaced side (some prior) price = false ↔
      SortedIndex.before (descending side) prior price = true := by
  unfold OrderBook.misplaced SortedIndex.before descending
  cases side <;> simp

/-- `validateSide` returns, and accepts exactly valid levels in strict price order. -/
theorem validateSide_spec (side : Side) (levels : List (BookLevelState ORDERS))
    (prior : Option PriceTicks) :
    ∃ result, OrderBook.validateSide side levels prior = .ok result ∧
      (result = .ok () ↔ (∀ level ∈ levels, LevelValid side level) ∧
        (prior.toList ++ levels.map BookLevelState.price).IsChain fun a b ↦
          SortedIndex.before (descending side) a b = true) := by
  induction levels generalizing prior with
  | nil =>
    refine ⟨.ok (), rfl, ?_⟩
    cases prior <;> simp
  | cons level levels ih =>
    have hreject (e : BookStateError) (hbad : ¬ (LevelValid side level ∧
        OrderBook.misplaced side prior level.price = false)) :
        ((.error e : Except BookStateError Unit) = .ok () ↔
          (∀ l ∈ level :: levels, LevelValid side l) ∧
          (prior.toList ++ (level :: levels).map BookLevelState.price).IsChain fun a b ↦
            SortedIndex.before (descending side) a b = true) := by
      simp only [reduceCtorEq, false_iff]
      rintro ⟨hvalid, hchain⟩
      refine hbad ⟨hvalid level (by simp), ?_⟩
      cases prior with
      | none => rfl
      | some prior =>
        rw [misplaced_some]
        simp only [Option.toList_some, List.map_cons, List.singleton_append,
          List.isChain_cons_cons] at hchain
        exact hchain.1
    rw [OrderBook.validateSide]
    split_ifs with h1 h2 h3 h4
    · exact ⟨_, rfl, hreject _ fun h ↦ h1 h.1.side_eq⟩
    · exact ⟨_, rfl, hreject _ fun h ↦ absurd h.1.price_pos (by omega)⟩
    · refine ⟨_, rfl, hreject _ fun h ↦ ?_⟩
      have hpos := h.1.count_pos
      have hle := h.1.count_le
      omega
    · exact ⟨_, rfl, hreject _ fun h ↦ by simp [h.2] at h4⟩
    have hcount : level.orderCount ≤ ORDERS := by omega
    cases herror : (level.orders.toList.take level.orderCount).findSome?
        (OrderBook.orderStateError side level.price) with
    | some error =>
      refine ⟨_, rfl, hreject _ fun h ↦ ?_⟩
      obtain ⟨order, horder, hsome⟩ := List.exists_of_findSome?_eq_some herror
      rw [orderStateError_eq_none.mpr (h.1.orders order horder)] at hsome
      simp at hsome
    | none =>
      have horders := List.findSome?_eq_none_iff.mp herror
      simp only [Run.sliceTo_of_le _ hcount, Run.ok_bind, Run.sliceFrom_of_le _ hcount]
      split_ifs with h5 h6
      · refine ⟨_, rfl, hreject _ fun h ↦ ?_⟩
        rw [(outOfSequence_eq_false _).mpr h.1.fifo] at h5
        simp at h5
      · refine ⟨_, rfl, hreject _ fun h ↦ ?_⟩
        obtain ⟨order, horder, hne⟩ := List.any_eq_true.mp h6
        exact absurd (h.1.unused order horder) (by simpa using hne)
      · obtain ⟨result, hresult, hiff⟩ := ih (some level.price)
        refine ⟨result, hresult, hiff.trans ?_⟩
        have hvalid : LevelValid side level := by
          refine ⟨by simpa using h1, by omega, by omega, hcount, ?_, ?_, ?_⟩
          · exact fun order horder ↦ orderStateError_eq_none.mp (horders order horder)
          · exact (outOfSequence_eq_false _).mp (by simpa using h5)
          · intro order horder
            by_contra hne
            exact h6 (List.any_eq_true.mpr ⟨order, horder, by simpa using hne⟩)
        have hplaced : OrderBook.misplaced side prior level.price = false := by simpa using h4
        constructor
        · rintro ⟨hrest, hchain⟩
          refine ⟨?_, ?_⟩
          · intro l hl
            rcases List.mem_cons.mp hl with rfl | hl
            · exact hvalid
            · exact hrest l hl
          · cases prior with
            | none => exact hchain
            | some prior =>
              simp only [Option.toList_some, List.map_cons, List.singleton_append,
                List.isChain_cons_cons] at hchain ⊢
              exact ⟨misplaced_some.mp hplaced, hchain⟩
        · rintro ⟨hall, hchain⟩
          refine ⟨fun l hl ↦ hall l (List.mem_cons_of_mem _ hl), ?_⟩
          cases prior with
          | none => exact hchain
          | some prior =>
            simp only [Option.toList_some, List.map_cons, List.singleton_append,
              List.isChain_cons_cons] at hchain ⊢
            exact hchain.2

theorem orderState_orderOf {side : Side} {price : PriceTicks} {order : BookOrderState}
    (hside : order.side = side) (hprice : order.price = price) :
    Logical.orderState side price (Logical.orderOf order) = order := by
  obtain ⟨id, account, side', price', quantity, sequence⟩ := order
  obtain rfl : side' = side := hside
  obtain rfl : price' = price := hprice
  rfl

theorem take_levelState (side : Side) {level : Logical.Level} (h : level.orders.length ≤ ORDERS) :
    (Logical.levelState ORDERS side level).orders.toList.take
        (Logical.levelState ORDERS side level).orderCount =
      level.orders.map (Logical.orderState side level.price) := by
  have hlen : (level.orders.map (Logical.orderState side level.price)).length ≤ ORDERS := by
    simpa using h
  have htake := take_toList_pad emptyBookOrderState hlen
  rw [List.length_map] at htake
  exact htake

theorem levelOf_levelState {side : Side} {level : Logical.Level} (h : level.orders.length ≤ ORDERS) :
    Logical.levelOf (Logical.levelState ORDERS side level) = level := by
  unfold Logical.levelOf
  rw [take_levelState side h, List.map_map]
  have hid : Logical.orderOf ∘ Logical.orderState side level.price = id := by
    funext order
    rfl
  rw [hid, List.map_id]
  rfl

/-- A valid level is the state of a restorable level. -/
theorem LevelValid.eq_levelState {side : Side} {level : BookLevelState ORDERS}
    (h : LevelValid side level) :
    level = Logical.levelState ORDERS side (Logical.levelOf level) ∧
      (Logical.levelOf level).Restorable ORDERS := by
  have hlen : (level.orders.toList.take level.orderCount).length = level.orderCount := by
    simp [h.count_le]
  have horders : ((level.orders.toList.take level.orderCount).map Logical.orderOf).map
      (Logical.orderState side level.price) = level.orders.toList.take level.orderCount := by
    rw [List.map_map]
    conv_rhs => rw [← List.map_id (level.orders.toList.take level.orderCount)]
    apply List.map_congr_left
    intro order horder
    obtain ⟨hside, hprice, _⟩ := h.orders order horder
    exact orderState_orderOf hside hprice
  constructor
  · obtain ⟨side', price, count, orders⟩ := level
    obtain rfl : side' = side := h.side_eq
    unfold Logical.levelState Logical.levelOf
    rw [horders, List.length_map, hlen]
    congr 1
    exact eq_pad h.count_le h.unused
  · refine ⟨h.price_pos, ?_, ?_, ?_, ?_, ?_⟩
    · intro hnil
      have hzero := congrArg List.length hnil
      unfold Logical.levelOf at hzero
      rw [List.length_map, hlen] at hzero
      exact absurd hzero h.count_pos.ne'
    · unfold Logical.levelOf
      rw [List.length_map, hlen]
      exact h.count_le
    · intro order horder
      obtain ⟨state, hstate, rfl⟩ := List.mem_map.mp horder
      exact (h.orders state hstate).2.2.1
    · intro order horder
      obtain ⟨state, hstate, rfl⟩ := List.mem_map.mp horder
      exact (h.orders state hstate).2.2.2
    · exact List.pairwise_map.mpr h.fifo

theorem levelValid_levelState {side : Side} {level : Logical.Level} (h : level.Restorable ORDERS) :
    LevelValid side (Logical.levelState ORDERS side level) := by
  have htake := take_levelState side h.length_le
  refine ⟨rfl, h.price_pos, List.length_pos_iff.mpr h.nonempty, h.length_le, ?_, ?_, ?_⟩
  · rw [htake]
    intro order horder
    obtain ⟨o, ho, rfl⟩ := List.mem_map.mp horder
    exact ⟨rfl, rfl, h.quantity_pos o ho, h.sequence_pos o ho⟩
  · rw [htake]
    exact List.pairwise_map.mpr h.fifo
  · intro order horder
    have hlen : (level.orders.map (Logical.orderState side level.price)).length ≤ ORDERS := by
      simpa using h.length_le
    have hdrop := drop_toList_pad emptyBookOrderState hlen
    rw [List.length_map] at hdrop
    have horder' : order ∈ (pad ORDERS emptyBookOrderState
        (level.orders.map (Logical.orderState side level.price))).toList.drop level.orders.length :=
      horder
    rw [hdrop] at horder'
    exact List.eq_of_mem_replicate horder'

theorem nodup_map_iff_countP {α β : Type} [DecidableEq β] (f : α → β) (l : List α) :
    (l.map f).Nodup ↔ ∀ a ∈ l, l.countP (fun b ↦ f b = f a) = 1 := by
  have hcount (a : α) : (l.map f).count (f a) = l.countP fun b ↦ f b = f a := by
    rw [List.count, List.countP_map]
    apply List.countP_congr
    intro b _
    simp
  rw [List.nodup_iff_count_eq_one]
  simp only [List.mem_map, forall_exists_index, and_imp, forall_apply_eq_imp_iff₂, hcount]

theorem validateUniqueIds_eq_ok {state : BookState LEVELS ORDERS} :
    OrderBook.validateUniqueIds state = .ok () ↔
      ((OrderBook.stateOrders state).map BookOrderState.orderId).Nodup ∧
        ((OrderBook.stateOrders state).map BookOrderState.sequence).Nodup := by
  rw [nodup_map_iff_countP, nodup_map_iff_countP]
  unfold OrderBook.validateUniqueIds
  cases herror : (OrderBook.stateOrders state).findSome? fun order ↦
      if (OrderBook.stateOrders state).countP (fun c ↦ c.orderId = order.orderId) ≠ 1 then
        some BookStateError.duplicateOrderId
      else if (OrderBook.stateOrders state).countP (fun c ↦ c.sequence = order.sequence) ≠ 1 then
        some .sequence
      else none with
  | some error =>
    simp only [reduceCtorEq, false_iff, not_and]
    intro hids hsequences
    obtain ⟨order, horder, hsome⟩ := List.exists_of_findSome?_eq_some herror
    simp [hids order horder, hsequences order horder] at hsome
  | none =>
    simp only [true_iff]
    have hnone := List.findSome?_eq_none_iff.mp herror
    constructor
    · intro order horder
      have := hnone order horder
      split_ifs at this with h1 h2
      simpa using h1
    · intro order horder
      have := hnone order horder
      split_ifs at this with h1 h2
      simpa using h2

theorem map_levelOf {levels : List (BookLevelState ORDERS)} {side : Side}
    (h : ∀ level ∈ levels, LevelValid side level) :
    (levels.map Logical.levelOf).map (Logical.levelState ORDERS side) = levels := by
  rw [List.map_map]
  conv_rhs => rw [← List.map_id levels]
  apply List.map_congr_left
  intro level hlevel
  exact (h level hlevel).eq_levelState.1.symm

theorem map_levelState {levels : List Logical.Level} {side : Side}
    (h : ∀ level ∈ levels, level.Restorable ORDERS) :
    (levels.map (Logical.levelState ORDERS side)).map Logical.levelOf = levels := by
  rw [List.map_map]
  conv_rhs => rw [← List.map_id levels]
  apply List.map_congr_left
  intro level hlevel
  exact levelOf_levelState (h level hlevel).length_le

/-- The orders of valid levels, read off the logical levels. -/
theorem flatMap_take_levels (side : Side) {levels : List Logical.Level}
    (h : ∀ level ∈ levels, level.orders.length ≤ ORDERS) :
    (levels.map (Logical.levelState ORDERS side)).flatMap
        (fun level ↦ level.orders.toList.take level.orderCount) =
      (Logical.entries side levels).map fun entry ↦
        Logical.orderState entry.1 entry.2.1 entry.2.2 := by
  unfold Logical.entries
  rw [List.flatMap_map, List.map_flatMap]
  apply List.flatMap_congr
  intro level hlevel
  rw [take_levelState side (h level hlevel), List.map_map]
  rfl

theorem stateOrders_state {book : Logical.Book} (h : book.Restorable LEVELS ORDERS) :
    OrderBook.stateOrders (book.state LEVELS ORDERS) =
      book.entries.map fun entry ↦ Logical.orderState entry.1 entry.2.1 entry.2.2 := by
  have hbids : (book.bids.map (Logical.levelState ORDERS .buy)).length ≤ LEVELS := by
    simpa [Logical.Book.side] using h.length_le .buy
  have hasks : (book.asks.map (Logical.levelState ORDERS .sell)).length ≤ LEVELS := by
    simpa [Logical.Book.side] using h.length_le .sell
  have htakeBids := take_toList_pad (emptyBookLevelState ORDERS) hbids
  have htakeAsks := take_toList_pad (emptyBookLevelState ORDERS) hasks
  rw [List.length_map] at htakeBids htakeAsks
  unfold OrderBook.stateOrders Logical.Book.state Logical.Book.entries
  simp only
  have hbidOrders : ∀ level ∈ book.bids, level.orders.length ≤ ORDERS := fun level hlevel ↦
    (h.level .buy level hlevel).length_le
  have haskOrders : ∀ level ∈ book.asks, level.orders.length ≤ ORDERS := fun level hlevel ↦
    (h.level .sell level hlevel).length_le
  rw [htakeBids, htakeAsks, List.flatMap_append, List.map_append, flatMap_take_levels .buy hbidOrders,
    flatMap_take_levels .sell haskOrders]

theorem head?_take_filter {α : Type} {n : ℕ} (array : Vector α n) (k : ℕ) :
    (array[0]?.filter fun _ ↦ decide (0 < k)) = (array.toList.take k).head? := by
  rw [← Vector.getElem?_toList]
  cases k with
  | zero => cases array.toList <;> simp
  | succ k => cases array.toList <;> simp

theorem crossed_eq_false {state : BookState LEVELS ORDERS} :
    OrderBook.crossed state = false ↔
      ∀ bid ∈ (state.bids.toList.take state.bidLevelCount).head?,
        ∀ ask ∈ (state.asks.toList.take state.askLevelCount).head?, bid.price.val < ask.price.val := by
  unfold OrderBook.crossed
  rw [head?_take_filter, head?_take_filter]
  cases (state.bids.toList.take state.bidLevelCount).head? <;>
    cases (state.asks.toList.take state.askLevelCount).head? <;> simp

theorem take_state_bids {book : Logical.Book} (h : book.bids.length ≤ LEVELS) :
    (book.state LEVELS ORDERS).bids.toList.take (book.state LEVELS ORDERS).bidLevelCount =
      book.bids.map (Logical.levelState ORDERS .buy) := by
  have htake := take_toList_pad (emptyBookLevelState ORDERS)
    (by simpa using h : (book.bids.map (Logical.levelState ORDERS .buy)).length ≤ LEVELS)
  rw [List.length_map] at htake
  exact htake

theorem take_state_asks {book : Logical.Book} (h : book.asks.length ≤ LEVELS) :
    (book.state LEVELS ORDERS).asks.toList.take (book.state LEVELS ORDERS).askLevelCount =
      book.asks.map (Logical.levelState ORDERS .sell) := by
  have htake := take_toList_pad (emptyBookLevelState ORDERS)
    (by simpa using h : (book.asks.map (Logical.levelState ORDERS .sell)).length ≤ LEVELS)
  rw [List.length_map] at htake
  exact htake

instance instTransBefore (side : Side) : Trans
    (fun a b : PriceTicks ↦ SortedIndex.before (descending side) a b = true)
    (fun a b : PriceTicks ↦ SortedIndex.before (descending side) a b = true)
    (fun a b : PriceTicks ↦ SortedIndex.before (descending side) a b = true) :=
  ⟨fun h h' ↦ SortedIndex.before_trans h h'⟩

/-- The levels of a restorable book pass the check of their side. -/
theorem validateSide_of_restorable (side : Side) {levels : List Logical.Level}
    (hlevels : ∀ level ∈ levels, level.Restorable ORDERS)
    (hsorted : levels.Pairwise fun a b ↦
      SortedIndex.before (descending side) a.price b.price = true) :
    OrderBook.validateSide side (levels.map (Logical.levelState ORDERS side)) none = .ok (.ok ()) := by
  obtain ⟨result, hresult, hiff⟩ := validateSide_spec side
    (levels.map (Logical.levelState ORDERS side)) none
  rw [hresult, hiff.mpr]
  constructor
  · intro state hstate
    obtain ⟨level, hlevel, rfl⟩ := List.mem_map.mp hstate
    exact levelValid_levelState (hlevels level hlevel)
  · rw [Option.toList_none, List.nil_append, List.isChain_iff_pairwise, List.map_map,
      List.pairwise_map]
    exact hsorted

/-- The state of a restorable book passes validation. -/
theorem validateState_of_restorable {book : Logical.Book} (h : book.Restorable LEVELS ORDERS) :
    OrderBook.validateState (book.state LEVELS ORDERS) = .ok (.ok ()) := by
  have hbids : book.bids.length ≤ LEVELS := h.length_le .buy
  have hasks : book.asks.length ≤ LEVELS := h.length_le .sell
  have hdropBids := drop_toList_pad (emptyBookLevelState ORDERS)
    (by simpa using hbids : (book.bids.map (Logical.levelState ORDERS .buy)).length ≤ LEVELS)
  have hdropAsks := drop_toList_pad (emptyBookLevelState ORDERS)
    (by simpa using hasks : (book.asks.map (Logical.levelState ORDERS .sell)).length ≤ LEVELS)
  rw [List.length_map] at hdropBids hdropAsks
  have hunusedBids : Run.sliceFrom (book.state LEVELS ORDERS).bids
      (book.state LEVELS ORDERS).bidLevelCount = .ok _ :=
    (Run.sliceFrom_of_le _ hbids).trans (congrArg _ hdropBids)
  have hunusedAsks : Run.sliceFrom (book.state LEVELS ORDERS).asks
      (book.state LEVELS ORDERS).askLevelCount = .ok _ :=
    (Run.sliceFrom_of_le _ hasks).trans (congrArg _ hdropAsks)
  have hcrossed : OrderBook.crossed (book.state LEVELS ORDERS) = false := by
    rw [crossed_eq_false, take_state_bids hbids, take_state_asks hasks]
    intro bid hbid ask hask
    rw [List.head?_map] at hbid hask
    obtain ⟨bid', hbid', rfl⟩ := Option.map_eq_some_iff.mp hbid
    obtain ⟨ask', hask', rfl⟩ := Option.map_eq_some_iff.mp hask
    exact h.uncrossed bid' hbid' ask' hask'
  have hunique : OrderBook.validateUniqueIds (book.state LEVELS ORDERS) = .ok () := by
    rw [validateUniqueIds_eq_ok, stateOrders_state h, List.map_map, List.map_map]
    exact ⟨h.ids, h.sequences⟩
  have hcount : ¬ (LEVELS < (book.state LEVELS ORDERS).bidLevelCount ∨
      LEVELS < (book.state LEVELS ORDERS).askLevelCount) := by
    rw [not_or]
    exact ⟨Nat.not_lt.mpr hbids, Nat.not_lt.mpr hasks⟩
  have hbuy : OrderBook.validateSide .buy (book.bids.map (Logical.levelState ORDERS .buy)) none =
      .ok (.ok ()) := validateSide_of_restorable .buy (h.level .buy) (h.sorted .buy)
  have hsell : OrderBook.validateSide .sell (book.asks.map (Logical.levelState ORDERS .sell)) none =
      .ok (.ok ()) := validateSide_of_restorable .sell (h.level .sell) (h.sorted .sell)
  unfold OrderBook.validateState
  rw [if_neg hcount, take_state_bids hbids, take_state_asks hasks]
  simp only [Run.ok_bind, hbuy, hsell, hunusedBids, hunusedAsks, hcrossed, hunique]
  rw [if_neg, if_neg (by simp)]
  · rfl
  · simp

/-- A validated side holds the states of its logical levels. -/
theorem restorable_of_validateSide {side : Side} {levels : List (BookLevelState ORDERS)}
    (h : OrderBook.validateSide side levels none = .ok (.ok ())) :
    (∀ level ∈ levels, LevelValid side level) ∧
      (levels.map Logical.levelOf).Pairwise fun a b ↦
        SortedIndex.before (descending side) a.price b.price = true := by
  obtain ⟨result, hresult, hiff⟩ := validateSide_spec side levels none
  rw [h] at hresult
  obtain ⟨hvalid, hchain⟩ := hiff.mp (Except.ok.inj hresult).symm
  rw [Option.toList_none, List.nil_append, List.isChain_iff_pairwise, List.pairwise_map] at hchain
  exact ⟨hvalid, List.pairwise_map.mpr hchain⟩

/-- Validation returns for every state. -/
theorem validateState_returns (state : BookState LEVELS ORDERS) :
    ∃ result, OrderBook.validateState state = .ok result := by
  unfold OrderBook.validateState
  by_cases hcount : LEVELS < state.bidLevelCount ∨ LEVELS < state.askLevelCount
  · rw [if_pos hcount]
    exact ⟨_, rfl⟩
  · rw [if_neg hcount]
    obtain ⟨buy, hbuy, _⟩ := validateSide_spec .buy (state.bids.toList.take state.bidLevelCount) none
    obtain ⟨sell, hsell, _⟩ := validateSide_spec .sell (state.asks.toList.take state.askLevelCount) none
    have hbids : state.bidLevelCount ≤ LEVELS := by omega
    have hasks : state.askLevelCount ≤ LEVELS := by omega
    simp only [hbuy, hsell, Run.ok_bind, Run.sliceFrom_of_le _ hbids, Run.sliceFrom_of_le _ hasks]
    cases buy with
    | error e => exact ⟨_, rfl⟩
    | ok _ =>
      cases sell with
      | error e => exact ⟨_, rfl⟩
      | ok _ =>
        simp only
        split_ifs <;> exact ⟨_, rfl⟩

/-- A validated state is the state of the restorable book it describes. -/
theorem restorable_of_validateState {state : BookState LEVELS ORDERS}
    (h : OrderBook.validateState state = .ok (.ok ())) :
    state = (Logical.bookOf state).state LEVELS ORDERS ∧
      (Logical.bookOf state).Restorable LEVELS ORDERS := by
  unfold OrderBook.validateState at h
  by_cases hcount : LEVELS < state.bidLevelCount ∨ LEVELS < state.askLevelCount
  · rw [if_pos hcount] at h
    simp at h
  rw [if_neg hcount] at h
  obtain ⟨buy, hbuy, _⟩ := validateSide_spec .buy (state.bids.toList.take state.bidLevelCount) none
  obtain ⟨sell, hsell, _⟩ := validateSide_spec .sell (state.asks.toList.take state.askLevelCount) none
  have hbids : state.bidLevelCount ≤ LEVELS := by omega
  have hasks : state.askLevelCount ≤ LEVELS := by omega
  simp only [hbuy, hsell, Run.ok_bind, Run.sliceFrom_of_le _ hbids, Run.sliceFrom_of_le _ hasks] at h
  cases buy with
  | error e => simp at h
  | ok _ =>
    cases sell with
    | error e => simp at h
    | ok _ =>
      simp only at h
      split_ifs at h with hunused hcrossed
      · simp at h
      · simp at h
      have hunique : OrderBook.validateUniqueIds state = .ok () := by
        simpa using h
      obtain ⟨hbidValid, hbidSorted⟩ := restorable_of_validateSide hbuy
      obtain ⟨haskValid, haskSorted⟩ := restorable_of_validateSide hsell
      have hbidLen : (state.bids.toList.take state.bidLevelCount).length = state.bidLevelCount := by
        simp [hbids]
      have haskLen : (state.asks.toList.take state.askLevelCount).length = state.askLevelCount := by
        simp [hasks]
      have hempty : ∀ level ∈ state.bids.toList.drop state.bidLevelCount ++
          state.asks.toList.drop state.askLevelCount, level = emptyBookLevelState ORDERS := by
        intro level hlevel
        by_contra hne
        exact hunused (List.any_eq_true.mpr ⟨level, hlevel, by simpa using hne⟩)
      have hstate : state = (Logical.bookOf state).state LEVELS ORDERS := by
        obtain ⟨instrument, bidCount, bids, askCount, asks⟩ := state
        unfold Logical.bookOf Logical.Book.state
        simp only at hbidValid haskValid hbidLen haskLen hempty hbids hasks ⊢
        rw [map_levelOf hbidValid, map_levelOf haskValid, List.length_map, List.length_map, hbidLen,
          haskLen, ← eq_pad hbids fun l hl ↦ hempty l (List.mem_append_left _ hl),
          ← eq_pad hasks fun l hl ↦ hempty l (List.mem_append_right _ hl)]
      have hlevel : ∀ side, ∀ level ∈ (Logical.bookOf state).side side, level.Restorable ORDERS := by
        intro side level hlevel
        cases side with
        | buy =>
          obtain ⟨l, hl, rfl⟩ := List.mem_map.mp hlevel
          exact (hbidValid l hl).eq_levelState.2
        | sell =>
          obtain ⟨l, hl, rfl⟩ := List.mem_map.mp hlevel
          exact (haskValid l hl).eq_levelState.2
      have hlength : ∀ side, ((Logical.bookOf state).side side).length ≤ LEVELS := by
        intro side
        cases side <;> simp [Logical.bookOf, Logical.Book.side]
      have hsorted : ∀ side, ((Logical.bookOf state).side side).Pairwise fun a b ↦
          SortedIndex.before (descending side) a.price b.price = true := by
        intro side
        cases side with
        | buy => exact hbidSorted
        | sell => exact haskSorted
      have hbidLevels : ∀ level ∈ (Logical.bookOf state).bids, level.orders.length ≤ ORDERS :=
        fun level hl ↦ (hlevel .buy level hl).length_le
      have haskLevels : ∀ level ∈ (Logical.bookOf state).asks, level.orders.length ≤ ORDERS :=
        fun level hl ↦ (hlevel .sell level hl).length_le
      have horders : OrderBook.stateOrders state = (Logical.bookOf state).entries.map fun entry ↦
          Logical.orderState entry.1 entry.2.1 entry.2.2 := by
        unfold Logical.Book.entries
        rw [List.map_append, ← flatMap_take_levels .buy hbidLevels,
          ← flatMap_take_levels .sell haskLevels, ← List.flatMap_append]
        unfold OrderBook.stateOrders Logical.bookOf
        simp only
        rw [map_levelOf hbidValid, map_levelOf haskValid]
      have hids := validateUniqueIds_eq_ok.mp hunique
      rw [horders, List.map_map, List.map_map] at hids
      refine ⟨hstate, hlevel, hlength, hsorted, ?_, hids.1, hids.2⟩
      intro bid hbid ask hask
      have hbid' : (Logical.bookOf state).bids.head? =
          (state.bids.toList.take state.bidLevelCount).head?.map Logical.levelOf := List.head?_map
      have hask' : (Logical.bookOf state).asks.head? =
          (state.asks.toList.take state.askLevelCount).head?.map Logical.levelOf := List.head?_map
      rw [hbid'] at hbid
      rw [hask'] at hask
      obtain ⟨b, hb, rfl⟩ := Option.map_eq_some_iff.mp hbid
      obtain ⟨a, ha, rfl⟩ := Option.map_eq_some_iff.mp hask
      exact crossed_eq_false.mp (by simpa using hcrossed) b hb a ha

/-! ## Restoring -/

section Restoring

variable {book : OrderBook LEVELS ORDERS} {place : OrderId → U32} {views : Views} {side : Side}

theorem live_nil {l : OrderLocation} {x : Logical.Order} : ¬ Live (fun _ ↦ []) l x := by
  rintro ⟨v, hv, _⟩
  simp at hv

/-- A new book stores nothing. -/
theorem BookRep.new (instrument : InstrumentId) :
    BookRep (OrderBook.new LEVELS ORDERS instrument) (fun _ ↦ 0) (fun _ ↦ []) := by
  have hside (side : Side) : SideRep (fun _ ↦ 0) ((OrderBook.new LEVELS ORDERS instrument).sideLevels side)
      ((OrderBook.new LEVELS ORDERS instrument).sideIndex side) (descending side) [] := by
    cases side <;>
    · refine ⟨SortedIndex.Sorted.empty _, rfl, by simp, ?_⟩
      intro i hi _
      simp [OrderBook.new, OrderBook.sideLevels, hi]
  refine ⟨hside, by simp, ?_⟩
  refine ⟨ProbeTable.Probed.empty _, ?_, ?_, ?_, ?_⟩
  · intro pos id encoded
    have hempty : ProbeTable.slot (OrderBook.new LEVELS ORDERS instrument).index pos = none :=
      ProbeTable.slot_empty pos
    rw [hempty]
    simp only [reduceCtorEq, false_iff]
    rintro ⟨l, x, hlive, _⟩
    exact live_nil hlive
  · exact fun l x hlive ↦ absurd hlive live_nil
  · exact fun l x x' hlive ↦ absurd hlive live_nil
  · exact fun l x l' x' hlive ↦ absurd hlive live_nil

theorem OrderBook.Represents.new (instrument : InstrumentId) :
    (OrderBook.new LEVELS ORDERS instrument).Represents (Logical.Book.empty instrument) :=
  ⟨_, _, BookRep.new instrument, rfl⟩

/-- Restoring the orders of one level appends them to its queue. -/
theorem restoreOrders_spec (hcap : indexCapacity LEVELS ORDERS ≤ 2 ^ 63) (price : PriceTicks)
    (orders : List Logical.Order) {pre post : List LevelView} {view : LevelView}
    (hsides : SidesRep book place views) (hindex : IndexRep place book.index (Live views))
    (hviews : views side = pre ++ view :: post)
    (hlen : view.nodes.length + orders.length ≤ ORDERS)
    (hpos : ∀ order ∈ orders, 0 < order.quantity.val)
    (hids : (orders.map Logical.Order.id).Nodup)
    (habsent : ∀ order ∈ orders, ∀ l x, Live views l x → x.id ≠ order.id) :
    Run.Builds (2 ^ 32 < indexCapacity LEVELS ORDERS) (OrderBook.restoreOrders side view.handle
        (orders.map (Logical.orderState side price)) book) fun book' ↦ ∃ place' view',
      book'.instrument = book.instrument ∧
      SidesRep book' place' (Function.update views side (pre ++ view' :: post)) ∧
      IndexRep place' book'.index (Live (Function.update views side (pre ++ view' :: post))) ∧
      view'.price = view.price ∧ view'.nodes.map Prod.snd = view.nodes.map Prod.snd ++ orders ∧
      ∀ l x, Live (Function.update views side (pre ++ view' :: post)) l x →
        Live views l x ∨ x ∈ orders := by
  induction orders generalizing book place views view with
  | nil =>
    refine .inr ⟨book, rfl, place, view, rfl, ?_, ?_, rfl, by simp, ?_⟩ <;>
      rw [← hviews, Function.update_eq_self]
    · exact hsides
    · exact hindex
    · exact fun l x hl ↦ .inl hl
  | cons order orders ih =>
    rw [List.length_cons] at hlen
    rw [List.map_cons, List.nodup_cons] at hids
    obtain ⟨level, slot, free, level', hget, hpush, hindexed⟩ := hsides.appendNode_builds hcap hindex hviews
      (by omega) (hpos order (by simp)) (habsent order (by simp))
    rw [List.map_cons, OrderBook.restoreOrders, OrderBook.restoreOrder]
    simp only [Run.read_eq_ok.mpr hget, Run.ok_bind, Logical.orderState, hpush]
    obtain ⟨reason, hinsert, hlarge⟩ | ⟨indexSlot, index', place₁, hinsert, hlive, hsides₁, hindex₁⟩ :=
      hindexed
    · simp only [hinsert, Run.pure_eq_ok, Run.ok_bind]
      exact .inl ⟨_, rfl, hlarge⟩
    simp only [hinsert, hlive, Run.pure_eq_ok, Run.ok_bind]
    have hlive₁ := live_append slot order free hviews
    have habsent₁ : ∀ o ∈ orders, ∀ l x, Live (Function.update views side (pre ++
        ⟨view.price, view.handle, view.nodes ++ [(slot, order)], free⟩ :: post)) l x → x.id ≠ o.id := by
      intro o ho l x hl
      rcases (hlive₁ l x).mp hl with hl | ⟨_, rfl⟩
      · exact habsent o (by simp [ho]) l x hl
      · intro heq
        exact hids.1 (List.mem_map.mpr ⟨o, ho, heq.symm⟩)
    obtain ⟨error, hrestore, hlarge⟩ | ⟨book', hrestore, place', view', hinstrument, hsides', hindex',
        hprice, hnodes, hnew⟩ :=
      ih (hsides₁.with_index index') hindex₁ (Function.update_self ..) (by simp; omega)
        (fun o ho ↦ hpos o (by simp [ho])) hids.2 habsent₁
    · exact .inl ⟨error, hrestore, hlarge⟩
    rw [Function.update_idem] at hsides' hindex' hnew
    refine .inr ⟨book', hrestore, place', view', by simpa using hinstrument, hsides', hindex', hprice,
      ?_, ?_⟩
    · rw [hnodes]
      simp
    · intro l x hl
      rcases hnew l x hl with hl | hx
      · rcases (hlive₁ l x).mp hl with hl | ⟨_, rfl⟩
        · exact .inl hl
        · exact .inr (by simp)
      · exact .inr (by simp [hx])

/-- Restoring a level that belongs at the end of its side. -/
theorem BookRep.restoreLevel (hcap : indexCapacity LEVELS ORDERS ≤ 2 ^ 63)
    (h : BookRep book place views) {level : Logical.Level} (hlevel : level.Restorable ORDERS)
    (hlast : ∀ v ∈ views side, SortedIndex.before (descending side) v.price level.price = true)
    (hlen : (views side).length < LEVELS) (hids : (level.orders.map Logical.Order.id).Nodup)
    (habsent : ∀ order ∈ level.orders, ∀ l x, Live views l x → x.id ≠ order.id) :
    Run.Builds (2 ^ 32 < indexCapacity LEVELS ORDERS)
        (book.restoreLevel (Logical.levelState ORDERS side level)) fun book' ↦ ∃ place' views',
      book'.instrument = book.instrument ∧ BookRep book' place' views' ∧
      (∀ s, s ≠ side → views' s = views s) ∧
      (views' side).map LevelView.toLevel = (views side).map LevelView.toLevel ++ [level] ∧
      ∀ l x, Live views' l x → Live views l x ∨ x ∈ level.orders := by
  have hprice : ∀ v ∈ views side, v.price ≠ level.price := fun v hv ↦
    SortedIndex.before_ne (hlast v hv)
  obtain ⟨handle, sorted, pre, post, hinsert, hwrite, hviews, hpre, hpost, hsides, hlive⟩ :=
    h.sides.openLevel hprice hlen
  obtain rfl : post = [] := by
    cases post with
    | nil => rfl
    | cons v post =>
      have hbefore := hlast v (by simp [hviews])
      have hafter := hpost v (by simp)
      rw [SortedIndex.before_asymm hbefore] at hafter
      simp at hafter
  rw [List.append_nil] at hviews
  have hindex : IndexRep place ((book.setSideIndex side sorted).setSideLevels side
      ((book.sideLevels side).setIfInBounds handle (some (PriceLevel.new ORDERS level.price)))).index
      (Live (Function.update views side
        (pre ++ ⟨level.price, handle, [], List.range ORDERS⟩ :: []))) := by
    rw [OrderBook.index_setSideLevels, OrderBook.index_setSideIndex]
    exact h.index.congr hlive
  have hinsert' : (book.sideIndex (Logical.levelState ORDERS side level).side).insert
      (Logical.levelState ORDERS side level).price
      (descending (Logical.levelState ORDERS side level).side) = .ok (some (handle, sorted)) := hinsert
  have hwrite' : Run.write (book.sideLevels (Logical.levelState ORDERS side level).side) handle
      (some (PriceLevel.new ORDERS (Logical.levelState ORDERS side level).price)) = _ := hwrite
  unfold OrderBook.restoreLevel
  simp only [hinsert', Run.ok_bind, hwrite', take_levelState side hlevel.length_le]
  obtain ⟨error, hrestore, hlarge⟩ | ⟨book', hrestore, place', view', hinstrument, hsides', hindex',
      hprice', hnodes, hnew⟩ :=
    restoreOrders_spec hcap level.price level.orders hsides hindex (Function.update_self ..)
      (by simpa using hlevel.length_le) hlevel.quantity_pos hids fun order horder l x hl ↦
        habsent order horder l x ((hlive l x).mp hl)
  · exact .inl ⟨error, hrestore, hlarge⟩
  rw [Function.update_idem] at hsides' hindex' hnew
  refine .inr ⟨book', hrestore, place', _, by simpa using hinstrument, ⟨hsides', ?_, hindex'⟩, ?_, ?_, ?_⟩
  · intro s v hv
    by_cases hs : s = side
    · subst hs
      rw [Function.update_self] at hv
      simp only [List.mem_append, List.mem_singleton] at hv
      rcases hv with hv | rfl
      · exact h.occupied s v (by rw [hviews]; exact hv)
      · intro hnil
        rw [hnil] at hnodes
        exact hlevel.nonempty (by simpa using hnodes.symm)
    · rw [Function.update_of_ne hs] at hv
      exact h.occupied s v hv
  · exact fun s hs ↦ Function.update_of_ne hs _ _
  · rw [Function.update_self, List.map_append, hviews]
    have htoLevel : view'.toLevel = level := by
      unfold LevelView.toLevel
      rw [hnodes, hprice']
      rfl
    simp [htoLevel]
  · intro l x hl
    rcases hnew l x hl with hl | hx
    · exact .inl ((hlive l x).mp hl)
    · exact .inr hx

/-- Restoring the levels of one side, in order. -/
theorem BookRep.restoreLevels (hcap : indexCapacity LEVELS ORDERS ≤ 2 ^ 63) (side : Side)
    (levels : List Logical.Level) (h : BookRep book place views)
    (hlevels : ∀ level ∈ levels, level.Restorable ORDERS)
    (hsorted : ((views side).map LevelView.toLevel ++ levels).Pairwise fun a b ↦
      SortedIndex.before (descending side) a.price b.price = true)
    (hlen : (views side).length + levels.length ≤ LEVELS)
    (hids : ((Logical.entries side levels).map fun entry ↦ entry.2.2.id).Nodup)
    (habsent : ∀ entry ∈ Logical.entries side levels, ∀ l x, Live views l x → x.id ≠ entry.2.2.id) :
    Run.Builds (2 ^ 32 < indexCapacity LEVELS ORDERS)
        (OrderBook.restoreLevels (levels.map (Logical.levelState ORDERS side)) book) fun book' ↦
          ∃ place' views',
      book'.instrument = book.instrument ∧ BookRep book' place' views' ∧
      (∀ s, s ≠ side → views' s = views s) ∧
      (views' side).map LevelView.toLevel = (views side).map LevelView.toLevel ++ levels ∧
      ∀ l x, Live views' l x → Live views l x ∨ ∃ entry ∈ Logical.entries side levels, entry.2.2 = x := by
  induction levels generalizing book place views with
  | nil =>
    exact .inr ⟨book, rfl, place, views, rfl, h, fun _ _ ↦ rfl, by simp, fun l x hl ↦ .inl hl⟩
  | cons level levels ih =>
    have hentries : Logical.entries side (level :: levels) =
        (level.orders.map fun order ↦ (side, level.price, order)) ++ Logical.entries side levels :=
      List.flatMap_cons
    rw [hentries, List.map_append, List.map_map] at hids
    rw [hentries] at habsent
    have hhead := List.Nodup.of_append_left hids
    have hdisjoint := List.disjoint_of_nodup_append hids
    have hmem (order : Logical.Order) (horder : order ∈ level.orders) :
        (side, level.price, order) ∈ (level.orders.map fun order ↦ (side, level.price, order)) ++
          Logical.entries side levels :=
      List.mem_append_left _ (List.mem_map.mpr ⟨order, horder, rfl⟩)
    rw [List.length_cons] at hlen
    have hlast : ∀ v ∈ views side,
        SortedIndex.before (descending side) v.price level.price = true := fun v hv ↦
      (List.pairwise_append.mp hsorted).2.2 v.toLevel (List.mem_map.mpr ⟨v, hv, rfl⟩) level (by simp)
    rw [List.map_cons, OrderBook.restoreLevels]
    obtain ⟨error, hrestore, hlarge⟩ | ⟨book₁, hrestore, place₁, views₁, hinstrument₁, hrep₁, hsame₁,
        hside₁, hlive₁⟩ :=
      h.restoreLevel hcap (hlevels level (by simp)) hlast (by omega) hhead
        fun order horder l x hl ↦ habsent _ (hmem order horder) l x hl
    · rw [hrestore]
      exact .inl ⟨error, rfl, hlarge⟩
    rw [hrestore]
    have hlen₁ : (views₁ side).length = (views side).length + 1 := by
      simpa using congrArg List.length hside₁
    have hsorted₁ : ((views₁ side).map LevelView.toLevel ++ levels).Pairwise fun a b ↦
        SortedIndex.before (descending side) a.price b.price = true := by
      rw [hside₁, List.append_assoc]
      exact hsorted
    have habsent₁ : ∀ entry ∈ Logical.entries side levels, ∀ l x, Live views₁ l x →
        x.id ≠ entry.2.2.id := by
      intro entry hentry l x hl
      rcases hlive₁ l x hl with hl | hx
      · exact habsent entry (List.mem_append_right _ hentry) l x hl
      · intro heq
        exact hdisjoint (List.mem_map.mpr ⟨x, hx, rfl⟩)
          (List.mem_map.mpr ⟨entry, hentry, heq.symm⟩)
    obtain ⟨error, hrestores, hlarge⟩ | ⟨book', hrestores, place', views', hinstrument, hrep, hsame,
        hside, hlive⟩ :=
      ih hrep₁ (fun l hl ↦ hlevels l (List.mem_cons_of_mem _ hl)) hsorted₁ (by omega)
        (List.Nodup.of_append_right hids) habsent₁
    · exact .inl ⟨error, hrestores, hlarge⟩
    refine .inr ⟨book', hrestores, place', views', hinstrument.trans hinstrument₁, hrep, ?_, ?_, ?_⟩
    · intro s hs
      rw [hsame s hs, hsame₁ s hs]
    · rw [hside, hside₁, List.append_assoc, List.singleton_append]
    · intro l x hl
      rw [hentries]
      rcases hlive l x hl with hl | ⟨entry, hentry, rfl⟩
      · rcases hlive₁ l x hl with hl | hx
        · exact .inl hl
        · exact .inr ⟨_, hmem x hx, rfl⟩
      · exact .inr ⟨entry, List.mem_append_right _ hentry, rfl⟩

end Restoring

theorem bookOf_state {book : Logical.Book} (h : book.Restorable LEVELS ORDERS) :
    Logical.bookOf (book.state LEVELS ORDERS) = book := by
  unfold Logical.bookOf
  rw [take_state_bids (h.length_le .buy), take_state_asks (h.length_le .sell)]
  have hbids : (book.bids.map (Logical.levelState ORDERS .buy)).map Logical.levelOf = book.bids :=
    map_levelState (h.level .buy)
  have hasks : (book.asks.map (Logical.levelState ORDERS .sell)).map Logical.levelOf = book.asks :=
    map_levelState (h.level .sell)
  rw [hbids, hasks]
  rfl

/-- The state of a restorable book restores to a book that represents it, if at all. -/
theorem OrderBook.fromState_builds (hcap : indexCapacity LEVELS ORDERS ≤ 2 ^ 63) {logical : Logical.Book}
    (h : logical.Restorable LEVELS ORDERS) :
    Run.Builds (2 ^ 32 < indexCapacity LEVELS ORDERS)
      (OrderBook.fromState logical.instrument (logical.state LEVELS ORDERS))
      fun book ↦ book.Represents logical ∧ book.instrument = logical.instrument := by
  have hids := h.ids
  unfold Logical.Book.entries at hids
  rw [List.map_append] at hids
  have hsortedBids : logical.bids.Pairwise fun a b ↦
      SortedIndex.before (descending .buy) a.price b.price = true := h.sorted .buy
  have hsortedAsks : logical.asks.Pairwise fun a b ↦
      SortedIndex.before (descending .sell) a.price b.price = true := h.sorted .sell
  have hlenBids : logical.bids.length ≤ LEVELS := h.length_le .buy
  have hlenAsks : logical.asks.length ≤ LEVELS := h.length_le .sell
  unfold OrderBook.fromState
  have hsame : ¬ (logical.state LEVELS ORDERS).instrument ≠ logical.instrument := by
    simp [Logical.Book.state]
  rw [if_neg hsame, validateState_of_restorable h, take_state_bids (h.length_le .buy),
    take_state_asks (h.length_le .sell)]
  obtain ⟨error, hrestore₁, hlarge⟩ | ⟨book₁, hrestore₁, place₁, views₁, hinstrument₁, hrep₁, hsame₁,
      hside₁, hlive₁⟩ :=
    (BookRep.new logical.instrument).restoreLevels hcap .buy logical.bids (h.level .buy)
      (by simpa using hsortedBids) (by simpa using hlenBids) (List.Nodup.of_append_left hids)
      fun entry _ l x hl ↦ absurd hl live_nil
  · simp only [Run.ok_bind, hrestore₁]
    exact .inl ⟨error, rfl, hlarge⟩
  simp only [Run.ok_bind, hrestore₁]
  have hsell : views₁ .sell = [] := hsame₁ .sell (by decide)
  obtain ⟨error, hrestore₂, hlarge⟩ | ⟨book₂, hrestore₂, place₂, views₂, hinstrument₂, hrep₂, hsame₂,
      hside₂, _⟩ :=
    hrep₁.restoreLevels hcap .sell logical.asks (h.level .sell)
      (by rw [hsell]; simpa using hsortedAsks) (by rw [hsell]; simpa using hlenAsks)
      (List.Nodup.of_append_right hids) (by
        intro entry hentry l x hl heq
        rcases hlive₁ l x hl with hl | ⟨entry', hentry', rfl⟩
        · exact absurd hl live_nil
        · exact List.disjoint_of_nodup_append hids (List.mem_map.mpr ⟨entry', hentry', rfl⟩)
            (List.mem_map.mpr ⟨entry, hentry, heq.symm⟩))
  · exact .inl ⟨error, hrestore₂, hlarge⟩
  have hinstrument : book₂.instrument = logical.instrument := hinstrument₂.trans hinstrument₁
  refine .inr ⟨book₂, hrestore₂, ⟨place₂, views₂, hrep₂, ?_⟩, hinstrument⟩
  unfold Views.toBook
  rw [hinstrument, hside₂, hsell, hsame₂ .buy (by decide), hside₁]
  simp

/-- The state of a restorable book restores to a book that represents it. -/
theorem OrderBook.fromState_state (hcap : indexCapacity LEVELS ORDERS ≤ 2 ^ 32) {logical : Logical.Book}
    (h : logical.Restorable LEVELS ORDERS) :
    ∃ book : OrderBook LEVELS ORDERS, OrderBook.fromState logical.instrument
        (logical.state LEVELS ORDERS) = .ok (.ok book) ∧
      book.Represents logical ∧ book.instrument = logical.instrument :=
  (OrderBook.fromState_builds (addressable hcap) h).of_not hcap.not_gt

/-- Restoring is total: it never faults, and what it returns represents the given state. -/
theorem OrderBook.fromState_spec (hcap : indexCapacity LEVELS ORDERS ≤ 2 ^ 63)
    (instrument : InstrumentId) (state : BookState LEVELS ORDERS) :
    ∃ result, OrderBook.fromState instrument state = .ok result ∧
      ∀ book, result = .ok book → ∃ logical : Logical.Book, state = logical.state LEVELS ORDERS ∧
        logical.Restorable LEVELS ORDERS ∧ logical.instrument = instrument ∧
        book.Represents logical := by
  by_cases hinstrument : state.instrument = instrument
  swap
  · refine ⟨.error .instrument, ?_, by simp⟩
    unfold OrderBook.fromState
    rw [if_pos hinstrument]
  obtain ⟨validated, hvalidated⟩ := validateState_returns state
  cases validated with
  | error e =>
    refine ⟨.error e, ?_, by simp⟩
    unfold OrderBook.fromState
    rw [if_neg (by simpa using hinstrument), hvalidated]
    rfl
  | ok _ =>
    obtain ⟨hstate, hrestorable⟩ := restorable_of_validateState hvalidated
    have hbook : (Logical.bookOf state).instrument = instrument := hinstrument
    have hbuilds := OrderBook.fromState_builds hcap hrestorable
    rw [← hstate, hbook] at hbuilds
    obtain ⟨error, hfrom, _⟩ | ⟨book, hfrom, hrep, _⟩ := hbuilds
    · exact ⟨.error error, hfrom, by simp⟩
    · refine ⟨.ok book, hfrom, ?_⟩
      rintro book' hbook'
      obtain rfl := Except.ok.inj hbook'
      exact ⟨_, hstate, hrestorable, hbook, hrep⟩

end DeterministicExchange.Book
