import DeterministicExchange.Book.Atomicity
import DeterministicExchange.Model.Levels

/-!
# The reference book and the order book

The reference book mirrors a logical book when both keep the same levels on each side, the
reference book in no particular order. Then each of its operations gives the answer of the logical
book and mirrors its outcome. The order book stores a logical book, so both books answer every
sequence of commands alike.
-/

namespace DeterministicExchange.Model

open Machine DeterministicExchange.Book

/-- Both books keep the same levels, each with the same queue. -/
def Mirrors (model : ModelBook) (logical : Logical.Book) : Prop :=
  ∀ side, (model.side side).Perm (logical.side side)

/-- The reference book as a logical book whose levels are not sorted. -/
def ModelBook.arranged (model : ModelBook) (instrument : InstrumentId) : Logical.Book :=
  ⟨instrument, model.bids, model.asks⟩

variable {model : ModelBook} {logical : Logical.Book} {side : Side} {price : PriceTicks}
  {id : OrderId} {LEVELS ORDERS : ℕ}

namespace Mirrors

theorem setSide (h : Mirrors model logical) {levels sorted : ModelLevels} (hperm : levels.Perm sorted) :
    Mirrors (model.setSide side levels) (logical.setSide side sorted) := by
  intro side'
  cases side <;> cases side' <;> first | exact hperm | exact h .buy | exact h .sell

theorem distinct (h : Mirrors model logical) (horderly : logical.Orderly) (side : Side) :
    Distinct (model.side side) :=
  (Distinct.of_sorted (horderly.sorted side)).perm (h side)

theorem entries (h : Mirrors model logical) (instrument : InstrumentId) :
    (model.arranged instrument).entries.Perm logical.entries := by
  have hside (side : Side) : (Logical.entries side (model.side side)).Perm
      (Logical.entries side (logical.side side)) := (h side).flatMap_right _
  exact (hside .buy).append (hside .sell)

theorem ids (h : Mirrors model logical) (horderly : logical.Orderly) (instrument : InstrumentId) :
    ((model.arranged instrument).entries.map fun entry ↦ entry.2.2.id).Nodup :=
  ((h.entries instrument).map _).nodup_iff.mpr horderly.ids

/-- Both books hold the same ids. -/
theorem holds (h : Mirrors model logical) (id : OrderId) :
    ((model.bids ++ model.asks).any fun level ↦ level.orders.any fun resting ↦ resting.id = id) =
      (logical.find id).isSome := by
  have hiff : ((model.bids ++ model.asks).any fun level ↦ level.orders.any fun resting ↦
      resting.id = id) = true ↔ (logical.find id).isSome = true := by
    rw [List.any_eq_true, Option.isSome_iff_ne_none, ne_eq, Logical.Book.find_eq_none]
    push Not
    constructor
    · rintro ⟨level, hlevel, hany⟩
      obtain ⟨order, horder, hid⟩ := List.any_eq_true.mp hany
      have hmem (side : Side) (hlevel : level ∈ model.side side) :
          (side, level.price, order) ∈ logical.entries :=
        Logical.mem_book_entries.mpr ⟨level, (h side).mem_iff.mp hlevel, rfl, horder⟩
      rcases List.mem_append.mp hlevel with hlevel | hlevel
      · exact ⟨_, hmem .buy hlevel, by simpa using hid⟩
      · exact ⟨_, hmem .sell hlevel, by simpa using hid⟩
    · rintro ⟨entry, hentry, hid⟩
      obtain ⟨level, hlevel, _, horder⟩ := Logical.mem_book_entries.mp hentry
      refine ⟨level, ?_, List.any_eq_true.mpr ⟨entry.2.2, horder, by simpa using hid⟩⟩
      have hlevel := (h entry.1).mem_iff.mpr hlevel
      cases hside : entry.1 with
      | buy =>
        rw [hside] at hlevel
        exact List.mem_append_left _ hlevel
      | sell =>
        rw [hside] at hlevel
        exact List.mem_append_right _ hlevel
  exact Bool.eq_iff_iff.mpr hiff

/-! ## Submissions -/

theorem crossingPrices (h : Mirrors model logical) (horderly : logical.Orderly) (order : NewOrder) :
    Model.crossingPrices order (model.side order.side.opposite) =
      (reached order.side order.price (logical.side order.side.opposite)).map Logical.Level.price :=
  crossingPrices_eq (h order.side.opposite) (horderly.sorted order.side.opposite)

/-- A taker reaches some price as soon as it would trade with the best level. -/
theorem reached_ne_nil (side : Side) (limit : PriceTicks) (logical : Logical.Book) :
    (reached side limit (logical.side side.opposite)).map Logical.Level.price ≠ [] ↔
      logical.wouldTrade side limit = true := by
  unfold Logical.Book.wouldTrade
  cases logical.side side.opposite with
  | nil => simp [reached]
  | cons level levels =>
    cases hcrosses : crosses side limit level.price with
    | true => simp [reached_cons hcrosses, hcrosses]
    | false => simp [reached_of_stop hcrosses, hcrosses]

/-- The check of the own levels is the one for resting. -/
theorem restingReject (h : Mirrors model logical) (horderly : logical.Orderly) (side : Side)
    (price : PriceTicks) {α : Type} (a : α) :
    (match (model.side side).find? fun level ↦ level.price = price with
      | some level => return if level.orders.length = ORDERS then .error .priceLevelOrderCapacity else .ok a
      | none => return if (model.side side).length = LEVELS then .error .priceLevelCapacity else .ok a :
        Run (Except RejectReason α)) =
      .ok (match logical.restingReject LEVELS ORDERS side price with
        | some reason => .error reason
        | none => .ok a) := by
  have hqueue := queueAt_perm (Distinct.of_sorted (horderly.sorted side)) (h side) price
  unfold Logical.Book.restingReject
  rw [← hqueue, (h side).length_eq]
  unfold Logical.queueAt
  cases (model.side side).find? fun level ↦ level.price = price with
  | none =>
    dsimp only [Option.map_none]
    split <;> rfl
  | some level =>
    dsimp only [Option.map_some]
    split <;> rfl

/-- The reference book plans what the logical book accepts. -/
theorem plan (h : Mirrors model logical) (horderly : logical.Orderly) {order : NewOrder}
    (hinstrument : order.instrumentId = logical.instrument) (capacity : ℕ) :
    model.plan order capacity LEVELS ORDERS = .ok ((logical.submit LEVELS ORDERS capacity order).map
      fun _ ↦ (reached order.side order.price
        (logical.side order.side.opposite)).map Logical.Level.price) := by
  have hsimulate : simulate (model.side order.side.opposite)
      ((reached order.side order.price (logical.side order.side.opposite)).map Logical.Level.price)
      order.quantity 0 =
      .ok ((Logical.matchLevels order.side order.price (logical.side order.side.opposite) order.quantity).2.2,
        0 + (Logical.matchLevels order.side order.price (logical.side order.side.opposite)
          order.quantity).1.length) :=
    simulate_eq (fun level hlevel ↦ (h.distinct horderly _).find? ((h _).mem_iff.mpr hlevel)) _ _
  unfold ModelBook.plan Logical.Book.submit Logical.Book.admissionReject
  dsimp only
  rw [h.crossingPrices horderly order, h.holds order.orderId, if_neg (not_not.mpr hinstrument)]
  by_cases hprice : order.price.val ≤ 0
  · rw [if_pos hprice, if_pos hprice]
    rfl
  rw [if_neg hprice, if_neg hprice]
  by_cases hquantity : order.quantity.val = 0
  · rw [if_pos hquantity, if_pos hquantity]
    rfl
  rw [if_neg hquantity, if_neg hquantity]
  by_cases hfind : (logical.find order.orderId).isSome
  · rw [if_pos hfind, if_pos hfind]
    rfl
  rw [if_neg hfind, if_neg hfind]
  by_cases hpost : order.timeInForce = .postOnly ∧ logical.wouldTrade order.side order.price
  · rw [if_pos ⟨hpost.1, (reached_ne_nil _ _ _).mpr hpost.2⟩, if_pos hpost]
    rfl
  rw [if_neg fun hboth ↦ hpost ⟨hboth.1, (reached_ne_nil _ _ _).mp hboth.2⟩, if_neg hpost, hsimulate,
    Run.ok_bind]
  unfold Logical.Book.trade
  dsimp only
  rw [Nat.zero_add]
  by_cases hcapacity : capacity < (Logical.matchLevels order.side order.price
      (logical.side order.side.opposite) order.quantity).1.length
  · rw [if_pos hcapacity, if_pos hcapacity]
    rfl
  rw [if_neg hcapacity, if_neg hcapacity]
  unfold Logical.Book.remainderOutcome
  cases order.timeInForce with
  | fok =>
    dsimp only
    split <;> rfl
  | ioc => rfl
  | gtc | postOnly =>
    dsimp only
    split
    · refine (h.restingReject horderly order.side order.price _).trans ?_
      cases logical.restingReject LEVELS ORDERS order.side order.price <;> rfl
    · rfl

/-- What the reference book does with the remainder of a walk. -/
theorem remainder {book : Logical.Book} {order : NewOrder} {left resting discarded : Quantity}
    (houtcome : book.remainderOutcome LEVELS ORDERS order left = .ok (resting, discarded)) :
    ((0 < left.val ∧ (order.timeInForce = .gtc ∨ order.timeInForce = .postOnly)) ↔ 0 < resting.val) ∧
      (if ¬ (0 < left.val ∧ (order.timeInForce = .gtc ∨ order.timeInForce = .postOnly)) ∧
          order.timeInForce = .ioc then ((0 : Quantity), left) else (left, 0)) = (resting, discarded) := by
  unfold Logical.Book.remainderOutcome at houtcome
  cases htif : order.timeInForce with
  | fok =>
    rw [htif] at houtcome
    dsimp only at houtcome
    split at houtcome
    · cases houtcome
    · next hleft =>
      obtain ⟨rfl, rfl⟩ := Prod.mk.inj (Except.ok.inj houtcome)
      have hzero : left = 0 := Fin.ext (Nat.eq_zero_of_not_pos hleft)
      subst hzero
      simp
  | ioc =>
    rw [htif] at houtcome
    obtain ⟨rfl, rfl⟩ := Prod.mk.inj (Except.ok.inj houtcome)
    simp
  | gtc | postOnly =>
    rw [htif] at houtcome
    dsimp only at houtcome
    split at houtcome
    · split at houtcome
      · cases houtcome
      · obtain ⟨rfl, rfl⟩ := Prod.mk.inj (Except.ok.inj houtcome)
        simp
    · next hleft =>
      obtain ⟨rfl, rfl⟩ := Prod.mk.inj (Except.ok.inj houtcome)
      have hzero : left = 0 := Fin.ext (Nat.eq_zero_of_not_pos hleft)
      subst hzero
      simp

theorem settled (h : Mirrors model logical) (horderly : logical.Orderly) {order : NewOrder}
    {makerLevels rest : ModelLevels} (hrest : makerLevels.Perm rest) {left resting : Quantity} {rests : Prop}
    [Decidable rests] (hrests : rests ↔ 0 < resting.val) (hleft : 0 < resting.val → left = resting) :
    Mirrors (if rests then (model.setSide order.side.opposite makerLevels).setSide order.side
        (pushRow order.price ⟨order.orderId, order.accountId, left, order.sequence⟩
          ((model.setSide order.side.opposite makerLevels).side order.side))
      else model.setSide order.side.opposite makerLevels) (logical.settleWalk order rest resting) := by
  have htraded : Mirrors (model.setSide order.side.opposite makerLevels)
      (logical.setSide order.side.opposite rest) := h.setSide hrest
  have hside : (logical.setSide order.side.opposite rest).side order.side = logical.side order.side := by
    cases order.side <;> rfl
  have hsorted := horderly.sorted order.side
  rw [← hside] at hsorted
  unfold Logical.Book.settleWalk
  by_cases hpos : 0 < resting.val
  · rw [if_pos (hrests.mpr hpos), if_pos hpos, hleft hpos]
    exact htraded.setSide (pushRow_perm hsorted (htraded order.side) order.price _)
  · rw [if_neg fun hr ↦ hpos (hrests.mp hr), if_neg hpos]
    exact htraded

/-- What the reference book answers to an accepted submission. -/
def submitted (outcome : MatchSummary × List Logical.Fill × Logical.Book) :
    (OrderState × Quantity × Quantity × Quantity × List ModelFill) × Logical.Book :=
  ((outcome.1.state, outcome.1.filledQuantity, outcome.1.restingQuantity, outcome.1.discardedQuantity,
    outcome.2.1), outcome.2.2)

/-- An accepted submission walks, and settles its remainder. -/
theorem walk_of_submit {order : NewOrder} {capacity : ℕ}
    {outcome : MatchSummary × List Logical.Fill × Logical.Book}
    (hspec : logical.submit LEVELS ORDERS capacity order = .ok outcome) :
    ∃ fills rest left resting discarded,
      Logical.matchLevels order.side order.price (logical.side order.side.opposite) order.quantity =
        (fills, rest, left) ∧
      logical.remainderOutcome LEVELS ORDERS order left = .ok (resting, discarded) ∧
      outcome = (Logical.Book.matchSummary order resting discarded fills.length, fills,
        logical.settleWalk order rest resting) := by
  unfold Logical.Book.submit at hspec
  split at hspec
  · cases hspec
  · unfold Logical.Book.trade at hspec
    dsimp only at hspec
    split at hspec
    · cases hspec
    · split at hspec
      · cases hspec
      · next resting discarded houtcome =>
        exact ⟨_, _, _, resting, discarded, rfl, houtcome, (Except.ok.inj hspec).symm⟩

theorem submit (h : Mirrors model logical) (horderly : logical.Orderly) {order : NewOrder}
    (hinstrument : order.instrumentId = logical.instrument) (capacity : ℕ) :
    Implements Mirrors model ((logical.submit LEVELS ORDERS capacity order).map submitted)
      (model.submit order capacity LEVELS ORDERS) := by
  have hplan : model.plan order capacity LEVELS ORDERS = _ := h.plan horderly hinstrument capacity
  cases hspec : logical.submit LEVELS ORDERS capacity order with
  | error reason =>
    refine .reject rfl ?_
    unfold ModelBook.submit
    rw [hplan, hspec]
    rfl
  | ok outcome =>
    obtain ⟨fills, rest, left, resting, discarded, hwalk, houtcome, rfl⟩ := walk_of_submit hspec
    have hmatched := Logical.matchLevels_matched order.side order.price
      (horderly.nonempty order.side.opposite) order.quantity
    have hfill : ∃ makerLevels, fillLevels
        ((reached order.side order.price (logical.side order.side.opposite)).map Logical.Level.price)
        (model.side order.side.opposite) order.quantity [] = .ok (makerLevels, _, _) ∧ _ :=
      fillLevels_eq (Distinct.of_sorted (horderly.sorted order.side.opposite)) (h order.side.opposite) _ _
    rw [hwalk] at hmatched hfill
    obtain ⟨makerLevels, hfill, hrest⟩ := hfill
    have hle : left.val ≤ order.quantity.val := hmatched.left_le
    obtain ⟨hsum, _⟩ := Logical.Book.remainderOutcome_ok houtcome
    obtain ⟨hrests, hparts⟩ := remainder houtcome
    have hleft : 0 < resting.val → left = resting := by
      intro hpos
      rw [if_neg fun hnot ↦ hnot.1 (hrests.mpr hpos)] at hparts
      exact congrArg Prod.fst hparts
    refine .accept _ rfl ?_ (h.settled horderly hrest hrests hleft)
    unfold ModelBook.submit
    rw [hplan, hspec]
    simp only [Except.map, Run.ok_bind, hfill, hparts]
    rw [Run.subWord_of_le (by omega), Run.ok_bind, Run.subWord_of_le (by rw [Unsigned.monus_val]; omega),
      Run.ok_bind]
    rfl

/-! ## Cancellations -/

theorem eraseOrder (h : Mirrors model logical) (side : Side) (id : OrderId) :
    (Logical.eraseOrder id (model.side side)).Perm (Logical.eraseOrder id (logical.side side)) :=
  ((h side).map _).filter _

theorem without (h : Mirrors model logical) (hfind : logical.find id = none) (side : Side) :
    Logical.Without id (model.side side) := by
  intro level hlevel order horder
  exact Logical.Book.find_eq_none.mp hfind (side, level.price, order)
    (Logical.mem_book_entries.mpr ⟨level, (h side).mem_iff.mp hlevel, rfl, horder⟩)

/-- The reference book split at an order that the logical book finds. -/
structure Located (model : ModelBook) (side : Side) (price : PriceTicks) (order : ModelOrder)
    (pre post : ModelLevels) (xs ys : List ModelOrder) : Prop where
  side_eq : model.side side = pre ++ ⟨price, xs ++ order :: ys⟩ :: post
  queue : ∀ x ∈ xs ++ ys, x.id ≠ order.id
  levels : Logical.Without order.id (pre ++ post)
  opposite : Logical.Without order.id (model.side side.opposite)
  nonempty : ∀ level ∈ pre ++ post, level.orders ≠ []

theorem located (h : Mirrors model logical) (horderly : logical.Orderly) {order : ModelOrder}
    (hfind : logical.find id = some (side, price, order)) :
    ∃ pre post xs ys, Located model side price order pre post xs ys := by
  obtain ⟨hmem, _⟩ := Logical.Book.mem_of_find hfind
  have hids := h.ids horderly logical.instrument
  have harranged : (side, price, order) ∈ (model.arranged logical.instrument).entries :=
    (h.entries logical.instrument).mem_iff.mpr hmem
  have hside (side : Side) : (model.arranged logical.instrument).side side = model.side side := by
    cases side <;> rfl
  obtain ⟨pre, post, xs, ys, hsplit⟩ := Logical.Book.exists_splitAt hids harranged
  have hside_eq := hsplit.side_eq
  rw [hside] at hside_eq
  refine ⟨pre, post, xs, ys, hside_eq, hsplit.queue, hsplit.levels, ?_, ?_⟩
  · intro level hlevel other hother hid
    have hentry : (side.opposite, level.price, other) ∈ (model.arranged logical.instrument).entries := by
      refine Logical.mem_book_entries.mpr ⟨level, ?_, rfl, hother⟩
      rw [hside]
      exact hlevel
    have heq := congrArg Prod.fst (List.inj_on_of_nodup_map hids hentry harranged hid)
    cases side <;> cases heq
  · intro level hlevel
    refine horderly.nonempty side level ((h side).mem_iff.mp ?_)
    rw [hside_eq]
    simp only [List.mem_append, List.mem_cons] at hlevel ⊢
    tauto

theorem Located.erase {order : ModelOrder} {pre post : ModelLevels} {xs ys : List ModelOrder}
    (h : Located model side price order pre post xs ys) :
    Logical.eraseOrder order.id (model.side side) = pre ++
      (Logical.Level.kept ⟨price, xs ++ ys⟩ ++ post) := by
  rw [h.side_eq]
  exact Logical.eraseOrder_split h.queue h.levels h.nonempty

theorem Located.cancel {order : ModelOrder} {pre post : ModelLevels} {xs ys : List ModelOrder}
    (h : Located model side price order pre post xs ys) {cancel : CancelOrder}
    (hid : order.id = cancel.orderId) :
    model.cancel cancel =
      if order.accountId ≠ cancel.accountId then (.error .notOrderOwner, model)
      else (.ok (order.id, order.accountId, order.quantity),
        model.setSide side (Logical.eraseOrder order.id (model.side side))) := by
  have hpre : Logical.Without cancel.orderId pre :=
    fun level hlevel ↦ hid ▸ h.levels level (List.mem_append_left _ hlevel)
  have hxs : ∀ x ∈ xs, x.id ≠ cancel.orderId :=
    fun x hx ↦ hid ▸ h.queue x (List.mem_append_left _ hx)
  have hcancel : cancelFrom cancel (model.side side) = some (
      if order.accountId ≠ cancel.accountId then (.error .notOrderOwner, model.side side)
      else (.ok (order.id, order.accountId, order.quantity),
        Logical.eraseOrder order.id (model.side side))) := by
    rw [h.erase, h.side_eq, cancelFrom_append cancel hpre, cancelFrom_cons cancel hid hxs]
    split <;> rfl
  have hanswer {answer : Except RejectReason (OrderId × AccountId × Quantity)} {levels : ModelLevels}
      (hcancel : cancelFrom cancel (model.side side) = some (answer, levels)) :
      model.cancel cancel = (answer, model.setSide side levels) := by
    unfold ModelBook.cancel
    cases side with
    | buy =>
      have hbids : cancelFrom cancel model.bids = some (answer, levels) := hcancel
      rw [hbids]
      rfl
    | sell =>
      have hbids : cancelFrom cancel model.bids = none := cancelFrom_of_without cancel (hid ▸ h.opposite)
      have hasks : cancelFrom cancel model.asks = some (answer, levels) := hcancel
      rw [hbids, hasks]
      rfl
  by_cases howner : order.accountId ≠ cancel.accountId
  · rw [if_pos howner] at hcancel ⊢
    have hself : model.setSide side (model.side side) = model := by cases side <;> rfl
    rw [hanswer hcancel, hself]
  · rw [if_neg howner] at hcancel ⊢
    exact hanswer hcancel

/-- What the reference book answers to a cancellation. -/
def cancelled (outcome : CancelledOrder × Logical.Book) :
    (OrderId × AccountId × Quantity) × Logical.Book :=
  ((outcome.1.orderId, outcome.1.accountId, outcome.1.quantity), outcome.2)

theorem cancel (h : Mirrors model logical) (horderly : logical.Orderly) {cancel : CancelOrder}
    (hinstrument : cancel.instrumentId = logical.instrument) :
    Implements Mirrors model ((logical.cancel cancel).map cancelled) (.ok (model.cancel cancel)) := by
  unfold Logical.Book.cancel Logical.Book.owned
  rw [if_neg (not_not.mpr hinstrument)]
  cases hfind : logical.find cancel.orderId with
  | none =>
    refine .reject rfl ?_
    unfold ModelBook.cancel
    have hbids : cancelFrom cancel model.bids = none := cancelFrom_of_without cancel (h.without hfind .buy)
    have hasks : cancelFrom cancel model.asks = none := cancelFrom_of_without cancel (h.without hfind .sell)
    rw [hbids, hasks]
  | some found =>
    obtain ⟨side, price, order⟩ := found
    have hid : order.id = cancel.orderId := (Logical.Book.mem_of_find hfind).2
    obtain ⟨pre, post, xs, ys, hlocated⟩ := h.located horderly hfind
    rw [hlocated.cancel hid]
    by_cases howner : order.accountId ≠ cancel.accountId
    · rw [if_pos howner]
      exact .reject (by dsimp only; rw [if_pos howner]; rfl) rfl
    · rw [if_neg howner]
      refine .accept _ (by dsimp only; rw [if_neg howner]; rfl) rfl ?_
      rw [← hid]
      exact h.setSide (h.eraseOrder side order.id)

/-! ## Replacements -/

/-- The check of the opposing best price is the one of the logical book. -/
theorem wouldCross (h : Mirrors model logical) (horderly : logical.Orderly) (side : Side)
    (limit : PriceTicks) :
    (bestPrice side.opposite (model.side side.opposite)).any (fun best ↦ crosses side limit best) =
      logical.wouldTrade side limit := by
  have hlogical : logical.wouldTrade side limit = true ↔
      ∃ level ∈ logical.side side.opposite, crosses side limit level.price = true :=
    head?_crosses (horderly.sorted side.opposite)
  refine Bool.eq_iff_iff.mpr ((bestPrice_crosses side limit _).trans (Iff.trans ?_ hlogical.symm))
  constructor
  · rintro ⟨level, hlevel, hcrosses⟩
    exact ⟨level, (h side.opposite).mem_iff.mp hlevel, hcrosses⟩
  · rintro ⟨level, hlevel, hcrosses⟩
    exact ⟨level, (h side.opposite).mem_iff.mpr hlevel, hcrosses⟩

/-- Whether a row may move to a level depends on the queues at two prices. -/
theorem destinationReject_eq {levels pre post : ModelLevels} {oldPrice : PriceTicks} {queue : List ModelOrder}
    (hdistinct : Distinct levels) (hlevels : levels = pre ++ ⟨oldPrice, queue⟩ :: post) (price : PriceTicks) :
    destinationReject levels pre.length oldPrice price LEVELS ORDERS =
      .ok (match Logical.queueAt price levels with
        | some orders =>
          if orders.length = ORDERS ∧ price ≠ oldPrice then some .priceLevelOrderCapacity else none
        | none =>
          if levels.length = LEVELS ∧ (Logical.queueAt oldPrice levels).all (·.length ≠ 1) then
            some .priceLevelCapacity
          else none) := by
  have hold : (⟨oldPrice, queue⟩ : Logical.Level) ∈ levels := by
    rw [hlevels]
    exact List.mem_append_right _ List.mem_cons_self
  have hqueueAt {level : Logical.Level} (hmem : level ∈ levels) :
      Logical.queueAt level.price levels = some level.orders := by
    unfold Logical.queueAt
    rw [hdistinct.find? hmem]
    rfl
  have hindex {level : Logical.Level} {pre post : ModelLevels} (hsplit : levels = pre ++ level :: post) :
      levels.findIdx? (fun l ↦ l.price = level.price) = some pre.length := by
    rw [hsplit]
    refine findIdx?_price fun l hl heq ↦ ?_
    unfold Distinct at hdistinct
    rw [hsplit, List.map_append, List.map_cons] at hdistinct
    refine (List.nodup_cons.mp (List.nodup_middle.mp hdistinct)).1 ?_
    rw [← List.map_append]
    exact List.mem_map.mpr ⟨l, List.mem_append_left _ hl, heq⟩
  unfold destinationReject
  by_cases hexists : ∃ level ∈ levels, level.price = price
  · obtain ⟨dest, hdest, rfl⟩ := hexists
    obtain ⟨pre', post', hsplit⟩ := List.append_of_mem hdest
    have hany : levels.any (fun level ↦ level.price = dest.price) = true :=
      List.any_eq_true.mpr ⟨dest, hdest, decide_eq_true rfl⟩
    have hread : readAt levels pre'.length = .ok dest := by
      rw [hsplit]
      exact readAt_split
    have hsame : ¬ (pre'.length = pre.length ∧ dest.price = oldPrice) ↔ dest.price ≠ oldPrice := by
      constructor
      · intro hnot heq
        have hboth := hindex hsplit
        rw [heq, hindex hlevels] at hboth
        exact hnot ⟨(Option.some.inj hboth).symm, heq⟩
      · exact fun hne hboth ↦ hne hboth.2
    rw [if_pos hany, hindex hsplit, Run.expect_some, Run.ok_bind, hread, Run.ok_bind, hqueueAt hdest]
    simp only [hsame]
    rfl
  · have hany : ¬ levels.any (fun level ↦ level.price = price) = true := by
      rw [List.any_eq_true]
      rintro ⟨level, hlevel, hprice⟩
      exact hexists ⟨level, hlevel, of_decide_eq_true hprice⟩
    have hread : readAt levels pre.length = .ok ⟨oldPrice, queue⟩ := by
      rw [hlevels]
      exact readAt_split
    have hnone : Logical.queueAt price levels = none := by
      rw [Logical.queueAt_eq_none]
      exact fun level hlevel hprice ↦ hexists ⟨level, hlevel, hprice⟩
    rw [if_neg hany, hread, Run.ok_bind, hnone, hqueueAt hold]
    simp only [Option.all_some, decide_eq_true_eq]
    rfl

theorem findIn_of_without {levels : ModelLevels} (h : Logical.Without id levels) :
    findIn levels id = none := by
  unfold findIn
  rw [List.findIdx?_eq_none_iff]
  intro level hlevel
  rw [List.any_eq_false]
  exact fun order horder ↦ by simpa using h level hlevel order horder

theorem Located.findIn {order : ModelOrder} {pre post : ModelLevels} {xs ys : List ModelOrder}
    (h : Located model side price order pre post xs ys) :
    Model.findIn (model.side side) order.id = some pre.length := by
  unfold Model.findIn
  rw [h.side_eq]
  refine findIdx?_split ?_ ?_
  · intro level hlevel
    rw [List.any_eq_false]
    exact fun other hother ↦ by simpa using h.levels level (List.mem_append_left _ hlevel) other hother
  · exact List.any_eq_true.mpr ⟨order, List.mem_append_right _ List.mem_cons_self, decide_eq_true rfl⟩

theorem Located.locate {order : ModelOrder} {pre post : ModelLevels} {xs ys : List ModelOrder}
    (h : Located model side price order pre post xs ys) :
    model.locate order.id = some (side, pre.length) := by
  have hown := h.findIn
  unfold ModelBook.locate
  cases side with
  | buy =>
    have hbids : Model.findIn model.bids order.id = some pre.length := hown
    rw [hbids]
  | sell =>
    have hbids : Model.findIn model.bids order.id = none := findIn_of_without h.opposite
    have hasks : Model.findIn model.asks order.id = some pre.length := hown
    rw [hbids, hasks]

/-- Setting a row in place amends the order. -/
theorem Located.amend {order : ModelOrder} {pre post : ModelLevels} {xs ys : List ModelOrder}
    (h : Located model side price order pre post xs ys) (quantity : Quantity) :
    (model.side side).set pre.length
        ⟨price, (xs ++ order :: ys).set xs.length { order with quantity }⟩ =
      Logical.amendOrder order.id quantity (model.side side) := by
  rw [h.side_eq, set_split, set_split, Logical.amendOrder_split quantity h.queue h.levels]

/-- Taking a row out erases the order. -/
theorem Located.remove {order : ModelOrder} {pre post : ModelLevels} {xs ys : List ModelOrder}
    (h : Located model side price order pre post xs ys) :
    (if (xs ++ order :: ys).eraseIdx xs.length = [] then (model.side side).eraseIdx pre.length
      else (model.side side).set pre.length ⟨price, (xs ++ order :: ys).eraseIdx xs.length⟩) =
      Logical.eraseOrder order.id (model.side side) := by
  rw [h.erase, h.side_eq, eraseIdx_split, eraseIdx_split, set_split]
  unfold Logical.Level.kept
  split <;> rfl

theorem locate_of_absent (h : Mirrors model logical) (hfind : logical.find id = none) :
    model.locate id = none := by
  have hbids : Model.findIn model.bids id = none := findIn_of_without (h.without hfind .buy)
  have hasks : Model.findIn model.asks id = none := findIn_of_without (h.without hfind .sell)
  unfold ModelBook.locate
  rw [hbids, hasks]

theorem Located.queuePosition {order : ModelOrder} {pre post : ModelLevels} {xs ys : List ModelOrder}
    (h : Located model side price order pre post xs ys) :
    (xs ++ order :: ys).findIdx? (fun other ↦ other.id = order.id) = some xs.length :=
  findIdx?_split (fun x hx ↦ decide_eq_false (h.queue x (List.mem_append_left _ hx))) (decide_eq_true rfl)

theorem sorted_eraseOrder {descending : Bool} {sorted : ModelLevels} (id : OrderId)
    (hsorted : sorted.Pairwise fun a b ↦ SortedIndex.before descending a.price b.price = true) :
    (Logical.eraseOrder id sorted).Pairwise fun a b ↦
      SortedIndex.before descending a.price b.price = true := by
  refine List.Pairwise.filter _ ?_
  rw [List.pairwise_map]
  exact hsorted

/-- Moving an order to another queue of its side. -/
theorem moved (h : Mirrors model logical) (horderly : logical.Orderly) (side : Side) (id : OrderId)
    (price : PriceTicks) (order : ModelOrder) :
    Mirrors (model.setSide side (pushRow price order (Logical.eraseOrder id (model.side side))))
      ((logical.erase side id).append side price order) := by
  have hset : (logical.erase side id).append side price order = logical.setSide side
      (Logical.appendOrder (Book.descending side) price order
        (Logical.eraseOrder id (logical.side side))) := by
    cases side <;> rfl
  rw [hset]
  exact h.setSide (pushRow_perm (sorted_eraseOrder id (horderly.sorted side))
    (h.eraseOrder side id) price order)

/-- What the reference book answers to a replacement. -/
def replaced (outcome : ReplacedOrder × Logical.Book) : (Quantity × Bool) × Logical.Book :=
  ((outcome.1.oldQuantity, outcome.1.priorityLost), outcome.2)

theorem replace (h : Mirrors model logical) (horderly : logical.Orderly) {replace : ReplaceOrder}
    (hinstrument : replace.instrumentId = logical.instrument) (hprice : 0 < replace.price.val)
    (hquantity : 0 < replace.quantity.val) :
    Implements Mirrors model ((logical.replace LEVELS ORDERS replace).map replaced)
      (model.replace replace LEVELS ORDERS) := by
  unfold Logical.Book.replace Logical.Book.owned ModelBook.replace
  rw [if_neg (not_not.mpr hinstrument), if_neg (Int.not_le.mpr hprice), if_neg hquantity.ne']
  cases hfind : logical.find replace.orderId with
  | none =>
    rw [h.locate_of_absent hfind]
    exact .reject rfl rfl
  | some found =>
    obtain ⟨side, price, order⟩ := found
    have hid : order.id = replace.orderId := (Logical.Book.mem_of_find hfind).2
    obtain ⟨pre, post, xs, ys, hsplit⟩ := h.located horderly hfind
    have hlevel : readAt (model.side side) pre.length = .ok ⟨price, xs ++ order :: ys⟩ := by
      rw [hsplit.side_eq]
      exact readAt_split
    rw [← hid, hsplit.locate]
    dsimp only
    rw [hlevel, Run.ok_bind]
    dsimp only
    rw [hsplit.queuePosition, Run.expect_some, Run.ok_bind, readAt_split, Run.ok_bind]
    by_cases howner : order.accountId ≠ replace.accountId
    · rw [if_pos howner, if_pos howner]
      exact .reject rfl rfl
    rw [if_neg howner, if_neg howner]
    dsimp only
    rw [if_neg (Int.not_le.mpr hprice), if_neg hquantity.ne']
    by_cases hkeep : replace.price = price ∧ replace.quantity.val < order.quantity.val
    · rw [if_pos hkeep, if_pos hkeep]
      refine .accept _ rfl rfl (h.setSide ?_)
      rw [hsplit.amend replace.quantity]
      exact (h side).map _
    rw [if_neg hkeep, if_neg hkeep, h.wouldCross horderly]
    unfold Logical.Book.moveReject
    by_cases hcross : replace.price ≠ price ∧ logical.wouldTrade side replace.price = true
    · rw [if_pos hcross, if_pos hcross]
      exact .reject rfl rfl
    have hqueueAt := queueAt_perm (Distinct.of_sorted (horderly.sorted side)) (h side)
    rw [if_neg hcross, if_neg hcross, destinationReject_eq (h.distinct horderly side) hsplit.side_eq,
      Run.ok_bind, hqueueAt, hqueueAt, (h side).length_eq]
    have hmoved : Mirrors (model.setSide side (pushRow replace.price
          ⟨order.id, replace.accountId, replace.quantity, replace.sequence⟩
          (Logical.eraseOrder order.id (model.side side))))
        ((logical.erase side order.id).append side replace.price
          ⟨order.id, replace.accountId, replace.quantity, replace.sequence⟩) :=
      h.moved horderly side _ _ _
    rw [← hsplit.remove] at hmoved
    cases Logical.queueAt replace.price (logical.side side) with
    | some orders =>
      dsimp only
      by_cases hfull : orders.length = ORDERS ∧ replace.price ≠ price
      · rw [if_pos hfull]
        exact .reject rfl rfl
      · rw [if_neg hfull]
        exact .accept _ rfl rfl hmoved
    | none =>
      dsimp only
      by_cases hfull : (logical.side side).length = LEVELS ∧
          (Logical.queueAt price (logical.side side)).all (·.length ≠ 1) = true
      · rw [if_pos hfull]
        exact .reject rfl rfl
      · rw [if_neg hfull]
        exact .accept _ rfl rfl hmoved

end Mirrors

/-! ## Runs -/

/-- What a book answers to a command. -/
inductive BookAnswer where
  | submitted (answer :
      Except RejectReason (OrderState × Quantity × Quantity × Quantity × List ModelFill))
  | cancelled (answer : Except RejectReason (OrderId × AccountId × Quantity))
  | replaced (answer : Except RejectReason (Quantity × Bool))
  deriving DecidableEq

/-- A command on the reference book. -/
def ModelBook.answer (reportCapacity levelCap orderCap : ℕ) (model : ModelBook) :
    Command → Run (BookAnswer × ModelBook)
  | .newOrder order =>
    (model.submit order reportCapacity levelCap orderCap).map fun outcome ↦ (.submitted outcome.1, outcome.2)
  | .cancelOrder cancel => .ok (.cancelled (model.cancel cancel).1, (model.cancel cancel).2)
  | .replaceOrder replace =>
    (model.replace replace levelCap orderCap).map fun outcome ↦ (.replaced outcome.1, outcome.2)

/-- The fill that a report tells of. -/
def fillOf (report : ExecutionReport) : ModelFill := ⟨report.makerOrderId, report.price, report.quantity⟩

/-- A command on the order book, whose reports go to a cleared buffer. -/
def bookAnswer (REPORTS : ℕ) (book : OrderBook LEVELS ORDERS) :
    Command → Run (BookAnswer × OrderBook LEVELS ORDERS)
  | .newOrder order =>
    (book.submit order (ReportBuffer.new REPORTS)).map fun outcome ↦
      (.submitted (outcome.1.map fun summary ↦ (summary.state, summary.filledQuantity,
        summary.restingQuantity, summary.discardedQuantity, outcome.2.2.entries.map fillOf)), outcome.2.1)
  | .cancelOrder cancel =>
    (book.cancel cancel).map fun outcome ↦
      (.cancelled (outcome.1.map fun cancelled ↦ (cancelled.orderId, cancelled.accountId,
        cancelled.quantity)), outcome.2)
  | .replaceOrder replace =>
    (book.replace replace).map fun outcome ↦
      (.replaced (outcome.1.map fun replaced ↦ (replaced.oldQuantity, replaced.priorityLost)), outcome.2)

/-- Replacements ask for a price and a quantity. -/
def Priced : Command → Prop
  | .newOrder _ | .cancelOrder _ => True
  | .replaceOrder replace => 0 < replace.price.val ∧ 0 < replace.quantity.val

instance : DecidablePred Priced
  | .newOrder _ => .isTrue trivial
  | .cancelOrder _ => .isTrue trivial
  | .replaceOrder replace =>
    inferInstanceAs (Decidable (0 < replace.price.val ∧ 0 < replace.quantity.val))

/-- The order book stores the levels of the reference book. -/
def Related (instrument : InstrumentId) (book : OrderBook LEVELS ORDERS) (model : ModelBook) : Prop :=
  ∃ logical, book.Represents logical ∧ Mirrors model logical ∧ logical.instrument = instrument

section Runs

variable {instrument : InstrumentId} {book : OrderBook LEVELS ORDERS} {REPORTS : ℕ}

theorem submit_instrument {order : NewOrder} {capacity : ℕ}
    {outcome : MatchSummary × List Logical.Fill × Logical.Book}
    (hspec : logical.submit LEVELS ORDERS capacity order = .ok outcome) :
    outcome.2.2.instrument = logical.instrument := by
  obtain ⟨_, rest, _, resting, _, _, _, rfl⟩ := Mirrors.walk_of_submit hspec
  show (logical.settleWalk order rest resting).instrument = logical.instrument
  unfold Logical.Book.settleWalk
  split
  · exact (Logical.setSide_instrument ..).trans (Logical.setSide_instrument ..)
  · exact Logical.setSide_instrument ..

theorem cancel_instrument {cancel : CancelOrder} {outcome : CancelledOrder × Logical.Book}
    (hspec : logical.cancel cancel = .ok outcome) : outcome.2.instrument = logical.instrument := by
  unfold Logical.Book.cancel at hspec
  split at hspec
  · cases hspec
  · rw [← Except.ok.inj hspec]
    exact Logical.setSide_instrument ..

theorem replace_instrument {replace : ReplaceOrder} {outcome : ReplacedOrder × Logical.Book}
    (hspec : logical.replace LEVELS ORDERS replace = .ok outcome) :
    outcome.2.instrument = logical.instrument := by
  unfold Logical.Book.replace at hspec
  dsimp only at hspec
  split at hspec
  · cases hspec
  · split at hspec
    · cases hspec
    · split at hspec
      · cases hspec
      · split at hspec
        · rw [← Except.ok.inj hspec]
          exact Logical.setSide_instrument ..
        · split at hspec
          · cases hspec
          · rw [← Except.ok.inj hspec]
            exact (Logical.setSide_instrument ..).trans (Logical.setSide_instrument ..)

theorem related_submit (hO : 0 < ORDERS) (hcap : indexCapacity LEVELS ORDERS ≤ 2 ^ 32)
    (h : Related instrument book model) {order : NewOrder} (hinstrument : order.instrumentId = instrument) :
    ∃ answer book' model', bookAnswer REPORTS book (.newOrder order) = .ok (answer, book') ∧
      model.answer REPORTS LEVELS ORDERS (.newOrder order) = .ok (answer, model') ∧
      Related instrument book' model' := by
  obtain ⟨logical, hrep, hmirrors, rfl⟩ := h
  have hbook : Implements (SubmitRep (ReportBuffer.new REPORTS) order) _
    (logical.submit LEVELS ORDERS REPORTS order) _ := hrep.submit hO hcap order (ReportBuffer.new REPORTS)
  obtain ⟨reason, hrun, hrun'⟩ | ⟨outcome, ⟨book', reports⟩, model', hspec, hrun, hrep', hrun', hmirrors'⟩ :=
    hbook.meet (hmirrors.submit hrep.orderly hinstrument REPORTS)
  · refine ⟨.submitted (.error reason), book, model, ?_, ?_, logical, hrep, hmirrors, rfl⟩
    · rw [bookAnswer, hrun]
      rfl
    · rw [ModelBook.answer, hrun']
      rfl
  · obtain ⟨hbook', hreports⟩ := hrep'
    have hfills : reports.entries.map fillOf = outcome.2.1 := by
      have hentries : reports.entries = outcome.2.1.map (Logical.Fill.report order) := hreports
      rw [hentries, List.map_map]
      exact List.map_id outcome.2.1
    refine ⟨.submitted (.ok (Mirrors.submitted outcome).1), book', model', ?_, ?_, outcome.2.2, hbook',
      hmirrors', submit_instrument hspec⟩
    · rw [bookAnswer, hrun]
      show Except.ok (BookAnswer.submitted (.ok (_, _, _, _, reports.entries.map fillOf)), book') = _
      rw [hfills]
      rfl
    · rw [ModelBook.answer, hrun']
      rfl

theorem related_cancel (hcap : indexCapacity LEVELS ORDERS ≤ 2 ^ 32) (h : Related instrument book model)
    {cancel : CancelOrder} (hinstrument : cancel.instrumentId = instrument) :
    ∃ answer book' model', bookAnswer REPORTS book (.cancelOrder cancel) = .ok (answer, book') ∧
      model.answer REPORTS LEVELS ORDERS (.cancelOrder cancel) = .ok (answer, model') ∧
      Related instrument book' model' := by
  obtain ⟨logical, hrep, hmirrors, rfl⟩ := h
  obtain ⟨reason, hrun, hrun'⟩ | ⟨outcome, book', model', hspec, hrun, hrep', hrun', hmirrors'⟩ :=
    (hrep.cancel hcap cancel).meet (hmirrors.cancel hrep.orderly hinstrument)
  · refine ⟨.cancelled (.error reason), book, model, ?_, ?_, logical, hrep, hmirrors, rfl⟩
    · rw [bookAnswer, hrun]
      rfl
    · rw [ModelBook.answer, Except.ok.inj hrun']
  · refine ⟨.cancelled (.ok (Mirrors.cancelled outcome).1), book', model', ?_, ?_, outcome.2, hrep',
      hmirrors', cancel_instrument hspec⟩
    · rw [bookAnswer, hrun]
      rfl
    · rw [ModelBook.answer, Except.ok.inj hrun']

theorem related_replace (hO : 0 < ORDERS) (hcap : indexCapacity LEVELS ORDERS ≤ 2 ^ 32)
    (h : Related instrument book model) {replace : ReplaceOrder}
    (hinstrument : replace.instrumentId = instrument)
    (hprice : 0 < replace.price.val) (hquantity : 0 < replace.quantity.val) :
    ∃ answer book' model', bookAnswer REPORTS book (.replaceOrder replace) = .ok (answer, book') ∧
      model.answer REPORTS LEVELS ORDERS (.replaceOrder replace) = .ok (answer, model') ∧
      Related instrument book' model' := by
  obtain ⟨logical, hrep, hmirrors, rfl⟩ := h
  obtain ⟨reason, hrun, hrun'⟩ | ⟨outcome, book', model', hspec, hrun, hrep', hrun', hmirrors'⟩ :=
    (hrep.replace hO hcap replace).meet (hmirrors.replace hrep.orderly hinstrument hprice hquantity)
  · refine ⟨.replaced (.error reason), book, model, ?_, ?_, logical, hrep, hmirrors, rfl⟩
    · rw [bookAnswer, hrun]
      rfl
    · rw [ModelBook.answer, hrun']
      rfl
  · refine ⟨.replaced (.ok (Mirrors.replaced outcome).1), book', model', ?_, ?_, outcome.2, hrep',
      hmirrors', replace_instrument hspec⟩
    · rw [bookAnswer, hrun]
      rfl
    · rw [ModelBook.answer, hrun']
      rfl

theorem related_new (instrument : InstrumentId) :
    Related instrument (OrderBook.new LEVELS ORDERS instrument) ModelBook.default :=
  ⟨.empty instrument, OrderBook.Represents.new instrument, fun side ↦ by cases side <;> exact .refl _, rfl⟩

end Runs

/-- On every sequence of commands both books give the same answers, and afterwards they keep the same
levels with the same queues. -/
theorem books_agree (hO : 1 ≤ ORDERS) (hcap : 4 * LEVELS * ORDERS ≤ 2 ^ 32) (instrument : InstrumentId)
    (REPORTS : ℕ) (commands : List Command)
    (hcommands : ∀ command ∈ commands, command.instrumentId = instrument ∧ Priced command) :
    ∃ answers book model,
      execute (bookAnswer REPORTS) (OrderBook.new LEVELS ORDERS instrument) commands = .ok (answers, book) ∧
      execute (ModelBook.answer REPORTS LEVELS ORDERS) ModelBook.default commands = .ok (answers, model) ∧
      ∀ side, (model.side side).Perm (book.toLogical.side side) := by
  have hcap' : indexCapacity LEVELS ORDERS ≤ 2 ^ 32 := (indexCapacity_eq LEVELS ORDERS).trans_le hcap
  have hstep (book : OrderBook LEVELS ORDERS) (model : ModelBook) (h : Related instrument book model)
      (command : Command) (hmem : command ∈ commands) :
      ∃ answer book' model', bookAnswer REPORTS book command = .ok (answer, book') ∧
        model.answer REPORTS LEVELS ORDERS command = .ok (answer, model') ∧
        Related instrument book' model' := by
    obtain ⟨hinstrument, hpriced⟩ := hcommands command hmem
    cases command with
    | newOrder order => exact related_submit hO hcap' h hinstrument
    | cancelOrder cancel => exact related_cancel hcap' h hinstrument
    | replaceOrder replace => exact related_replace hO hcap' h hinstrument hpriced.1 hpriced.2
  obtain ⟨answers, book, model, hbook, hmodel, logical, hrep, hmirrors, _⟩ :=
    execute_simulation commands hstep (related_new instrument)
  refine ⟨answers, book, model, hbook, hmodel, ?_⟩
  rw [hrep.toLogical_eq hcap']
  exact hmirrors

/-- A trade, a replacement that loses priority, and a cancellation. -/
theorem books_agree_traded :
    ∃ answers book model,
      execute (bookAnswer 4) (OrderBook.new 2 2 1)
        [.newOrder firstOrder, .newOrder ⟨2, 8, 1, ⟨99, by decide⟩, 3, 2, .sell, .ioc⟩,
          .replaceOrder ⟨1, 7, 1, 4, ⟨101, by decide⟩, 3⟩, .cancelOrder ⟨1, 7, 1, 4⟩] = .ok (answers, book) ∧
      execute (ModelBook.answer 4 2 2) ModelBook.default
        [.newOrder firstOrder, .newOrder ⟨2, 8, 1, ⟨99, by decide⟩, 3, 2, .sell, .ioc⟩,
          .replaceOrder ⟨1, 7, 1, 4, ⟨101, by decide⟩, 3⟩, .cancelOrder ⟨1, 7, 1, 4⟩] = .ok (answers, model) ∧
      ∀ side, (model.side side).Perm (book.toLogical.side side) :=
  books_agree (by decide) (by decide) 1 4 _ (by decide)

/-- Where a handle cannot name every position of the index, the order book faults on an order that
the reference book rests. -/
theorem large_books_disagree :
    execute (bookAnswer 4) (OrderBook.new (2 ^ 31) 1 1) [.newOrder firstOrder] =
        .error (.expect "order index capacity was preflighted") ∧
      execute (ModelBook.answer 4 (2 ^ 31) 1) ModelBook.default [.newOrder firstOrder] =
        .ok ([.submitted (.ok (.accepted, 0, 5, 0, []))],
          ⟨[⟨⟨100, firstPrice_inRange⟩, [⟨1, 7, 5, 1⟩]⟩], []⟩) ∧
      ¬ ∃ answers book model,
        execute (bookAnswer 4) (OrderBook.new (2 ^ 31) 1 1) [.newOrder firstOrder] = .ok (answers, book) ∧
        execute (ModelBook.answer 4 (2 ^ 31) 1) ModelBook.default [.newOrder firstOrder] =
          .ok (answers, model) ∧
        ∀ side, (model.side side).Perm (book.toLogical.side side) := by
  have hfault : execute (bookAnswer 4) (OrderBook.new (2 ^ 31) 1 1) [.newOrder firstOrder] =
      .error (.expect "order index capacity was preflighted") := by
    unfold execute
    rw [bookAnswer, submit_first_large]
    rfl
  refine ⟨hfault, by decide, ?_⟩
  rintro ⟨answers, book, model, hbook, _⟩
  rw [hfault] at hbook
  cases hbook

end DeterministicExchange.Model
