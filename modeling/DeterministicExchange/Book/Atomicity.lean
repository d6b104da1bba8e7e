import DeterministicExchange.Book.Abstraction

/-!
# Rejected calls change nothing, preflighted calls succeed

A call that returns an error leaves the book and the report buffer as they were,
in every array and every link. In the other direction nothing can stop a call
whose checks against the unchanged book have passed: neither applying a plan nor
moving an order to its new level fails or faults afterwards.

The sizes of the book matter for the second part. A book whose levels have no
order slots, and a book with more index positions than a stored position can
name, pass the checks of a new order and then fault while resting it.
-/

namespace DeterministicExchange.Book

open Machine ProbeTable OrderIndex

variable {LEVELS ORDERS REPORTS : ℕ} {book : OrderBook LEVELS ORDERS}

/-- The computation returns and accepts. -/
def Accepts {S E A : Type} (run : Run (Except E A × S)) : Prop :=
  ∃ value state', run = .ok (.ok value, state')

/-- Where the computation rejects, the state is the one before it. -/
def AtomicAt {S E A : Type} (state : S) (run : Run (Except E A × S)) : Prop :=
  ∀ reason state', run = .ok (.error reason, state') → state' = state

/-! ## Rejections -/

namespace AtomicAt

variable {S E A B : Type} {state : S}

theorem rejected (reason : E) : AtomicAt (A := A) state (.ok (.error reason, state)) := by
  intro _ state' hrun
  exact (Prod.ext_iff.mp (Except.ok.inj hrun)).2.symm

theorem accepted (value : A) (state' : S) : AtomicAt (E := E) state (.ok (.ok value, state')) := by
  intro _ _ hrun
  exact absurd (Prod.ext_iff.mp (Except.ok.inj hrun)).1 nofun

/-- Steps after which the computation is atomic, whatever they return. -/
theorem bind {x : Run B} {f : B → Run (Except E A × S)} (h : ∀ b, AtomicAt state (f b)) :
    AtomicAt state (x >>= f) := by
  intro reason state' hrun
  obtain ⟨b, _, hrun⟩ := Run.bind_eq_ok.mp hrun
  exact h b reason state' hrun

end AtomicAt

/-- Declining and rejecting, the fast path leaves everything as it was. -/
theorem OrderBook.trySingleFill_unchanged {order : NewOrder} {makerSide : Side}
    {reports : ReportBuffer REPORTS} {result : Except RejectReason (Option MatchSummary)}
    {state : OrderBook LEVELS ORDERS × ReportBuffer REPORTS}
    (hrun : book.trySingleFill order makerSide reports = .ok (result, state))
    (hfilled : ∀ summary, result ≠ .ok (some summary)) : state = (book, reports) := by
  have hsame {kept : Except RejectReason (Option MatchSummary)}
      (h : (.ok (kept, book, reports) : Run _) = .ok (result, state)) : state = (book, reports) :=
    (Prod.ext_iff.mp (Except.ok.inj h)).2.symm
  have hdone {summary : MatchSummary} {state' : OrderBook LEVELS ORDERS × ReportBuffer REPORTS}
      (h : (.ok (.ok (some summary), state') : Run _) = .ok (result, state)) :
      state = (book, reports) :=
    absurd (Prod.ext_iff.mp (Except.ok.inj h)).1.symm (hfilled summary)
  unfold OrderBook.trySingleFill at hrun
  split at hrun
  · exact hsame hrun
  · split at hrun
    · exact hsame hrun
    · obtain ⟨stored, _, hrun⟩ := Run.bind_eq_ok.mp hrun
      split at hrun
      · exact hsame hrun
      · split at hrun
        · exact hsame hrun
        · split at hrun
          · exact hsame hrun
          · split at hrun
            · exact hsame hrun
            · split at hrun
              · obtain ⟨book', _, hrun⟩ := Run.bind_eq_ok.mp hrun
                exact hdone hrun
              · obtain ⟨quantity, _, hrun⟩ := Run.bind_eq_ok.mp hrun
                obtain ⟨aggregateQuantity, _, hrun⟩ := Run.bind_eq_ok.mp hrun
                exact hdone hrun

theorem OrderBook.submitPlan_atomicAt (order : NewOrder) (makerSide : Side)
    (reports : ReportBuffer REPORTS) :
    AtomicAt (book, reports) (book.submitPlan order makerSide reports) := by
  unfold OrderBook.submitPlan
  apply AtomicAt.bind
  intro planned
  cases planned with
  | error reason => exact .rejected reason
  | ok plan =>
    apply AtomicAt.bind
    intro applied
    apply AtomicAt.bind
    intro unrested
    apply AtomicAt.bind
    intro filled
    apply AtomicAt.bind
    intro reportCount
    exact .accepted _ applied

/-- A rejected order changes neither the book nor the report buffer. -/
theorem OrderBook.submit_atomicAt (order : NewOrder) (reports : ReportBuffer REPORTS) :
    AtomicAt (book, reports) (book.submit order reports) := by
  unfold OrderBook.submit
  cases book.validateOrder order with
  | error reason => exact .rejected reason
  | ok makerSide =>
    intro reason state' hsubmit
    obtain ⟨⟨result, book', reports'⟩, hfast, hrun⟩ := Run.bind_eq_ok.mp hsubmit
    match result, hfast, hrun with
    | .error fastReason, hfast, hrun =>
      rw [OrderBook.trySingleFill_unchanged hfast nofun] at hrun
      exact AtomicAt.rejected fastReason reason state' hrun
    | .ok (some summary), _, hrun => exact absurd (Prod.ext_iff.mp (Except.ok.inj hrun)).1 nofun
    | .ok none, hfast, hrun =>
      obtain ⟨rfl, rfl⟩ := Prod.mk.inj (OrderBook.trySingleFill_unchanged hfast nofun)
      exact OrderBook.submitPlan_atomicAt order makerSide reports' reason state' hrun

theorem OrderBook.cancel_atomicAt (cancel : CancelOrder) : AtomicAt book (book.cancel cancel) := by
  unfold OrderBook.cancel
  split
  · exact .rejected _
  · split
    · exact .rejected _
    · split
      · exact .rejected _
      · apply AtomicAt.bind
        intro unlinked
        apply AtomicAt.bind
        intro _
        apply AtomicAt.bind
        intro removed
        apply AtomicAt.bind
        intro _
        exact .accepted _ _

/-- A rejected replacement leaves the book unchanged. -/
theorem OrderBook.replace_atomicAt (replace : ReplaceOrder) : AtomicAt book (book.replace replace) := by
  unfold OrderBook.replace
  split
  · exact .rejected _
  split
  · exact .rejected _
  split
  · exact .rejected _
  split
  · exact .rejected _
  split
  · exact .rejected _
  apply AtomicAt.bind
  intro level
  apply AtomicAt.bind
  intro old
  dsimp only
  split
  · apply AtomicAt.bind
    intro reduction
    apply AtomicAt.bind
    intro reduced
    apply AtomicAt.bind
    intro level'
    exact .accepted _ _
  · apply AtomicAt.bind
    intro checked
    cases checked with
    | error reason => exact .rejected reason
    | ok =>
      apply AtomicAt.bind
      intro unlinked
      apply AtomicAt.bind
      intro _
      apply AtomicAt.bind
      intro removed
      apply AtomicAt.bind
      intro _
      apply AtomicAt.bind
      intro rested
      exact .accepted _ _

/-! ## Acceptance -/

/-- The checks that `replace` makes before it changes the book. -/
structure OrderBook.PassesPreflight (book : OrderBook LEVELS ORDERS) (replace : ReplaceOrder)
    (location : OrderLocation) (level : PriceLevel ORDERS) : Prop where
  instrument : replace.instrumentId = book.instrument
  located : book.locate replace.orderId = some (location, replace.accountId)
  price : 0 < replace.price.val
  quantity : 0 < replace.quantity.val
  source : book.expectLevel location.side location.levelIndex "indexed level is occupied" = .ok level
  preflight : book.replacePreflight replace location level.price = .ok (.ok ())

/-- Applying a plan cannot turn into a rejection. -/
theorem OrderBook.applyPlan_of_submitPlan {order : NewOrder} {makerSide : Side}
    {reports : ReportBuffer REPORTS} {plan : MatchPlan} {result : Except RejectReason MatchSummary}
    {state : OrderBook LEVELS ORDERS × ReportBuffer REPORTS}
    (hplan : book.buildPlan order makerSide reports.remainingCapacity REPORTS = .ok (.ok plan))
    (hrun : book.submitPlan order makerSide reports = .ok (result, state)) :
    book.applyPlan order plan reports = .ok state ∧ ∃ summary, result = .ok summary := by
  unfold OrderBook.submitPlan at hrun
  rw [hplan, Run.ok_bind] at hrun
  obtain ⟨applied, happly, hrun⟩ := Run.bind_eq_ok.mp hrun
  obtain ⟨unrested, _, hrun⟩ := Run.bind_eq_ok.mp hrun
  obtain ⟨filled, _, hrun⟩ := Run.bind_eq_ok.mp hrun
  obtain ⟨reportCount, _, hrun⟩ := Run.bind_eq_ok.mp hrun
  obtain ⟨rfl, rfl⟩ := Prod.ext_iff.mp (Except.ok.inj hrun)
  exact ⟨happly, _, rfl⟩

/-- A planned order is traded: the plan is applied, and `submit` accepts. -/
theorem OrderBook.Represents.accepts_submit (hO : 0 < ORDERS)
    (hcap : indexCapacity LEVELS ORDERS ≤ 2 ^ 32) {logical : Logical.Book} (h : book.Represents logical)
    {order : NewOrder} {makerSide : Side} (hvalidate : book.validateOrder order = .ok makerSide)
    {reports : ReportBuffer REPORTS} {plan : MatchPlan}
    (hplan : book.buildPlan order makerSide reports.remainingCapacity REPORTS = .ok (.ok plan)) :
    (∃ state, book.applyPlan order plan reports = .ok state) ∧
      Accepts (book.submitPlan order makerSide reports) ∧ Accepts (book.submit order reports) := by
  have hsubmit := h.submit hO hcap order reports
  obtain ⟨place, views, hrep, rfl⟩ := h
  unfold Logical.Book.submit at hsubmit
  have hadmission := hrep.validateOrder hcap order
  rw [hvalidate] at hadmission
  cases hreject : (Views.toBook book.instrument views).admissionReject order with
  | some reason =>
    rw [hreject] at hadmission
    exact absurd hadmission nofun
  | none =>
    rw [hreject] at hadmission hsubmit
    obtain rfl : makerSide = order.side.opposite := Except.ok.inj hadmission
    obtain ⟨_, _, _, hfind, _⟩ := Logical.Book.admitted hreject
    have habsent : ∀ l x, Live views l x → x.id ≠ order.orderId := by
      rintro l x ⟨view, hview, _, hnode⟩ hid
      rw [← hid, hrep.find_of_mem hview hnode] at hfind
      exact absurd hfind nofun
    have htrade := hrep.submitPlan hO hcap habsent reports
    cases hspec : (Views.toBook book.instrument views).trade LEVELS ORDERS reports.remainingCapacity
        order with
    | error reason =>
      obtain ⟨_, _, hok⟩ := OrderBook.applyPlan_of_submitPlan hplan (htrade.of_error hspec)
      exact absurd hok nofun
    | ok outcome =>
      obtain ⟨state, hrun, _⟩ := htrade.of_ok hspec
      obtain ⟨state', hrun', _⟩ := hsubmit.of_ok hspec
      obtain ⟨happly, _⟩ := OrderBook.applyPlan_of_submitPlan hplan hrun
      exact ⟨⟨state, happly⟩, ⟨outcome.1, state, hrun⟩, ⟨outcome.1, state', hrun'⟩⟩

/-- An order whose checks have passed is replaced. -/
theorem OrderBook.Represents.accepts_replace (hO : 0 < ORDERS)
    (hcap : indexCapacity LEVELS ORDERS ≤ 2 ^ 32) {logical : Logical.Book} (h : book.Represents logical)
    {replace : ReplaceOrder} {location : OrderLocation} {level : PriceLevel ORDERS}
    (hpasses : book.PassesPreflight replace location level) : Accepts (book.replace replace) := by
  obtain ⟨result, book', hrun, _⟩ := (h.replace hO hcap replace).returns
  cases result with
  | ok replaced => exact ⟨replaced, book', hrun⟩
  | error reason =>
  have hinstrument : ¬ replace.instrumentId ≠ book.instrument := not_not.mpr hpasses.instrument
  have howner : ¬ replace.accountId ≠ replace.accountId := not_not.mpr rfl
  have hprice : ¬ replace.price.val ≤ 0 := Int.not_le.mpr hpasses.price
  have hquantity : ¬ replace.quantity.val = 0 := hpasses.quantity.ne'
  unfold OrderBook.replace at hrun
  rw [if_neg hinstrument, hpasses.located] at hrun
  simp only [if_neg howner, if_neg hprice, if_neg hquantity, hpasses.source, Run.ok_bind] at hrun
  obtain ⟨old, _, hrun⟩ := Run.bind_eq_ok.mp hrun
  split at hrun
  · obtain ⟨reduction, _, hrun⟩ := Run.bind_eq_ok.mp hrun
    obtain ⟨reduced, _, hrun⟩ := Run.bind_eq_ok.mp hrun
    obtain ⟨level', _, hrun⟩ := Run.bind_eq_ok.mp hrun
    exact absurd hrun nofun
  · rw [hpasses.preflight, Run.ok_bind] at hrun
    obtain ⟨unlinked, _, hrun⟩ := Run.bind_eq_ok.mp hrun
    obtain ⟨_, _, hrun⟩ := Run.bind_eq_ok.mp hrun
    obtain ⟨removed, _, hrun⟩ := Run.bind_eq_ok.mp hrun
    obtain ⟨_, _, hrun⟩ := Run.bind_eq_ok.mp hrun
    obtain ⟨rested, _, hrun⟩ := Run.bind_eq_ok.mp hrun
    exact absurd hrun nofun

/-- Rejected calls change nothing, and where every level has an order slot and every index position
fits its stored handle, calls whose checks have passed are accepted. -/
theorem bookCalls_atomic (h : book.Invariant) :
    (∀ REPORTS order (reports : ReportBuffer REPORTS),
      AtomicAt (book, reports) (book.submit order reports)) ∧
    (∀ replace, AtomicAt book (book.replace replace)) ∧
    (∀ cancel, AtomicAt book (book.cancel cancel)) ∧
    (1 ≤ ORDERS → 4 * LEVELS * ORDERS ≤ 2 ^ 32 →
      (∀ REPORTS order (reports : ReportBuffer REPORTS) makerSide plan,
        book.validateOrder order = .ok makerSide →
        book.buildPlan order makerSide reports.remainingCapacity REPORTS = .ok (.ok plan) →
          (∃ state, book.applyPlan order plan reports = .ok state) ∧
          Accepts (book.submitPlan order makerSide reports) ∧ Accepts (book.submit order reports)) ∧
      ∀ replace location level, book.PassesPreflight replace location level →
        Accepts (book.replace replace)) := by
  refine ⟨fun _ ↦ OrderBook.submit_atomicAt, OrderBook.replace_atomicAt, OrderBook.cancel_atomicAt, ?_⟩
  intro hO hcap
  have hcap' : indexCapacity LEVELS ORDERS ≤ 2 ^ 32 := (indexCapacity_eq LEVELS ORDERS).trans_le hcap
  obtain ⟨logical, hrep⟩ := h.represents
  refine ⟨?_, ?_⟩
  · intro REPORTS order reports makerSide plan hvalidate hplan
    exact hrep.accepts_submit hO hcap' hvalidate hplan
  · intro replace location level hpasses
    exact hrep.accepts_replace hO hcap' hpasses

theorem firstPrice_inRange : -2 ^ (64 - 1) ≤ (100 : ℤ) ∧ (100 : ℤ) < 2 ^ (64 - 1) := by decide

/-- The first order of an account, to rest at price 100. -/
def firstOrder : NewOrder := ⟨1, 7, 1, ⟨100, firstPrice_inRange⟩, 5, 1, .buy, .gtc⟩

/-- Its only level, at price 100, is in use. -/
def fullBook : OrderBook 1 1 where
  instrument := 1
  bids := #v[some ⟨⟨100, firstPrice_inRange⟩, 5,
    ⟨#v[.live ⟨⟨1, 7, 1, 5, 1⟩, LinkedSlots.nil, LinkedSlots.nil⟩], 0, 0, LinkedSlots.nil, 1⟩⟩]
  asks := #v[none]
  index := #v[none, some (1, 1), none, none]
  bidLevels := ⟨[(⟨100, firstPrice_inRange⟩, 0)], []⟩
  askLevels := ⟨[], [0]⟩

theorem fullBook_invariant : fullBook.Invariant := by
  have hrun : (OrderBook.new 1 1 1).submit firstOrder (ReportBuffer.new 4) =
      .ok (.ok ⟨.accepted, 0, 5, 0, 0⟩, fullBook, ReportBuffer.new 4) := by decide +kernel
  have hnew : (OrderBook.new 1 1 1).Represents (Logical.Book.empty 1) := OrderBook.Represents.new 1
  have hsubmit := hnew.submit Nat.one_pos (by decide) firstOrder (ReportBuffer.new 4)
  cases hspec : (Logical.Book.empty 1).submit 1 1 (ReportBuffer.new 4).remainingCapacity firstOrder with
  | error reason =>
    have hrejected := hrun.symm.trans (hsubmit.of_error hspec)
    exact absurd hrejected nofun
  | ok outcome =>
    obtain ⟨state, hrun', hrep, _⟩ := hsubmit.of_ok hspec
    obtain ⟨_, hstate⟩ := Prod.mk.inj (Except.ok.inj (hrun.symm.trans hrun'))
    rw [← hstate] at hrep
    exact hrep.invariant (by decide)

theorem fullBook_moves_to_new_level :
    Accepts (fullBook.replace ⟨1, 7, 1, 2, ⟨200, by decide⟩, 5⟩) :=
  ((bookCalls_atomic fullBook_invariant).2.2.2 (by decide) (by decide)).2 _ ⟨.buy, 0, 0⟩ _
    ⟨rfl, by decide, by decide, by decide, rfl, by decide⟩

/-! ## Books without room behind their checks -/

theorem location_new (id : OrderId) : (OrderIndex.new LEVELS ORDERS).location id = none := by
  have hfind : (OrderIndex.new LEVELS ORDERS).findSlot id = none := by
    rw [Option.eq_none_iff_forall_not_mem]
    intro pos hpos
    obtain ⟨encoded, hslot⟩ := slot_of_findSlot hpos
    unfold OrderIndex.new at hslot
    rw [ProbeTable.slot_empty] at hslot
    exact absurd hslot nofun
  unfold OrderIndex.location
  rw [hfind]
  rfl

theorem level?_new (instrument : InstrumentId) (side : Side) (i : ℕ) :
    (OrderBook.new LEVELS ORDERS instrument).level? side i = none := by
  have hnone : ((Vector.replicate LEVELS none : Vector (Option (PriceLevel ORDERS)) LEVELS)[i]?).join =
      none := by
    rw [Vector.getElem?_replicate]
    split <;> rfl
  cases side <;> exact hnone

/-- An empty book satisfies the invariant, however large it is. -/
theorem OrderBook.Invariant.new (instrument : InstrumentId) :
    (OrderBook.new LEVELS ORDERS instrument).Invariant := by
  have hvacant : ∀ location order, ¬ (OrderBook.new LEVELS ORDERS instrument).RestsAt location order := by
    rintro location order ⟨level, hlevel, _⟩
    rw [level?_new] at hlevel
    exact absurd hlevel nofun
  have hlevels : ∀ (side : Side) (i : ℕ) (level : PriceLevel ORDERS),
      ((OrderBook.new LEVELS ORDERS instrument).sideLevels side)[i]? ≠ some (some level) := by
    intro side i level hget
    have hlevel : (OrderBook.new LEVELS ORDERS instrument).level? side i = none :=
      level?_new instrument side i
    unfold OrderBook.level? at hlevel
    rw [hget] at hlevel
    exact absurd hlevel nofun
  have hentries : ∀ side, (OrderBook.new LEVELS ORDERS instrument).sideIndex side =
      SortedIndex.Index.empty _ _ := fun side ↦ by cases side <;> rfl
  refine ⟨fun side ↦ ⟨?_, ?_, ?_, ?_⟩, Probed.empty _, ?_, ?_, ?_⟩
  · rw [hentries]
    exact List.Pairwise.nil
  · rw [hentries]
    exact List.Perm.refl _
  · exact fun i level hget ↦ absurd hget (hlevels side i level)
  · rw [hentries]
    exact fun entry hentry ↦ absurd hentry List.not_mem_nil
  · intro id location
    have hlocation : (OrderBook.new LEVELS ORDERS instrument).index.location id = none := location_new id
    rw [hlocation]
    constructor
    · exact nofun
    · rintro ⟨order, hrests, _⟩
      exact absurd hrests (hvacant location order)
  · intro pos id encoded hslot
    have hempty : slot (OrderBook.new LEVELS ORDERS instrument).index pos = none := ProbeTable.slot_empty pos
    rw [hempty] at hslot
    exact absurd hslot nofun
  · exact fun location order hrests ↦ absurd hrests (hvacant location order)

section Unprepared

variable {instrument : InstrumentId} {order : NewOrder}

/-- A new order passes every check of an empty book. -/
theorem validateOrder_new (hinstrument : order.instrumentId = instrument) (hprice : 0 < order.price.val)
    (hquantity : 0 < order.quantity.val) :
    (OrderBook.new LEVELS ORDERS instrument).validateOrder order = .ok order.side.opposite := by
  have hinstrument' : ¬ order.instrumentId ≠ (OrderBook.new LEVELS ORDERS instrument).instrument :=
    not_not.mpr hinstrument
  have habsent : (OrderBook.new LEVELS ORDERS instrument).containsOrder order.orderId = false := by
    unfold OrderBook.containsOrder
    exact congrArg Option.isSome (location_new order.orderId)
  have hbest : ((OrderBook.new LEVELS ORDERS instrument).sideIndex order.side.opposite).entries.head? =
      none := by
    cases order.side <;> rfl
  unfold OrderBook.validateOrder
  rw [if_neg hinstrument', if_neg (Int.not_le.mpr hprice), if_neg hquantity.ne', habsent, hbest]
  simp

/-- The plan of a new order on an empty book rests all of it. -/
def restingPlan (order : NewOrder) (capacity REPORTS : ℕ) : MatchPlan :=
  { MatchPlan.new order.side.opposite capacity REPORTS with restingQuantity := order.quantity }

theorem buildPlan_new (hlevels : 0 < LEVELS) (hquantity : 0 < order.quantity.val)
    (htif : order.timeInForce = .gtc) (capacity REPORTS : ℕ) :
    (OrderBook.new LEVELS ORDERS instrument).buildPlan order order.side.opposite capacity REPORTS =
      .ok (.ok (restingPlan order capacity REPORTS)) := by
  have hentries : ((OrderBook.new LEVELS ORDERS instrument).sideIndex order.side.opposite).entries = [] := by
    cases order.side <;> rfl
  have hindex : (OrderBook.new LEVELS ORDERS instrument).sideIndex order.side =
      SortedIndex.Index.empty _ _ := by
    cases order.side <;> rfl
  have hroom : (SortedIndex.Index.empty PriceTicks LEVELS).isFull = false := by
    unfold SortedIndex.Index.isFull SortedIndex.Index.empty
    rw [List.isEmpty_eq_false_iff]
    exact fun hnil ↦ hlevels.ne' (List.range_eq_nil.mp hnil)
  have hresting : (OrderBook.new LEVELS ORDERS instrument).restingCapacity order = .ok (.ok ()) := by
    unfold OrderBook.restingCapacity
    rw [hindex]
    simp only [hroom]
    rfl
  unfold OrderBook.buildPlan
  rw [hentries]
  simp only [OrderBook.planLevels, Run.ok_bind, htif, if_pos hquantity, hresting]
  rfl

/-- Where an empty book cannot store an order, submitting it faults after its plan was built. -/
theorem submit_new_of_rest (hlevels : 0 < LEVELS) (hinstrument : order.instrumentId = instrument)
    (hprice : 0 < order.price.val) (hquantity : 0 < order.quantity.val)
    (htif : order.timeInForce = .gtc) {fault : Fault}
    (hrest : (OrderBook.new LEVELS ORDERS instrument).rest order order.quantity = .error fault)
    (reports : ReportBuffer REPORTS) :
    (OrderBook.new LEVELS ORDERS instrument).submit order reports = .error fault := by
  have hbest : ((OrderBook.new LEVELS ORDERS instrument).sideIndex order.side.opposite).entries.head? =
      none := by
    cases order.side <;> rfl
  have hfast : (OrderBook.new LEVELS ORDERS instrument).trySingleFill order order.side.opposite reports =
      .ok (.ok none, OrderBook.new LEVELS ORDERS instrument, reports) := by
    unfold OrderBook.trySingleFill
    rw [hbest]
  unfold OrderBook.submit
  simp only [validateOrder_new hinstrument hprice hquantity, hfast, Run.ok_bind]
  unfold OrderBook.submitPlan OrderBook.applyPlan
  simp only [buildPlan_new hlevels hquantity htif, Run.ok_bind, restingPlan, MatchPlan.new,
    OrderBook.applyFills, if_pos hquantity, hrest, Run.error_bind]

theorem probe_empty {K V : Type} [DecidableEq K] {cap : ℕ} (hcap : 0 < cap) (key : K) (start : ℕ) :
    probe (ProbeTable.empty K V cap) key start = .vacant (position cap start 0) := by
  have hscan : ∀ fuel, 0 < fuel →
      probeFrom (ProbeTable.empty K V cap) key start fuel 0 = .vacant (position cap start 0) := by
    intro fuel hfuel
    cases fuel with
    | zero => omega
    | succ fuel => rw [probeFrom, ProbeTable.slot_empty]
  exact hscan cap hcap

theorem insert_of_unnamed {index : OrderIndex LEVELS ORDERS} {id : OrderId} {start : ℕ}
    (hprobe : probe index id (probeStart LEVELS ORDERS id) = .vacant start)
    (hunnamed : Unsigned.ofNat? 32 start = none) (location : OrderLocation) :
    (index.insert id location).toOption = none := by
  unfold OrderIndex.insert
  split
  · rfl
  · cases encodeLocation LEVELS ORDERS location with
    | none => rfl
    | some encoded =>
      simp only [hprobe, hunnamed]
      rfl

/-- An id whose first index position no stored handle can name is not indexed. -/
theorem insert_new_of_large {id : OrderId} (hpos : 0 < indexCapacity LEVELS ORDERS)
    (hcap : indexCapacity LEVELS ORDERS ≤ 2 ^ 64) (hlarge : 2 ^ 32 ≤ probeStart LEVELS ORDERS id)
    (location : OrderLocation) :
    ((OrderIndex.new LEVELS ORDERS).insert id location).toOption = none := by
  have hstart := probeStart_lt hpos id
  have hposition : position (indexCapacity LEVELS ORDERS) (probeStart LEVELS ORDERS id) 0 =
      probeStart LEVELS ORDERS id := by
    unfold position
    rw [wrappingAdd_of_lt (by omega), Nat.add_zero, Nat.mod_eq_of_lt hstart]
  refine insert_of_unnamed (probe_empty hpos id _) ?_ location
  unfold Unsigned.ofNat?
  rw [hposition, dif_neg (Nat.not_lt.mpr hlarge)]

/-- Where the index has no place for an id, an empty book faults while resting it. -/
theorem rest_new_of_unindexed (hlevels : 0 < LEVELS) (horders : 0 < ORDERS) (husize : ORDERS ≤ 2 ^ 32)
    (hquantity : 0 < order.quantity.val)
    (hinsert : ∀ location, ((OrderIndex.new LEVELS ORDERS).insert order.orderId location).toOption = none) :
    (OrderBook.new LEVELS ORDERS instrument).rest order order.quantity =
      .error (.expect "order index capacity was preflighted") := by
  obtain ⟨handle, free, hfree⟩ := List.exists_cons_of_length_pos
    (by rw [List.length_range]; exact hlevels : 0 < (List.range LEVELS).length)
  have hhandle : handle < LEVELS := by
    rw [← List.mem_range, hfree]
    exact List.mem_cons_self
  have hindex : (OrderBook.new LEVELS ORDERS instrument).sideIndex order.side =
      SortedIndex.Index.empty _ _ := by
    cases order.side <;> rfl
  have hnotin : order.price ∉
      (SortedIndex.Index.empty PriceTicks LEVELS).entries.map Prod.fst := List.not_mem_nil
  obtain ⟨pre, post, _, _, _, hindexInsert, _⟩ :=
    (SortedIndex.Sorted.empty (P := PriceTicks) (n := LEVELS) (descending order.side)).insert hfree
      hnotin
  obtain ⟨slot, slots, hslots⟩ := List.exists_cons_of_length_pos
    (by rw [List.length_range]; exact horders : 0 < (List.range ORDERS).length)
  have hlevel : (PriceLevel.new ORDERS order.price).Rep [] (List.range ORDERS) := PriceLevel.Rep.new _
  rw [hslots] at hlevel
  have hresting : 0 < (⟨order.orderId, order.accountId, 0, order.quantity, order.sequence⟩ :
      RestingOrder).quantity.val := hquantity
  obtain ⟨level, hpush, _, _⟩ := hlevel.pushTail (addressable husize) hresting
  have hacquire : (OrderBook.new LEVELS ORDERS instrument).acquireLevel order.side order.price =
      .ok (handle, ((OrderBook.new LEVELS ORDERS instrument).setSideIndex order.side
        ⟨pre ++ (order.price, handle) :: post, free⟩).setSideLevels order.side
          (((OrderBook.new LEVELS ORDERS instrument).sideLevels order.side).setIfInBounds handle
            (some (PriceLevel.new ORDERS order.price)))) := by
    have hfind : (SortedIndex.Index.empty PriceTicks LEVELS).find order.price (descending order.side) =
        none := rfl
    unfold OrderBook.acquireLevel
    rw [hindex, hfind]
    simp only [hindexInsert, Run.ok_bind, Run.expect_some, Run.write_of_lt _ _ hhandle]
    rfl
  have hget : ((((OrderBook.new LEVELS ORDERS instrument).setSideIndex order.side
      ⟨pre ++ (order.price, handle) :: post, free⟩).setSideLevels order.side
        (((OrderBook.new LEVELS ORDERS instrument).sideLevels order.side).setIfInBounds handle
          (some (PriceLevel.new ORDERS order.price)))).sideLevels order.side)[handle]? =
      some (some (PriceLevel.new ORDERS order.price)) := by
    rw [OrderBook.sideLevels_setSideLevels, if_pos rfl, Vector.getElem?_setIfInBounds, if_pos rfl,
      if_pos hhandle]
  have hunindexed := hinsert ⟨order.side, handle, slot⟩
  unfold OrderBook.rest OrderBook.restAtTail
  simp only [hacquire, Run.ok_bind, OrderBook.expectLevel_of_get hget, hpush, Run.expect_some,
    OrderBook.index_setSideLevels, OrderBook.index_setSideIndex]
  have hnew : (OrderBook.new LEVELS ORDERS instrument).index = OrderIndex.new LEVELS ORDERS := rfl
  rw [hnew, hunindexed]
  rfl

end Unprepared

/-- An index with more positions than a handle can name has none for the first order. -/
theorem submit_first_large {REPORTS : ℕ} (reports : ReportBuffer REPORTS) :
    (OrderBook.new (2 ^ 31) 1 1).submit firstOrder reports =
      .error (.expect "order index capacity was preflighted") := by
  have hquantity : 0 < firstOrder.quantity.val := by decide
  refine submit_new_of_rest (Nat.two_pow_pos 31) rfl (by decide) hquantity rfl ?_ reports
  refine rest_new_of_unindexed (Nat.two_pow_pos 31) Nat.one_pos (by norm_num) hquantity ?_
  exact insert_new_of_large (by norm_num [indexCapacity, orderIndexPlanes])
    (by norm_num [indexCapacity, orderIndexPlanes])
    (by norm_num [probeStart, firstOrder, indexCapacity, orderIndexPlanes])

/-- A plan that is built and then cannot be applied. -/
def FaultsAfterPlan (LEVELS ORDERS : ℕ) (order : NewOrder) (fault : Fault) : Prop :=
  (OrderBook.new LEVELS ORDERS 1).Invariant ∧
    (OrderBook.new LEVELS ORDERS 1).validateOrder order = .ok order.side.opposite ∧
    (OrderBook.new LEVELS ORDERS 1).buildPlan order order.side.opposite
      (ReportBuffer.new 4).remainingCapacity 4 = .ok (.ok (restingPlan order 4 4)) ∧
    (OrderBook.new LEVELS ORDERS 1).submit order (ReportBuffer.new 4) = .error fault

/-- Levels without order slots, and an index with more positions than a handle can name. -/
theorem planned_order_faults :
    FaultsAfterPlan 1 0 firstOrder (.expect "level order capacity was preflighted") ∧
      FaultsAfterPlan (2 ^ 31) 1 firstOrder (.expect "order index capacity was preflighted") := by
  have hprice : 0 < firstOrder.price.val := by decide
  have hquantity : 0 < firstOrder.quantity.val := by decide
  refine ⟨⟨.new 1, validateOrder_new rfl hprice hquantity,
      buildPlan_new Nat.one_pos hquantity rfl 4 4, ?_⟩,
    ⟨.new 1, validateOrder_new rfl hprice hquantity,
      buildPlan_new (Nat.two_pow_pos 31) hquantity rfl 4 4, ?_⟩⟩
  · exact submit_new_of_rest Nat.one_pos rfl hprice hquantity rfl (by decide) _
  · exact submit_first_large (ReportBuffer.new 4)

end DeterministicExchange.Book
