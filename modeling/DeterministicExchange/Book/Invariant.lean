import DeterministicExchange.Machine.Execution
import DeterministicExchange.Book.Restore

/-!
# The representation invariant over whole runs

`OrderBook.Invariant` states the five linked structures of a book in terms of
its arrays alone: sorted level indexes with their slot pools, level slots,
order queues with their free lists, the shared order index, and the reverse
handles kept in resting orders. Every book that was built by `new` or by a
successful `fromState` satisfies it, and every call keeps it without a fault.
-/

namespace DeterministicExchange.Book

open Machine ProbeTable OrderIndex

variable {LEVELS ORDERS : ℕ}

/-! ## Calls -/

inductive BookCall where
  | submit (REPORTS : ℕ) (order : NewOrder) (reports : ReportBuffer REPORTS)
  | replace (replace : ReplaceOrder)
  | cancel (cancel : CancelOrder)

inductive BookReply where
  | submitted (result : Except RejectReason MatchSummary) (reports : List ExecutionReport)
  | replaced (result : Except RejectReason ReplacedOrder)
  | cancelled (result : Except RejectReason CancelledOrder)

def OrderBook.call (book : OrderBook LEVELS ORDERS) : BookCall → Run (BookReply × OrderBook LEVELS ORDERS)
  | .submit _ order reports => do
    let (result, book, reports) ← book.submit order reports
    return (.submitted result reports.entries, book)
  | .replace replace => do
    let (result, book) ← book.replace replace
    return (.replaced result, book)
  | .cancel cancel => do
    let (result, book) ← book.cancel cancel
    return (.cancelled result, book)

/-- A book as a caller can obtain one. -/
inductive OrderBook.Built : OrderBook LEVELS ORDERS → Prop where
  | new (instrument : InstrumentId) : Built (OrderBook.new LEVELS ORDERS instrument)
  | fromState {instrument : InstrumentId} {state : BookState LEVELS ORDERS}
      {book : OrderBook LEVELS ORDERS} (h : OrderBook.fromState instrument state = .ok (.ok book)) :
      Built book

/-! ## The invariant -/

/-- The order stored at `location`. -/
def OrderBook.RestsAt (book : OrderBook LEVELS ORDERS) (location : OrderLocation)
    (order : RestingOrder) : Prop :=
  ∃ level, book.level? location.side location.levelIndex = some level ∧
    level.getLive location.slot = some order

/-- One side: entries in strict price order, slots partitioned into occupied and free ones, and a
level behind an entry, with its price and a nonempty queue, exactly in the occupied slots. -/
structure SideInvariant (levels : Vector (Option (PriceLevel ORDERS)) LEVELS)
    (levelIndex : LevelIndex LEVELS) (descending : Bool) : Prop where
  sorted : levelIndex.entries.Pairwise fun a b ↦ SortedIndex.before descending a.1 b.1 = true
  slots : (levelIndex.entries.map Prod.snd ++ levelIndex.free).Perm (List.range LEVELS)
  indexed : ∀ i level, levels[i]? = some (some level) → (level.price, i) ∈ levelIndex.entries
  level : ∀ entry ∈ levelIndex.entries, ∃ level nodes free, levels[entry.2]? = some (some level) ∧
    level.price = entry.1 ∧ nodes ≠ [] ∧ level.Rep nodes free

/-- The whole book: both sides, and an order index that maps exactly the ids of the resting orders
to their locations, each entry reachable by probing and known to its order by `indexSlot`. -/
structure OrderBook.Invariant (book : OrderBook LEVELS ORDERS) : Prop where
  side : ∀ side, SideInvariant (book.sideLevels side) (book.sideIndex side) (descending side)
  probed : Probed (probeStart LEVELS ORDERS) book.index
  location : ∀ id location, book.index.location id = some location ↔
    ∃ order, book.RestsAt location order ∧ order.id = id
  entry : ∀ pos id encoded, slot book.index pos = some (id, encoded) →
    ∃ location order, book.RestsAt location order ∧ order.id = id ∧ order.indexSlot.val = pos ∧
      encodeLocation LEVELS ORDERS location = some encoded
  indexSlot : ∀ location order, book.RestsAt location order →
    book.index.findSlot order.id = some order.indexSlot.val

section Representation

variable {book : OrderBook LEVELS ORDERS} {place : OrderId → U32} {views : Views}

/-- A level slot is occupied exactly when some view describes it. -/
theorem SidesRep.level?_eq_some (h : SidesRep book place views) {side : Side} {i : ℕ}
    {level : PriceLevel ORDERS} :
    book.level? side i = some level →
      ∃ view ∈ views side, view.handle = i ∧ LevelRep place level view := by
  intro hlevel
  have hget : (book.sideLevels side)[i]? = some (some level) := by
    unfold OrderBook.level? at hlevel
    exact Option.join_eq_some_iff.mp hlevel
  have hi : i < LEVELS := by
    by_contra hle
    rw [Vector.getElem?_eq_none (by omega)] at hget
    simp at hget
  by_cases hmem : i ∈ (views side).map LevelView.handle
  · obtain ⟨view, hview, rfl⟩ := List.mem_map.mp hmem
    obtain ⟨level', hget', hrep⟩ := (h side).level view hview
    rw [hget] at hget'
    obtain rfl : level = level' := by simpa using hget'
    exact ⟨view, hview, rfl, hrep⟩
  · rw [(h side).vacant i hi hmem] at hget
    simp at hget

/-- The stored orders are the live ones. -/
theorem SidesRep.restsAt_iff (h : SidesRep book place views) {location : OrderLocation}
    {resting : RestingOrder} :
    book.RestsAt location resting ↔ ∃ order, Live views location order ∧ stored place order = resting := by
  constructor
  · rintro ⟨level, hlevel, hlive⟩
    obtain ⟨view, hview, hhandle, hrep⟩ := h.level?_eq_some hlevel
    obtain ⟨order, hmem, hstored⟩ := hrep.mem_of_getLive hlive
    exact ⟨order, ⟨view, hview, hhandle, hmem⟩, hstored⟩
  · rintro ⟨order, ⟨view, hview, hhandle, hmem⟩, rfl⟩
    obtain ⟨level, hget, hrep⟩ := (h location.side).level view hview
    refine ⟨level, ?_, hrep.getLive_of_mem hmem⟩
    unfold OrderBook.level?
    rw [← hhandle, hget]
    rfl

theorem BookRep.side_invariant (h : BookRep book place views) (side : Side) :
    SideInvariant (book.sideLevels side) (book.sideIndex side) (descending side) := by
  have hside := h.sides side
  refine ⟨hside.sorted.ordered, hside.sorted.partition, ?_, ?_⟩
  · intro i level hget
    have hlevel : book.level? side i = some level := by
      unfold OrderBook.level?
      rw [hget]
      rfl
    obtain ⟨view, hview, rfl, hrep⟩ := h.sides.level?_eq_some hlevel
    rw [hside.entries, hrep.price]
    exact List.mem_map.mpr ⟨view, hview, rfl⟩
  · intro entry hentry
    rw [hside.entries] at hentry
    obtain ⟨view, hview, rfl⟩ := List.mem_map.mp hentry
    obtain ⟨level, hget, hrep⟩ := hside.level view hview
    refine ⟨level, storedNodes place view.nodes, view.free, hget, hrep.price, ?_, hrep.queue⟩
    intro hnil
    exact h.occupied side view hview (List.map_eq_nil_iff.mp hnil)

theorem BookRep.invariant (hcap : indexCapacity LEVELS ORDERS ≤ 2 ^ 63) (h : BookRep book place views) :
    book.Invariant := by
  refine ⟨h.side_invariant, h.index.probed, ?_, ?_, ?_⟩
  · intro id location
    rw [h.index.location_eq_some hcap]
    constructor
    · rintro ⟨order, hlive, rfl⟩
      exact ⟨stored place order, h.sides.restsAt_iff.mpr ⟨order, hlive, rfl⟩, rfl⟩
    · rintro ⟨resting, hrests, rfl⟩
      obtain ⟨order, hlive, rfl⟩ := h.sides.restsAt_iff.mp hrests
      exact ⟨order, hlive, rfl⟩
  · intro pos id encoded hslot
    obtain ⟨location, order, hlive, rfl, hplace, hencode⟩ := (h.index.entry pos id encoded).mp hslot
    exact ⟨location, stored place order, h.sides.restsAt_iff.mpr ⟨order, hlive, rfl⟩, rfl, hplace,
      hencode⟩
  · intro location resting hrests
    obtain ⟨order, hlive, rfl⟩ := h.sides.restsAt_iff.mp hrests
    have hpos := h.index.capacity_pos hlive
    obtain ⟨encoded, _, hslot⟩ := h.index.slot_of_live hlive
    unfold OrderIndex.findSlot
    rw [if_neg hpos.ne', stored_id, probe_of_slot hcap (probeStart_lt hpos) h.index.probed hslot]
    rfl

theorem OrderBook.Represents.invariant (hcap : indexCapacity LEVELS ORDERS ≤ 2 ^ 63)
    {logical : Logical.Book} (h : book.Represents logical) : book.Invariant := by
  obtain ⟨place, views, hrep, _⟩ := h
  exact hrep.invariant hcap

end Representation

/-! ## Runs -/

theorem OrderBook.Built.represents (hcap : indexCapacity LEVELS ORDERS ≤ 2 ^ 32)
    {book : OrderBook LEVELS ORDERS} (h : book.Built) : ∃ logical, book.Represents logical := by
  cases h with
  | new instrument => exact ⟨_, OrderBook.Represents.new instrument⟩
  | @fromState instrument state _ hstate =>
    obtain ⟨result, hresult, hbook⟩ := OrderBook.fromState_spec (addressable hcap) instrument state
    rw [hstate] at hresult
    obtain ⟨logical, _, _, _, hrep⟩ := hbook book (Except.ok.inj hresult).symm
    exact ⟨logical, hrep⟩

/-- Every call returns and leaves a book that represents some logical book. -/
theorem OrderBook.Represents.call (hO : 0 < ORDERS) (hcap : indexCapacity LEVELS ORDERS ≤ 2 ^ 32)
    {book : OrderBook LEVELS ORDERS} {logical : Logical.Book} (h : book.Represents logical)
    (call : BookCall) :
    ∃ reply book', book.call call = .ok (reply, book') ∧ ∃ logical', book'.Represents logical' := by
  cases call with
  | submit REPORTS order reports =>
    have himp := h.submit hO hcap order reports
    cases hspec : logical.submit LEVELS ORDERS reports.remainingCapacity order with
    | error reason =>
      refine ⟨.submitted (.error reason) reports.entries, book, ?_, logical, h⟩
      rw [OrderBook.call, himp.of_error hspec]
      rfl
    | ok outcome =>
      obtain ⟨state, hrun, hrep, _⟩ := himp.of_ok hspec
      refine ⟨.submitted (.ok outcome.1) state.2.entries, state.1, ?_, _, hrep⟩
      rw [OrderBook.call, hrun]
      rfl
  | replace replace =>
    have himp := h.replace hO hcap replace
    cases hspec : logical.replace LEVELS ORDERS replace with
    | error reason =>
      refine ⟨.replaced (.error reason), book, ?_, logical, h⟩
      rw [OrderBook.call, himp.of_error hspec]
      rfl
    | ok outcome =>
      obtain ⟨book', hrun, hrep⟩ := himp.of_ok hspec
      refine ⟨.replaced (.ok outcome.1), book', ?_, _, hrep⟩
      rw [OrderBook.call, hrun]
      rfl
  | cancel cancel =>
    have himp := h.cancel hcap cancel
    cases hspec : logical.cancel cancel with
    | error reason =>
      refine ⟨.cancelled (.error reason), book, ?_, logical, h⟩
      rw [OrderBook.call, himp.of_error hspec]
      rfl
    | ok outcome =>
      obtain ⟨book', hrun, hrep⟩ := himp.of_ok hspec
      refine ⟨.cancelled (.ok outcome.1), book', ?_, _, hrep⟩
      rw [OrderBook.call, hrun]
      rfl

/-- No sequence of calls on a built book faults, and the invariant holds after each of them. -/
theorem orderBook_invariant_of_calls (hO : 1 ≤ ORDERS) (hcap : 4 * LEVELS * ORDERS ≤ 2 ^ 32)
    {book : OrderBook LEVELS ORDERS} (hbuilt : book.Built) (calls : List BookCall) :
    ∃ replies book', execute OrderBook.call book calls = .ok (replies, book') ∧ book'.Invariant := by
  have hcap' : indexCapacity LEVELS ORDERS ≤ 2 ^ 32 := (indexCapacity_eq LEVELS ORDERS).trans_le hcap
  have hstep (b : OrderBook LEVELS ORDERS) (h : ∃ logical, b.Represents logical) (call : BookCall)
      (_ : call ∈ calls) : ∃ reply b', b.call call = .ok (reply, b') ∧ ∃ logical, b'.Represents logical := by
    obtain ⟨logical, h⟩ := h
    exact h.call hO hcap' call
  obtain ⟨replies, book', hrun, logical, hrep⟩ :=
    execute_invariant calls hstep (hbuilt.represents hcap')
  exact ⟨replies, book', hrun, hrep.invariant (addressable hcap')⟩

theorem orderBook_invariant_after_submit_cancel :
    ∃ replies book', execute OrderBook.call (OrderBook.new 2 3 1)
        [.submit 4 ⟨1, 7, 1, ⟨100, by decide⟩, 5, 1, .buy, .gtc⟩ (ReportBuffer.new 4),
          .submit 4 ⟨2, 8, 1, ⟨99, by decide⟩, 9, 2, .sell, .gtc⟩ (ReportBuffer.new 4),
          .cancel ⟨2, 8, 1, 3⟩] = .ok (replies, book') ∧ book'.Invariant :=
  orderBook_invariant_of_calls (by decide) (by decide) (.new 1) _

end DeterministicExchange.Book
