import DeterministicExchange.Book.Abstraction
import DeterministicExchange.Codec.Digest

/-!
# Digest of a book

`stableDigest` walks the level index of each side and the queue behind every entry.
The walk meets exactly what an export lists, so that the digest of a book is the
digest of its exported state, whatever slots its levels and orders occupy.
-/

namespace DeterministicExchange.Book

open Machine Codec

variable {LEVELS ORDERS : ℕ}

/-- The discriminant of a side. -/
def sideWord : Side → U64
  | .buy => wrapping 1
  | .sell => wrapping 2

def priceWord (price : PriceTicks) : U64 := decodeUnsigned 64 (encodeSigned price)

namespace OrderBook

def digestOrder (digest : U64) (order : RestingOrder) : U64 :=
  mix (mix (mix (mix digest order.id) (wrapping order.accountId.val)) order.quantity) order.sequence

def digestLevels (book : OrderBook LEVELS ORDERS) (side : Side) :
    List (PriceTicks × ℕ) → U64 → Run U64
  | [], digest => .ok digest
  | (_, levelIndex) :: entries, digest => do
    match ← Run.read (book.sideLevels side) levelIndex with
    | none => book.digestLevels side entries digest
    | some level =>
      let orders ← level.queue.values
      book.digestLevels side entries (orders.foldl digestOrder (mix digest (priceWord level.price)))

def digestSide (book : OrderBook LEVELS ORDERS) (digest : U64) (side : Side) : Run U64 :=
  book.digestLevels side (book.sideIndex side).entries (mix digest (sideWord side))

def stableDigest (book : OrderBook LEVELS ORDERS) : Run U64 := do
  let digest ← book.digestSide (mix digestBasis (wrapping book.instrument.val)) .buy
  book.digestSide digest .sell

end OrderBook

/-! ## The digest of an exported state -/

def BookOrderState.mixInto (digest : U64) (order : BookOrderState) : U64 :=
  mix (mix (mix (mix digest order.orderId) (wrapping order.accountId.val)) order.quantity) order.sequence

def BookLevelState.mixInto (digest : U64) (level : BookLevelState ORDERS) : U64 :=
  (level.orders.toList.take level.orderCount).foldl BookOrderState.mixInto
    (mix digest (priceWord level.price))

def BookState.mixSide (side : Side) (levels : List (BookLevelState ORDERS)) (digest : U64) : U64 :=
  levels.foldl BookLevelState.mixInto (mix digest (sideWord side))

def BookState.digest (state : BookState LEVELS ORDERS) : U64 :=
  mixSide .sell (state.asks.toList.take state.askLevelCount)
    (mixSide .buy (state.bids.toList.take state.bidLevelCount)
      (mix digestBasis (wrapping state.instrument.val)))

section Representation

variable {book : OrderBook LEVELS ORDERS} {place : OrderId → U32} {views : Views}

/-- Walking some levels of a side mixes their exported states. -/
theorem BookRep.digestLevels (hcap : indexCapacity LEVELS ORDERS ≤ 2 ^ 63) (h : BookRep book place views)
    (side : Side) (vs : List LevelView) (hvs : ∀ view ∈ vs, view ∈ views side) (digest : U64) :
    book.digestLevels side (vs.map fun view ↦ (view.price, view.handle)) digest =
      .ok ((vs.map fun view ↦ Logical.levelState ORDERS side view.toLevel).foldl
        BookLevelState.mixInto digest) := by
  induction vs generalizing digest with
  | nil => rfl
  | cons view vs ih =>
    have hview := hvs view List.mem_cons_self
    obtain ⟨level, hget, hrep⟩ := (h.sides side).level view hview
    have horders := BookRep.orders_le hcap (h.levels_pos hview)
    have hvalues := hrep.queue.queue.values (by unfold LinkedSlots.nil; omega)
    have hcount := hrep.queue.queue.length_add
    rw [storedNodes_length] at hcount
    have hlength : view.toLevel.orders.length ≤ ORDERS := by
      rw [toLevel_orders, List.length_map]
      omega
    have hlevel : ((storedNodes place view.nodes).map Prod.snd).foldl OrderBook.digestOrder
        (mix digest (priceWord level.price)) =
        BookLevelState.mixInto digest (Logical.levelState ORDERS side view.toLevel) := by
      unfold BookLevelState.mixInto
      rw [take_levelState side hlength, hrep.price, toLevel_orders]
      unfold storedNodes
      rw [List.map_map, List.map_map, List.foldl_map, List.foldl_map]
      rfl
    rw [List.map_cons, OrderBook.digestLevels, List.map_cons, List.foldl_cons, ← hlevel]
    simp only [Run.read_eq_ok.mpr hget, Run.ok_bind, hvalues]
    exact ih (fun v hv ↦ hvs v (List.mem_cons_of_mem _ hv)) _

theorem BookRep.digestSide (hcap : indexCapacity LEVELS ORDERS ≤ 2 ^ 63) (h : BookRep book place views)
    (side : Side) (digest : U64) :
    book.digestSide digest side = .ok (BookState.mixSide side
      (((views side).map LevelView.toLevel).map (Logical.levelState ORDERS side)) digest) := by
  unfold OrderBook.digestSide BookState.mixSide
  rw [(h.sides side).entries, h.digestLevels hcap side (views side) fun _ hv ↦ hv, List.map_map]
  rfl

/-- A represented book has the digest of its exported state. -/
theorem OrderBook.Represents.stableDigest {logical : Logical.Book}
    (hcap : indexCapacity LEVELS ORDERS ≤ 2 ^ 63) (h : book.Represents logical) :
    book.stableDigest = .ok (logical.state LEVELS ORDERS).digest := by
  obtain ⟨place, views, h, rfl⟩ := h
  have hlength (side : Side) : ((views side).map LevelView.toLevel).length ≤ LEVELS := by
    rw [List.length_map]
    exact (h.sides side).length_le
  unfold OrderBook.stableDigest BookState.digest
  rw [h.digestSide hcap, Run.ok_bind, h.digestSide hcap]
  set logical := Views.toBook book.instrument views with hlogical
  have hbids : (logical.state LEVELS ORDERS).bids.toList.take (logical.state LEVELS ORDERS).bidLevelCount =
      logical.bids.map (Logical.levelState ORDERS .buy) := take_state_bids (hlength .buy)
  have hasks : (logical.state LEVELS ORDERS).asks.toList.take (logical.state LEVELS ORDERS).askLevelCount =
      logical.asks.map (Logical.levelState ORDERS .sell) := take_state_asks (hlength .sell)
  rw [hbids, hasks]
  rfl

/-- Represented books that export the same state have the same digest. -/
theorem OrderBook.Represents.stableDigest_eq {book' : OrderBook LEVELS ORDERS}
    {logical logical' : Logical.Book} (hcap : indexCapacity LEVELS ORDERS ≤ 2 ^ 63)
    (h : book.Represents logical) (h' : book'.Represents logical')
    (hexport : book.exportState = book'.exportState) : book.stableDigest = book'.stableDigest := by
  rw [h.exportState hcap, h'.exportState hcap] at hexport
  rw [h.stableDigest hcap, h'.stableDigest hcap, Except.ok.inj hexport]

end Representation

/-- A built book after some calls. -/
def OrderBook.Obtained (book : OrderBook LEVELS ORDERS) : Prop :=
  ∃ (start : OrderBook LEVELS ORDERS) (calls : List BookCall) (replies : List BookReply),
    start.Built ∧ execute OrderBook.call start calls = .ok (replies, book)

theorem OrderBook.Obtained.represents {book : OrderBook LEVELS ORDERS} (hO : 0 < ORDERS)
    (hcap : indexCapacity LEVELS ORDERS ≤ 2 ^ 32) (h : book.Obtained) :
    ∃ logical, book.Represents logical := by
  obtain ⟨start, calls, replies, hbuilt, hrun⟩ := h
  have hstep (b : OrderBook LEVELS ORDERS) (h : ∃ logical, b.Represents logical) (call : BookCall)
      (_ : call ∈ calls) : ∃ reply b', b.call call = .ok (reply, b') ∧ ∃ logical, b'.Represents logical := by
    obtain ⟨logical, h⟩ := h
    exact h.call hO hcap call
  obtain ⟨_, book', hrun', hrep⟩ := execute_invariant calls hstep (hbuilt.represents hcap)
  obtain ⟨_, rfl⟩ := Prod.mk.inj (Except.ok.inj (hrun.symm.trans hrun'))
  exact hrep

end DeterministicExchange.Book
