import DeterministicExchange.Gateway.Bisimulation

/-!
# Order of the book in reachable gateways

The two sides never cross, queues are in order of arrival, and sequences and order
ids stay below the next sequence and the watermarks.
-/

namespace DeterministicExchange

open Machine Book Risk

/-- The queue of a stored level, from head to tail. -/
theorem Book.OrderBook.Represents.queue_values {LEVELS ORDERS : ℕ} {book : OrderBook LEVELS ORDERS}
    {logical : Logical.Book} (hcap : indexCapacity LEVELS ORDERS ≤ 2 ^ 63) (h : book.Represents logical)
    {side : Side} {i : ℕ} {level : PriceLevel ORDERS} (hlevel : book.level? side i = some level) :
    ∃ orders, level.queue.values = .ok orders ∧
      ∃ queue ∈ logical.side side, orders.map RestingOrder.toOrder = queue.orders := by
  obtain ⟨place, views, hrep, rfl⟩ := h
  obtain ⟨view, hview, rfl, hlevelRep⟩ := hrep.sides.level?_eq_some hlevel
  have horders := BookRep.orders_le hcap (hrep.levels_pos hview)
  have hvalues := hlevelRep.queue.queue.values (by unfold LinkedSlots.nil; omega)
  refine ⟨_, hvalues, view.toLevel, ?_, ?_⟩
  · rw [toBook_side]
    exact List.mem_map_of_mem hview
  · unfold storedNodes
    rw [toLevel_orders, List.map_map, List.map_map]
    rfl

namespace Gateway

variable {ACCOUNTS RISK_ORDERS LEVELS ORDERS_PER_LEVEL : ℕ}

/-- The order that a book and its watermarks keep. -/
structure InOrder (gateway : Gateway ACCOUNTS RISK_ORDERS LEVELS ORDERS_PER_LEVEL) : Prop where
  top : ∀ location order, gateway.book.RestsAt location order → (gateway.topLevel location.side).isSome = true
  uncrossed : ∀ bid ask, gateway.topLevel .buy = some bid → gateway.topLevel .sell = some ask →
    bid.price.val < ask.price.val
  price_pos : ∀ location price order, gateway.book.RestsAtPrice location price order → 0 < price.val
  fifo : ∀ side i level, gateway.book.level? side i = some level →
    ∃ orders, level.queue.values = .ok orders ∧ orders.Pairwise fun a b ↦ a.sequence < b.sequence
  sequences : ∀ location location' order order', gateway.book.RestsAt location order →
    gateway.book.RestsAt location' order' → order.sequence = order'.sequence →
      location = location' ∧ order = order'
  sequence_pos : ∀ location order, gateway.book.RestsAt location order → 1 ≤ order.sequence.val
  sequence_lt : ∀ location order, gateway.book.RestsAt location order →
    order.sequence.val < gateway.expectedSequence.val
  id_le : ∀ location order, gateway.book.RestsAt location order →
    ∃ received, gateway.maximumReceivedOrderId = some received ∧ order.id ≤ received
  watermark_le : ∀ maximum, gateway.risk.maximumOrderId = some maximum →
    ∃ received, gateway.maximumReceivedOrderId = some received ∧ maximum ≤ received
  reservation_le : ∀ slot r, gateway.risk.ReservesAt slot r →
    ∃ maximum, gateway.risk.maximumOrderId = some maximum ∧ r.orderId ≤ maximum

variable {gateway : Gateway ACCOUNTS RISK_ORDERS LEVELS ORDERS_PER_LEVEL}

theorem Sound.inOrder (hc : Addressable ACCOUNTS RISK_ORDERS LEVELS ORDERS_PER_LEVEL)
    (h : gateway.Sound) : gateway.InOrder := by
  obtain ⟨logical, hrep, hinvariant⟩ := h
  have hcompatible := hinvariant.book.compatible
  have hentry (location : OrderLocation) (order : RestingOrder)
      (hrests : gateway.book.RestsAt location order) :
      ∃ price, (location.side, price, order.toOrder) ∈ logical.book.entries := by
    obtain ⟨price, hprice⟩ := hrests.exists_price
    exact ⟨price, hrep.book.entry_of_restsAtPrice hprice⟩
  have hmaximum : gateway.risk.maximumOrderId = logical.risk.maximumOrderId :=
    congrArg RiskEngineState.maximumOrderId hrep.risk.exportState
  refine ⟨?_, ?_, ?_, ?_, ?_, ?_, ?_, ?_, ?_, ?_⟩
  · intro location order hrests
    obtain ⟨price, hmem⟩ := hentry location order hrests
    obtain ⟨level, hlevel, _⟩ := Logical.mem_book_entries.mp hmem
    have htop : gateway.topLevel location.side = logical.book.topLevel location.side :=
      hrep.book.topLevel location.side
    rw [htop]
    unfold Logical.Book.topLevel
    rw [Option.isSome_map, List.isSome_head?]
    exact List.ne_nil_of_mem hlevel
  · intro bid ask hbid hask
    have hbid' : logical.book.topLevel .buy = some bid := (hrep.book.topLevel .buy).symm.trans hbid
    have hask' : logical.book.topLevel .sell = some ask := (hrep.book.topLevel .sell).symm.trans hask
    obtain ⟨bidLevel, hbidLevel, rfl⟩ := Option.map_eq_some_iff.mp hbid'
    obtain ⟨askLevel, haskLevel, rfl⟩ := Option.map_eq_some_iff.mp hask'
    exact hinvariant.book.uncrossed bidLevel hbidLevel askLevel haskLevel
  · intro location price order hrests
    exact hcompatible.price_pos _ (hrep.book.entry_of_restsAtPrice hrests)
  · intro side i level hlevel
    obtain ⟨orders, hvalues, queue, hqueue, horders⟩ := hrep.book.queue_values hc.book hlevel
    refine ⟨orders, hvalues, ?_⟩
    have hfifo := (hinvariant.book.level side queue hqueue).fifo
    rw [← horders, List.pairwise_map] at hfifo
    exact hfifo
  · intro location location' order order' hrests hrests' hsequence
    obtain ⟨price, hmem⟩ := hentry location order hrests
    obtain ⟨price', hmem'⟩ := hentry location' order' hrests'
    have hsame := List.inj_on_of_nodup_map hinvariant.book.sequences hmem hmem' hsequence
    have hid : order.id = order'.id := congrArg (fun e : Logical.Entry ↦ e.2.2.id) hsame
    exact hrep.book.restsAt_unique hrests hrests' hid
  · intro location order hrests
    obtain ⟨price, hmem⟩ := hentry location order hrests
    exact hcompatible.sequence_pos _ hmem
  · intro location order hrests
    obtain ⟨price, hmem⟩ := hentry location order hrests
    rw [hrep.expectedSequence]
    exact hinvariant.sequences _ hmem
  · intro location order hrests
    obtain ⟨price, hmem⟩ := hentry location order hrests
    rw [hrep.maximumReceived]
    exact hinvariant.id_le hmem
  · intro maximum hmax
    rw [hmaximum] at hmax
    rw [hrep.maximumReceived]
    exact hinvariant.watermark maximum hmax
  · intro slot r hreserves
    rw [hmaximum]
    exact hinvariant.risk.ordered.watermark _ (hrep.risk.mem_of_reservesAt hreserves)

/-- In every reachable gateway the book is uncrossed and in order. -/
theorem reachable_inOrder (hc : Capacities ACCOUNTS RISK_ORDERS LEVELS ORDERS_PER_LEVEL)
    (h : gateway.Reachable) : gateway.InOrder := (h.sound hc).inOrder hc.index.addressable

theorem sampleGateway_inOrder :
    (∃ location order, sampleGateway.book.RestsAt location order) ∧ sampleGateway.InOrder :=
  ⟨⟨⟨.buy, 0, 0⟩, ⟨1, 7, _, 5, 1⟩, _, rfl, rfl⟩,
    reachable_inOrder ⟨by decide, by decide, by decide, by decide⟩
      sampleGateway_reachableFromNew.reachable⟩

end Gateway

end DeterministicExchange
