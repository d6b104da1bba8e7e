import DeterministicExchange.Book.Abstraction
import DeterministicExchange.Gateway.Reachable

/-!
# Risk and book never drift apart

The agreement of every reachable gateway, in terms of the slots in which its
reservations, accounts and resting orders are stored.
-/

namespace DeterministicExchange

open Machine

/-! ## Stored orders -/

namespace Book

variable {LEVELS ORDERS : ℕ} {book : OrderBook LEVELS ORDERS} {logical : Logical.Book}

/-- The order stored at `location`, in a level of this price. -/
def OrderBook.RestsAtPrice (book : OrderBook LEVELS ORDERS) (location : OrderLocation)
    (price : PriceTicks) (order : RestingOrder) : Prop :=
  ∃ level, book.level? location.side location.levelIndex = some level ∧ level.price = price ∧
    level.getLive location.slot = some order

theorem OrderBook.RestsAt.exists_price {location : OrderLocation} {order : RestingOrder}
    (h : book.RestsAt location order) : ∃ price, book.RestsAtPrice location price order := by
  obtain ⟨level, hlevel, hlive⟩ := h
  exact ⟨level.price, level, hlevel, rfl, hlive⟩

theorem OrderBook.RestsAtPrice.restsAt {location : OrderLocation} {price : PriceTicks}
    {order : RestingOrder} (h : book.RestsAtPrice location price order) : book.RestsAt location order := by
  obtain ⟨level, hlevel, _, hlive⟩ := h
  exact ⟨level, hlevel, hlive⟩

namespace OrderBook.Represents

/-- Stored orders are entries of the logical book. -/
theorem entry_of_restsAtPrice (h : book.Represents logical) {location : OrderLocation}
    {price : PriceTicks} {order : RestingOrder} (hrests : book.RestsAtPrice location price order) :
    (location.side, price, order.toOrder) ∈ logical.entries := by
  obtain ⟨place, views, hrep, rfl⟩ := h
  obtain ⟨level, hlevel, rfl, hlive⟩ := hrests
  obtain ⟨view, hview, _, hlevelRep⟩ := hrep.sides.level?_eq_some hlevel
  obtain ⟨order', hmem, rfl⟩ := hlevelRep.mem_of_getLive hlive
  rw [Logical.mem_book_entries, toBook_side]
  refine ⟨view.toLevel, List.mem_map_of_mem hview, hlevelRep.price.symm, ?_⟩
  exact List.mem_map.mpr ⟨_, hmem, rfl⟩

theorem exists_restsAtPrice (h : book.Represents logical) {entry : Logical.Entry}
    (hentry : entry ∈ logical.entries) :
    ∃ location order, book.RestsAtPrice location entry.2.1 order ∧ location.side = entry.1 ∧
      order.toOrder = entry.2.2 := by
  obtain ⟨place, views, hrep, rfl⟩ := h
  rw [Logical.mem_book_entries, toBook_side] at hentry
  obtain ⟨level, hlevel, hprice, horder⟩ := hentry
  obtain ⟨view, hview, rfl⟩ := List.mem_map.mp hlevel
  obtain ⟨node, hnode, hnodeOrder⟩ := List.mem_map.mp horder
  obtain ⟨stored', hget, hlevelRep⟩ := (hrep.sides entry.1).level view hview
  refine ⟨⟨entry.1, view.handle, node.1⟩, stored place node.2, ⟨stored', ?_, ?_, ?_⟩, rfl, hnodeOrder⟩
  · unfold OrderBook.level?
    rw [hget]
    rfl
  · rw [hlevelRep.price]
    exact hprice
  · exact hlevelRep.getLive_of_mem hnode

theorem restsAt_unique (h : book.Represents logical) {location location' : OrderLocation}
    {order order' : RestingOrder} (hrests : book.RestsAt location order)
    (hrests' : book.RestsAt location' order') (hid : order.id = order'.id) :
    location = location' ∧ order = order' := by
  obtain ⟨place, views, hrep, _⟩ := h
  obtain ⟨x, hx, rfl⟩ := hrep.sides.restsAt_iff.mp hrests
  obtain ⟨x', hx', rfl⟩ := hrep.sides.restsAt_iff.mp hrests'
  obtain ⟨hlocation, rfl⟩ := hrep.index.unique _ _ _ _ hx hx' hid
  exact ⟨hlocation, rfl⟩

end OrderBook.Represents

end Book

/-! ## Agreement -/

open Book Risk

variable {ACCOUNTS RISK_ORDERS LEVELS ORDERS_PER_LEVEL REPORTS : ℕ}

/-- The reservation `r` is that of `order`, which rests at `location`. -/
structure Backs (r : Reservation) (location : OrderLocation) (order : RestingOrder) : Prop where
  id : r.orderId = order.id
  account : r.accountId = order.accountId
  side : r.side = location.side
  quantity : r.quantity = order.quantity

theorem Risk.AccountConsistent.perm {rs rs' : List ReservationRiskState} {account : AccountRiskState}
    (h : AccountConsistent rs account) (hperm : rs.Perm rs') : AccountConsistent rs' account where
  reserved := by
    intro side
    rw [h.reserved]
    exact (hperm.map _).sum_eq
  openOrders := by
    rw [h.openOrders]
    exact hperm.countP_eq _
  openOrders_le := h.openOrders_le
  long := h.long
  short := h.short

namespace Gateway

/-- Reservations and resting orders correspond one to one by order id, and the totals of every
account are those of its reservations, within its limits. -/
structure Agrees (gateway : Gateway ACCOUNTS RISK_ORDERS LEVELS ORDERS_PER_LEVEL) : Prop where
  reserved : ∀ slot r, gateway.risk.ReservesAt slot r →
    ∃ location order, gateway.book.RestsAt location order ∧ Backs r location order ∧
      ∀ location' order', gateway.book.RestsAt location' order' → r.orderId = order'.id →
        location' = location ∧ order' = order
  resting : ∀ location order, gateway.book.RestsAt location order →
    ∃ slot r, gateway.risk.ReservesAt slot r ∧ Backs r location order ∧
      ∀ slot' r', gateway.risk.ReservesAt slot' r' → r'.orderId = order.id → slot' = slot ∧ r' = r
  reserved_pos : ∀ slot r, gateway.risk.ReservesAt slot r → 0 < r.quantity.val
  resting_pos : ∀ location order, gateway.book.RestsAt location order → 0 < order.quantity.val
  account : ∀ (slot : ℕ) (account : AccountState), gateway.risk.accounts[slot]? = some (some account) →
    AccountConsistent gateway.risk.liveReservations account

variable {gateway : Gateway ACCOUNTS RISK_ORDERS LEVELS ORDERS_PER_LEVEL}

theorem backs_of_eq {r : Reservation} {location : OrderLocation} (price : PriceTicks)
    {order : RestingOrder} (h : Logical.backing (location.side, price, order.toOrder) = r.export) :
    Backs r location order := by
  obtain ⟨hid, haccount, hside, hquantity⟩ := ReservationRiskState.mk.inj h
  exact ⟨hid.symm, haccount.symm, hside.symm, hquantity.symm⟩

theorem Sound.agrees (h : gateway.Sound) : gateway.Agrees := by
  obtain ⟨logical, hrep, hinvariant⟩ := h
  have hpositive : ∀ location order, gateway.book.RestsAt location order → 0 < order.quantity.val := by
    intro location order hrests
    obtain ⟨price, hprice⟩ := hrests.exists_price
    exact hinvariant.book.compatible.quantity_pos _ (hrep.book.entry_of_restsAtPrice hprice)
  have hreserved : ∀ slot r, gateway.risk.ReservesAt slot r →
      ∃ location order, gateway.book.RestsAt location order ∧ Backs r location order := by
    intro slot r hreserves
    obtain ⟨entry, hentry, hbacking⟩ := hinvariant.backed_entry (hrep.risk.mem_of_reservesAt hreserves)
    obtain ⟨location, order, hrests, hside, horder⟩ := hrep.book.exists_restsAtPrice hentry
    refine ⟨location, order, hrests.restsAt, backs_of_eq entry.2.1 ?_⟩
    rw [hside, horder]
    exact hbacking
  refine ⟨?_, ?_, ?_, hpositive, ?_⟩
  · intro slot r hreserves
    obtain ⟨location, order, hrests, hbacks⟩ := hreserved slot r hreserves
    refine ⟨location, order, hrests, hbacks, ?_⟩
    intro location' order' hrests' hid
    exact hrep.book.restsAt_unique hrests' hrests (hid.symm.trans hbacks.id)
  · intro location order hrests
    obtain ⟨price, hprice⟩ := hrests.exists_price
    have hbacking := hinvariant.backed.mem_iff.mpr
      (List.mem_map_of_mem (hrep.book.entry_of_restsAtPrice hprice))
    obtain ⟨slot, r, hreserves, hexport⟩ := hrep.risk.exists_reservesAt hbacking
    have hbacks : Backs r location order := backs_of_eq price hexport.symm
    refine ⟨slot, r, hreserves, hbacks, ?_⟩
    intro slot' r' hreserves' hid
    exact hrep.risk.reservesAt_unique hreserves' hreserves (hid.trans hbacks.id.symm)
  · intro slot r hreserves
    obtain ⟨location, order, hrests, hbacks⟩ := hreserved slot r hreserves
    rw [hbacks.quantity]
    exact hpositive location order hrests
  · intro slot account haccount
    exact (hinvariant.risk.account account (hrep.risk.mem_of_account haccount)).perm
      hrep.risk.liveReservations_perm.symm

/-- In every reachable gateway risk and book agree. -/
theorem reachable_agrees (hc : Capacities ACCOUNTS RISK_ORDERS LEVELS ORDERS_PER_LEVEL)
    (h : gateway.Reachable) : gateway.Agrees := (h.sound hc).agrees

theorem sampleGateway_agrees :
    (∃ location order, sampleGateway.book.RestsAt location order) ∧ sampleGateway.Agrees :=
  ⟨⟨⟨.buy, 0, 0⟩, ⟨1, 7, _, 5, 1⟩, _, rfl, rfl⟩,
    reachable_agrees ⟨by decide, by decide, by decide, by decide⟩
      sampleGateway_reachableFromNew.reachable⟩

end Gateway

end DeterministicExchange
