import DeterministicExchange.Book.PriceTime

/-!
# Replacing an order

A replacement keeps the place and the sequence of the order exactly when the
price stays and the quantity shrinks. Otherwise the order leaves its level and
joins the tail of the level at its new price with the sequence of the request.
Nothing trades: no other order changes its quantity, its sequence or its place
among the others.
-/

namespace DeterministicExchange.Logical

open Machine DeterministicExchange.Book

variable {LEVELS ORDERS : ℕ} {side side' : Side} {price oldPrice : PriceTicks} {old : Order}
  {levels : List Level} {book book' : Book} {replace : ReplaceOrder} {replaced : ReplacedOrder}

/-- The order as it rests after its replacement. -/
def replacement (replace : ReplaceOrder) (sequence : SequenceNumber) : Order :=
  ⟨replace.orderId, replace.accountId, replace.quantity, sequence⟩

/-- What an accepted replacement does to a book. -/
structure Replaced (replace : ReplaceOrder) (replaced : ReplacedOrder) (side : Side)
    (oldPrice : PriceTicks) (old : Order) (book book' : Book) : Prop where
  resting : (side, oldPrice, old) ∈ book.entries
  id : old.id = replace.orderId
  owner : old.accountId = replace.accountId
  reply : replaced = ⟨replace.orderId, replace.accountId, old.quantity, replace.quantity, replace.price,
    replaced.priorityLost⟩
  priority : replaced.priorityLost = false ↔
    replace.price = oldPrice ∧ replace.quantity.val < old.quantity.val
  /-- One order has the id afterwards, on the same side, with the new price and quantity. -/
  afterwards : own replace.orderId book'.entries = [(side, replace.price,
    replacement replace (if replaced.priorityLost then replace.sequence else old.sequence))]
  keepsPlace : replaced.priorityLost = false → ∃ pre post xs ys,
    book.side side = pre ++ ⟨oldPrice, xs ++ old :: ys⟩ :: post ∧
    book'.side side = pre ++ ⟨oldPrice, xs ++ replacement replace old.sequence :: ys⟩ :: post
  joinsTail : replaced.priorityLost = true → ∃ ahead,
    queueAt replace.price (book'.side side) = some (ahead ++ [replacement replace replace.sequence])
  opposite : book'.side side.opposite = book.side side.opposite
  untouched : others replace.orderId (Logical.entries side (book'.side side)) =
    others replace.orderId (Logical.entries side (book.side side))
  /-- The levels in use are those of the other orders and the one of the new price. -/
  prices : ∀ price, price ∈ (book'.side side).map Level.price ↔
    price = replace.price ∨
      ∃ entry ∈ others replace.orderId (Logical.entries side (book.side side)), entry.2.1 = price

/-! ## One side -/

theorem mem_side_entries {entry : Entry} :
    entry ∈ Logical.entries side (book.side side) ↔ entry ∈ book.entries ∧ entry.1 = side := by
  rw [mem_entries, mem_book_entries]
  constructor
  · rintro ⟨rfl, h⟩
    exact ⟨h, rfl⟩
  · rintro ⟨h, rfl⟩
    exact ⟨rfl, h⟩

/-- The prices of levels in use are those of their orders. -/
theorem mem_prices (side : Side) (hnonempty : ∀ level ∈ levels, level.orders ≠ []) :
    price ∈ levels.map Level.price ↔ ∃ entry ∈ entries side levels, entry.2.1 = price := by
  constructor
  · intro hprice
    obtain ⟨level, hlevel, rfl⟩ := List.mem_map.mp hprice
    obtain ⟨order, horder⟩ := List.exists_mem_of_ne_nil _ (hnonempty level hlevel)
    exact ⟨(side, level.price, order), mem_entries.mpr ⟨rfl, level, hlevel, rfl, horder⟩, rfl⟩
  · rintro ⟨entry, hentry, rfl⟩
    obtain ⟨_, level, hlevel, hprice, _⟩ := mem_entries.mp hentry
    exact List.mem_map.mpr ⟨level, hlevel, hprice⟩

/-- An order that is exchanged for one with its id leaves that one as the only one with the id. -/
theorem own_of_exchanges {id : OrderId} {entry entry' : Entry} {es es' : List Entry}
    (h : Exchanges [entry] [entry'] es es') (hid : entry.2.2.id = id) (hid' : entry'.2.2.id = id)
    (hids : (es.map fun e ↦ e.2.2.id).Nodup) : own id es' = [entry'] := by
  have hsame : ∀ e ∈ [entry'], e.2.2.id = entry.2.2.id := by
    intro e he
    rw [List.mem_singleton.mp he, hid, hid']
  rw [← hid]
  exact h.own_eq hsame hids (by simp)

/-- A side made of one order of its own id and of others uses their prices. -/
theorem prices_of_own {id : OrderId} {others' : List Entry} {entry : Entry} (hside : entry.1 = side)
    (hnonempty : ∀ level ∈ book.side side, level.orders ≠ [])
    (hown : own id book.entries = [entry])
    (hothers : others id (Logical.entries side (book.side side)) = others') :
    price ∈ (book.side side).map Level.price ↔
      price = entry.2.1 ∨ ∃ other ∈ others', other.2.1 = price := by
  have hmem : entry ∈ book.entries ∧ entry.2.2.id = id := by
    rw [← mem_own, hown]
    exact List.mem_singleton_self entry
  rw [mem_prices side hnonempty, ← hothers]
  constructor
  · rintro ⟨found, hfound, rfl⟩
    by_cases hid : found.2.2.id = id
    · have hself : found ∈ own id book.entries := mem_own.mpr ⟨(mem_side_entries.mp hfound).1, hid⟩
      rw [hown] at hself
      exact .inl (by rw [List.mem_singleton.mp hself])
    · exact .inr ⟨found, mem_others.mpr ⟨hfound, hid⟩, rfl⟩
  · rintro (rfl | ⟨other, hother, rfl⟩)
    · exact ⟨entry, mem_side_entries.mpr ⟨hmem.1, hside⟩, rfl⟩
    · exact ⟨other, (mem_others.mp hother).1, rfl⟩

namespace Book

theorem owned_eq_ok {instrumentId : InstrumentId} {accountId : AccountId} {id : OrderId} {found : Entry} :
    book.owned instrumentId id accountId = .ok found ↔
      instrumentId = book.instrument ∧ book.find id = some found ∧ found.2.2.accountId = accountId := by
  constructor
  · intro h
    refine ⟨?_, owned_ok h⟩
    unfold owned at h
    by_contra hne
    rw [if_pos hne] at h
    exact absurd h nofun
  · rintro ⟨hinstrument, hfind, howner⟩
    unfold owned
    simp only [hinstrument, hfind, howner, ne_eq, not_true_eq_false, if_false]

/-- A replacement that keeps its place. -/
theorem Orderly.replace_keeps (h : book.Orderly)
    (h' : (book.setSide side (amendOrder replace.orderId replace.quantity (book.side side))).Orderly)
    (hmem : (side, oldPrice, old) ∈ book.entries) (hid : old.id = replace.orderId)
    (howner : old.accountId = replace.accountId) (hprice : replace.price = oldPrice)
    (hless : replace.quantity.val < old.quantity.val) :
    Replaced replace ⟨replace.orderId, replace.accountId, old.quantity, replace.quantity, replace.price,
        false⟩ side oldPrice old book
      (book.setSide side (amendOrder replace.orderId replace.quantity (book.side side))) := by
  obtain ⟨pre, post, xs, ys, hsplit⟩ := exists_splitAt h.ids hmem
  obtain ⟨hamend, hex⟩ := hsplit.amend replace.quantity
  have hreplacement : { old with quantity := replace.quantity } = replacement replace old.sequence := by
    unfold replacement
    rw [← hid, ← howner]
  rw [hreplacement, hid] at hamend hex
  have hown : own replace.orderId (book.setSide side
      (amendOrder replace.orderId replace.quantity (book.side side))).entries =
        [(side, oldPrice, replacement replace old.sequence)] := own_of_exchanges hex hid rfl h.ids
  have hothers : Logical.others replace.orderId (Logical.entries side ((book.setSide side
      (amendOrder replace.orderId replace.quantity (book.side side))).side side)) =
        Logical.others replace.orderId (Logical.entries side (book.side side)) := by
    rw [side_setSide]
    exact others_amendOrder side replace.orderId replace.quantity (book.side side)
  exact {
    resting := hmem
    id := hid
    owner := howner
    reply := rfl
    priority := ⟨fun _ ↦ ⟨hprice, hless⟩, fun _ ↦ rfl⟩
    afterwards := by
      rw [hown, hprice]
      rfl
    keepsPlace := fun _ ↦ ⟨pre, post, xs, ys, hsplit.side_eq, by rw [side_setSide, hamend]⟩
    joinsTail := nofun
    opposite := side_opposite_setSide ..
    untouched := hothers
    prices := fun price ↦ by
      rw [hprice]
      exact prices_of_own rfl (h'.nonempty side) hown hothers }

/-- A replacement that moves to the tail of its level. -/
theorem Orderly.replace_moves (h : book.Orderly)
    (h' : ((book.erase side replace.orderId).append side replace.price
      (replacement replace replace.sequence)).Orderly)
    (hmem : (side, oldPrice, old) ∈ book.entries) (hid : old.id = replace.orderId)
    (howner : old.accountId = replace.accountId)
    (hmoves : ¬ (replace.price = oldPrice ∧ replace.quantity.val < old.quantity.val)) :
    Replaced replace ⟨replace.orderId, replace.accountId, old.quantity, replace.quantity, replace.price,
        true⟩ side oldPrice old book
      ((book.erase side replace.orderId).append side replace.price
        (replacement replace replace.sequence)) := by
  obtain ⟨pre, post, xs, ys, hsplit⟩ := exists_splitAt h.ids hmem
  obtain ⟨herase, hex⟩ := hsplit.erase (h.nonempty side)
  rw [hid] at herase hex
  have hside : ((book.erase side replace.orderId).append side replace.price
      (replacement replace replace.sequence)).side side =
        appendOrder (descending side) replace.price (replacement replace replace.sequence)
          (eraseOrder replace.orderId (book.side side)) := by
    rw [append, side_setSide, Book.erase, side_setSide]
  have happend : Exchanges [] [(side, replace.price, replacement replace replace.sequence)]
      (book.erase side replace.orderId).entries
      ((book.erase side replace.orderId).append side replace.price
        (replacement replace replace.sequence)).entries :=
    (exchanges_append (descending side) side replace.price _ _).setSide
  have hown : own replace.orderId ((book.erase side replace.orderId).append side replace.price
      (replacement replace replace.sequence)).entries =
        [(side, replace.price, replacement replace replace.sequence)] :=
    own_of_exchanges (hex.trans_middle happend) hid rfl h.ids
  have hothers : Logical.others replace.orderId (Logical.entries side
      (((book.erase side replace.orderId).append side replace.price
        (replacement replace replace.sequence)).side side)) =
        Logical.others replace.orderId (Logical.entries side (book.side side)) := by
    rw [hside]
    calc
      _ = Logical.others replace.orderId (Logical.entries side
          (eraseOrder replace.orderId (book.side side))) :=
        others_appendOrder (descending side) side replace.price
          (replacement replace replace.sequence) _
      _ = _ := by rw [entries_eraseOrder, others_others]
  exact {
    resting := hmem
    id := hid
    owner := howner
    reply := rfl
    priority := ⟨fun hlost ↦ by simp at hlost, fun hkeeps ↦ absurd hkeeps hmoves⟩
    afterwards := hown
    keepsPlace := fun hlost ↦ by simp at hlost
    joinsTail := fun _ ↦ by
      rw [hside]
      exact queueAt_appendOrder _ _ _ _
    opposite := by rw [append, side_opposite_setSide, Book.erase, side_opposite_setSide]
    untouched := hothers
    prices := fun price ↦ prices_of_own rfl (h'.nonempty side) hown hothers }

theorem Orderly.replaced_of_ok (h : book.Orderly) (h' : book'.Orderly)
    (hok : book.replace LEVELS ORDERS replace = .ok (replaced, book')) :
    ∃ side oldPrice old, Replaced replace replaced side oldPrice old book book' := by
  unfold Book.replace at hok
  split at hok
  · exact absurd hok nofun
  next side oldPrice old howned =>
  obtain ⟨hfind, howner⟩ := owned_ok howned
  obtain ⟨hmem, hid⟩ := mem_of_find hfind
  simp only at hok
  split at hok
  · exact absurd hok nofun
  split at hok
  · exact absurd hok nofun
  split at hok
  · next hkeeps =>
    obtain ⟨rfl, rfl⟩ := Prod.mk.inj (Except.ok.inj hok)
    exact ⟨side, oldPrice, old, h.replace_keeps h' hmem hid howner hkeeps.1 hkeeps.2⟩
  · next hmoves =>
    split at hok
    · exact absurd hok nofun
    · obtain ⟨rfl, rfl⟩ := Prod.mk.inj (Except.ok.inj hok)
      exact ⟨side, oldPrice, old, h.replace_moves h' hmem hid howner hmoves⟩

/-! ## Crossing replacements -/

/-- A valid request of the owner whose new price reaches or passes the best opposing one. -/
def ReplaceCrosses (book : Book) (replace : ReplaceOrder) : Prop :=
  replace.instrumentId = book.instrument ∧ 0 < replace.price.val ∧ 0 < replace.quantity.val ∧
    ∃ side oldPrice old, (side, oldPrice, old) ∈ book.entries ∧ old.id = replace.orderId ∧
      old.accountId = replace.accountId ∧ replace.price ≠ oldPrice ∧
      ∃ best, (book.side side.opposite).head? = some best ∧
        crosses side replace.price best.price = true

theorem wouldTrade_eq_true {limit : PriceTicks} :
    book.wouldTrade side limit = true ↔
      ∃ best, (book.side side.opposite).head? = some best ∧ crosses side limit best.price = true := by
  unfold wouldTrade
  exact Option.any_eq_true _ _

theorem owned_ne_wouldCross (instrumentId : InstrumentId) (id : OrderId) (accountId : AccountId) :
    book.owned instrumentId id accountId ≠ .error .replaceWouldCross := by
  unfold owned
  split
  · exact nofun
  split
  · exact nofun
  split <;> exact nofun

theorem moveReject_eq_wouldCross :
    book.moveReject LEVELS ORDERS side oldPrice price = some .replaceWouldCross ↔
      price ≠ oldPrice ∧ book.wouldTrade side price = true := by
  unfold moveReject
  by_cases hcrosses : price ≠ oldPrice ∧ book.wouldTrade side price = true
  · rw [if_pos hcrosses]
    exact iff_of_true rfl hcrosses
  · rw [if_neg hcrosses]
    refine iff_of_false ?_ hcrosses
    split
    · split <;> exact nofun
    · split <;> exact nofun

theorem Orderly.replace_wouldCross (h : book.Orderly) :
    book.replace LEVELS ORDERS replace = .error .replaceWouldCross ↔ book.ReplaceCrosses replace := by
  constructor
  · intro hreject
    unfold Book.replace at hreject
    split at hreject
    · next reason howned =>
      rw [Except.error.inj hreject] at howned
      exact absurd howned (owned_ne_wouldCross _ _ _)
    next side oldPrice old howned =>
    obtain ⟨hinstrument, hfind, howner⟩ := owned_eq_ok.mp howned
    obtain ⟨hmem, hid⟩ := mem_of_find hfind
    simp only at hreject
    split at hreject
    · exact absurd hreject nofun
    next hprice =>
    split at hreject
    · exact absurd hreject nofun
    next hquantity =>
    split at hreject
    · exact absurd hreject nofun
    split at hreject
    · next reason hmove =>
      rw [Except.error.inj hreject] at hmove
      obtain ⟨hchanged, hwould⟩ := moveReject_eq_wouldCross.mp hmove
      exact ⟨hinstrument, Int.not_le.mp hprice, Nat.pos_of_ne_zero hquantity, side, oldPrice, old, hmem,
        hid, howner, hchanged, wouldTrade_eq_true.mp hwould⟩
    · exact absurd hreject nofun
  · rintro ⟨hinstrument, hprice, hquantity, side, oldPrice, old, hmem, hid, howner, hchanged, hbest⟩
    have hfind : book.find replace.orderId = some (side, oldPrice, old) :=
      hid ▸ find_of_mem h.ids hmem
    have howned : book.owned replace.instrumentId replace.orderId replace.accountId =
        .ok (side, oldPrice, old) := owned_eq_ok.mpr ⟨hinstrument, hfind, howner⟩
    have hmoves : ¬ (replace.price = oldPrice ∧ replace.quantity.val < old.quantity.val) :=
      fun hkeeps ↦ hchanged hkeeps.1
    have hmove : book.moveReject LEVELS ORDERS side oldPrice replace.price = some .replaceWouldCross :=
      moveReject_eq_wouldCross.mpr ⟨hchanged, wouldTrade_eq_true.mpr hbest⟩
    unfold Book.replace
    simp only [howned, if_neg (Int.not_le.mpr hprice), if_neg hquantity.ne', if_neg hmoves, hmove]

end Book

end DeterministicExchange.Logical

namespace DeterministicExchange.Book

open Machine OrderIndex

variable {LEVELS ORDERS : ℕ}

/-- What replacing does to a book, and when it refuses to cross. -/
theorem replace_semantics (hO : 1 ≤ ORDERS) (hcap : 4 * LEVELS * ORDERS ≤ 2 ^ 32)
    {book : OrderBook LEVELS ORDERS} (h : book.Invariant) (replace : ReplaceOrder) :
    (∀ replaced book', book.replace replace = .ok (.ok replaced, book') →
      (∃ side oldPrice old, Logical.Replaced replace replaced side oldPrice old book.toLogical
        book'.toLogical) ∧
      book'.toLogical.Orderly ∧ ∀ side, book'.topLevel side = book'.toLogical.topLevel side) ∧
    ((∃ book', book.replace replace = .ok (.error .replaceWouldCross, book')) ↔
      book.toLogical.ReplaceCrosses replace) := by
  have hcap' : indexCapacity LEVELS ORDERS ≤ 2 ^ 32 := (indexCapacity_eq LEVELS ORDERS).trans_le hcap
  have hrep := h.represents_toLogical hcap'
  have hreplace := hrep.replace hO hcap' replace
  constructor
  · intro replaced book' hrun
    cases hspec : book.toLogical.replace LEVELS ORDERS replace with
    | error reason =>
      have hrejected := hrun.symm.trans (hreplace.of_error hspec)
      exact absurd (Prod.mk.inj (Except.ok.inj hrejected)).1 nofun
    | ok outcome =>
      obtain ⟨book'', hrun', hrep'⟩ := hreplace.of_ok hspec
      obtain ⟨hreplaced, rfl⟩ := Prod.mk.inj (Except.ok.inj (hrun.symm.trans hrun'))
      obtain rfl := Except.ok.inj hreplaced
      rw [hrep'.toLogical_eq hcap']
      exact ⟨hrep.orderly.replaced_of_ok hrep'.orderly hspec, hrep'.orderly, hrep'.topLevel⟩
  · have hcross : book.toLogical.replace LEVELS ORDERS replace = .error .replaceWouldCross ↔
        book.toLogical.ReplaceCrosses replace := hrep.orderly.replace_wouldCross
    rw [← hcross]
    constructor
    · rintro ⟨book', hrun⟩
      obtain ⟨result, book'', hrun', hresult⟩ := hreplace.returns
      obtain ⟨rfl, _⟩ := Prod.mk.inj (Except.ok.inj (hrun.symm.trans hrun'))
      cases hspec : book.toLogical.replace LEVELS ORDERS replace with
      | error reason =>
        rw [hspec] at hresult
        exact congrArg _ (Except.error.inj hresult).symm
      | ok outcome =>
        rw [hspec] at hresult
        exact absurd hresult nofun
    · intro hspec
      exact ⟨book, hreplace.of_error hspec⟩

theorem fullBook_replace_semantics :
    ∃ replaced book', fullBook.replace ⟨1, 7, 1, 2, ⟨200, by decide⟩, 5⟩ = .ok (.ok replaced, book') ∧
      ∃ side oldPrice old, Logical.Replaced ⟨1, 7, 1, 2, ⟨200, by decide⟩, 5⟩ replaced side oldPrice old
        fullBook.toLogical book'.toLogical := by
  have hresult : (fullBook.replace ⟨1, 7, 1, 2, ⟨200, by decide⟩, 5⟩).map Prod.fst =
      .ok (.ok ⟨1, 7, 5, 5, ⟨200, by decide⟩, true⟩) := by decide
  obtain ⟨book', hrun⟩ := Run.exists_eq_ok hresult
  exact ⟨_, book', hrun,
    ((replace_semantics (by decide) (by decide) fullBook_invariant _).1 _ book' hrun).1⟩

end DeterministicExchange.Book
