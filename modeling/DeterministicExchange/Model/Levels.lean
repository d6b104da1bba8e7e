import DeterministicExchange.Book.PriceTime
import DeterministicExchange.Container.KeyOrder
import DeterministicExchange.Model.Book

/-!
# Unsorted levels

The reference book keeps the levels of the logical book in some other order. Prices are unique on
a side and ids are unique in a book, so finding a level or a row, trading along the sorted prices,
and removing or appending a row give the same levels up to that order.
-/

namespace DeterministicExchange.Model

open Machine DeterministicExchange.Book
open Logical (Level)

variable {levels sorted pre post : ModelLevels} {level : Level} {price limit : PriceTicks}
  {side : Side} {order : ModelOrder} {orders xs ys : List ModelOrder} {remaining : Quantity}
  {fills : List ModelFill} {id : OrderId} {descending : Bool}

/-! ## Vectors split at an element -/

section Split

variable {α : Type} {before after : List α} {a b : α}

theorem readAt_split : readAt (before ++ a :: after) before.length = .ok a := by
  unfold readAt
  rw [List.getElem?_append_right le_rfl, Nat.sub_self, List.getElem?_cons_zero]

theorem findIdx?_split {p : α → Bool} (hbefore : ∀ x ∈ before, p x = false) (ha : p a = true) :
    (before ++ a :: after).findIdx? p = some before.length := by
  have hnone : before.findIdx? p = none := by
    rw [List.findIdx?_eq_none_iff]
    exact hbefore
  rw [List.findIdx?_append, hnone, List.findIdx?_cons, ha]
  simp

theorem set_split : (before ++ a :: after).set before.length b = before ++ b :: after := by
  rw [List.set_append_right _ _ le_rfl, Nat.sub_self, List.set_cons_zero]

theorem eraseIdx_split : (before ++ a :: after).eraseIdx before.length = before ++ after := by
  rw [List.eraseIdx_append_of_length_le le_rfl, Nat.sub_self, List.eraseIdx_cons_zero]

/-- A property that passes from later elements to earlier ones holds of a prefix. -/
theorem filter_eq_takeWhile {p : α → Bool} {l : List α}
    (h : l.Pairwise fun a b ↦ p b = true → p a = true) : l.filter p = l.takeWhile p := by
  induction l with
  | nil => rfl
  | cons a l ih =>
    obtain ⟨hhead, htail⟩ := List.pairwise_cons.mp h
    cases ha : p a with
    | true => rw [List.filter_cons_of_pos ha, List.takeWhile_cons_of_pos ha, ih htail]
    | false =>
      have hnone : l.filter p = [] := by
        rw [List.filter_eq_nil_iff]
        intro b hb hpb
        rw [hhead b hb hpb] at ha
        cases ha
      rw [List.filter_cons_of_neg (by simp [ha]), List.takeWhile_cons_of_neg (by simp [ha]), hnone]

end Split

/-! ## Prices -/

/-- Levels with prices of their own. -/
def Distinct (levels : ModelLevels) : Prop := (levels.map Level.price).Nodup

theorem Distinct.of_sorted
    (h : sorted.Pairwise fun a b ↦ SortedIndex.before descending a.price b.price = true) :
    Distinct sorted := by
  unfold Distinct
  rw [List.nodup_iff_pairwise_ne, List.pairwise_map]
  exact h.imp fun hbefore ↦ SortedIndex.before_ne hbefore

theorem Distinct.perm (h : Distinct sorted) (hperm : levels.Perm sorted) : Distinct levels :=
  (hperm.map _).nodup_iff.mpr h

theorem Distinct.tail (h : Distinct (level :: levels)) : Distinct levels := (List.nodup_cons.mp h).2

theorem Distinct.find? (h : Distinct levels) (hlevel : level ∈ levels) :
    levels.find? (fun l ↦ l.price = level.price) = some level :=
  (KeyOrder.find?_eq_some h).mpr ⟨hlevel, rfl⟩

/-- The only level with its price. -/
theorem Distinct.split (h : Distinct levels) (hlevel : level ∈ levels) :
    ∃ pre post, levels = pre ++ level :: post ∧ ∀ l ∈ pre ++ post, l.price ≠ level.price := by
  obtain ⟨pre, post, rfl⟩ := List.append_of_mem hlevel
  refine ⟨pre, post, rfl, ?_⟩
  unfold Distinct at h
  rw [List.map_append, List.map_cons] at h
  have hout := (List.nodup_cons.mp (List.nodup_middle.mp h)).1
  rw [← List.map_append] at hout
  intro l hl heq
  exact hout (List.mem_map.mpr ⟨l, hl, heq⟩)

theorem findIdx?_price (hpre : ∀ l ∈ pre, l.price ≠ level.price) :
    (pre ++ level :: post).findIdx? (fun l ↦ l.price = level.price) = some pre.length :=
  findIdx?_split (fun l hl ↦ decide_eq_false (hpre l hl)) (decide_eq_true rfl)

/-- The queue at a price does not depend on the order of the levels. -/
theorem queueAt_perm (h : Distinct sorted) (hperm : levels.Perm sorted) (price : PriceTicks) :
    Logical.queueAt price levels = Logical.queueAt price sorted := by
  cases hqueue : Logical.queueAt price sorted with
  | none =>
    rw [Logical.queueAt_eq_none] at hqueue ⊢
    exact fun level hlevel ↦ hqueue level (hperm.mem_iff.mp hlevel)
  | some queue =>
    obtain ⟨level, hfind, rfl⟩ := Option.map_eq_some_iff.mp hqueue
    obtain ⟨hmem, rfl⟩ := (KeyOrder.find?_eq_some h).mp hfind
    unfold Logical.queueAt
    rw [(h.perm hperm).find? (hperm.mem_iff.mpr hmem)]
    rfl

/-- The levels within the limit of a taker, of those listed best first. -/
def reached (side : Side) (limit : PriceTicks) (sorted : ModelLevels) : ModelLevels :=
  sorted.takeWhile fun level ↦ crosses side limit level.price

theorem reached_cons (h : crosses side limit level.price = true) (sorted : ModelLevels) :
    reached side limit (level :: sorted) = level :: reached side limit sorted := by
  unfold reached
  rw [List.takeWhile_cons, h]
  rfl

theorem reached_of_stop (h : crosses side limit level.price = false) (sorted : ModelLevels) :
    reached side limit (level :: sorted) = [] := by
  unfold reached
  rw [List.takeWhile_cons, h]
  rfl

/-- A taker reaches the sorted levels within its limit. -/
theorem crossingPrices_eq {order : NewOrder} (hperm : levels.Perm sorted)
    (hsorted : sorted.Pairwise fun a b ↦
      SortedIndex.before (Book.descending order.side.opposite) a.price b.price = true) :
    crossingPrices order levels =
      (reached order.side order.price sorted).map Level.price := by
  have hprefix : sorted.Pairwise fun a b ↦ crosses order.side order.price b.price = true →
      crosses order.side order.price a.price = true :=
    hsorted.imp fun hbefore ↦ Logical.crosses_of_noWorse (.inr hbefore)
  have hcrossing : ((levels.map Level.price).filter (crosses order.side order.price)).Perm
      ((sorted.filter fun level ↦ crosses order.side order.price level.price).map Level.price) := by
    rw [List.filter_map]
    exact (hperm.filter _).map _
  have hpairwise := (hsorted.filter fun level ↦ crosses order.side order.price level.price)
  unfold reached crossingPrices
  rw [← filter_eq_takeWhile hprefix]
  cases hside : order.side with
  | buy =>
    rw [hside] at hcrossing hpairwise
    refine KeyOrder.insertionSort_eq hcrossing ?_
    rw [List.pairwise_map]
    exact hpairwise.imp fun hbefore ↦ by
      simpa [SortedIndex.before, Book.descending, Side.opposite] using hbefore
  | sell =>
    rw [hside] at hcrossing hpairwise
    refine List.reverse_eq_iff.mpr (KeyOrder.insertionSort_eq
      (hcrossing.trans (List.reverse_perm _).symm) ?_)
    rw [List.pairwise_reverse, List.pairwise_map]
    exact hpairwise.imp fun hbefore ↦ by
      simpa [SortedIndex.before, Book.descending, Side.opposite] using hbefore

/-! ## Walks -/

theorem monus_self (quantity : Quantity) : Unsigned.monus quantity quantity = 0 :=
  Fin.ext (Nat.sub_self _)

/-- A queue that is not used up leaves nothing to trade. -/
theorem matchOrders_left (price : PriceTicks) (orders : List ModelOrder) (remaining : Quantity)
    (h : (Logical.matchOrders price orders remaining).2.1 ≠ []) :
    (Logical.matchOrders price orders remaining).2.2.val = 0 := by
  induction orders generalizing remaining with
  | nil => exact absurd rfl h
  | cons order orders ih =>
    unfold Logical.matchOrders at h ⊢
    split at h
    · next hzero => rwa [if_pos hzero]
    · next hzero =>
      rw [if_neg hzero]
      split at h
      · next hpartly =>
        rw [if_pos hpartly]
        rfl
      · next hpartly =>
        rw [if_neg hpartly]
        exact ih _ h

theorem simulateQueue_of_zero (hremaining : remaining.val = 0) (reportCount : ℕ) :
    simulateQueue orders remaining reportCount = .ok (remaining, reportCount) := by
  cases orders with
  | nil => rfl
  | cons order orders => exact if_pos hremaining

/-- Simulating a queue counts the fills of its match. -/
theorem simulateQueue_eq (price : PriceTicks) (orders : List ModelOrder) (remaining : Quantity)
    (reportCount : ℕ) :
    simulateQueue orders remaining reportCount =
      .ok ((Logical.matchOrders price orders remaining).2.2,
        reportCount + (Logical.matchOrders price orders remaining).1.length) := by
  induction orders generalizing remaining reportCount with
  | nil => rfl
  | cons order orders ih =>
    unfold simulateQueue Logical.matchOrders
    by_cases hzero : remaining.val = 0
    · rw [if_pos hzero, if_pos hzero]
      rfl
    rw [if_neg hzero, if_neg hzero]
    by_cases hpartly : remaining.val < order.quantity.val
    · have htraded : min remaining order.quantity = remaining := min_eq_left hpartly.le
      rw [if_pos hpartly, htraded, Run.subWord_of_le le_rfl, Run.ok_bind, monus_self,
        simulateQueue_of_zero rfl]
      rfl
    · have htraded : min remaining order.quantity = order.quantity :=
        min_eq_right (Nat.le_of_not_lt hpartly)
      rw [if_neg hpartly, htraded, Run.subWord_of_le (Nat.le_of_not_lt hpartly), Run.ok_bind, ih,
        List.length_cons, Nat.add_assoc, Nat.add_comm 1]

theorem simulate_of_zero {prices : List PriceTicks}
    (hfind : ∀ price ∈ prices, (levels.find? fun level ↦ level.price = price).isSome)
    (hremaining : remaining.val = 0) (reportCount : ℕ) :
    simulate levels prices remaining reportCount = .ok (remaining, reportCount) := by
  induction prices with
  | nil => rfl
  | cons price prices ih =>
    obtain ⟨level, hlevel⟩ := Option.isSome_iff_exists.mp (hfind price List.mem_cons_self)
    unfold simulate
    rw [hlevel, Run.expect_some, Run.ok_bind, simulateQueue_of_zero hremaining, Run.ok_bind]
    exact ih fun price hprice ↦ hfind price (List.mem_cons_of_mem _ hprice)

/-- Simulating the sorted levels counts the fills of their walk. -/
theorem simulate_eq
    (hfind : ∀ level ∈ sorted, levels.find? (fun l ↦ l.price = level.price) = some level)
    (remaining : Quantity) (reportCount : ℕ) :
    simulate levels ((reached side limit sorted).map Level.price) remaining reportCount =
      .ok ((Logical.matchLevels side limit sorted remaining).2.2,
        reportCount + (Logical.matchLevels side limit sorted remaining).1.length) := by
  induction sorted generalizing remaining reportCount with
  | nil => rfl
  | cons level sorted ih =>
    have hfind' (l : Level) (hl : l ∈ sorted) := hfind l (List.mem_cons_of_mem _ hl)
    cases hcrosses : crosses side limit level.price with
    | false =>
      rw [reached_of_stop hcrosses, Logical.matchLevels_of_stop (.inr (by simpa using hcrosses))]
      rfl
    | true =>
      have hfound : ∀ price ∈ (reached side limit sorted).map Level.price,
          (levels.find? fun level ↦ level.price = price).isSome := by
        intro price hprice
        obtain ⟨l, hl, rfl⟩ := List.mem_map.mp hprice
        rw [hfind' l ((List.takeWhile_sublist _).mem hl)]
        rfl
      rw [reached_cons hcrosses, List.map_cons, simulate, hfind level List.mem_cons_self,
        Run.expect_some, Run.ok_bind, simulateQueue_eq level.price, Run.ok_bind]
      by_cases hzero : remaining.val = 0
      · rw [Logical.matchLevels_of_stop (.inl hzero)]
        have hqueue : Logical.matchOrders level.price level.orders remaining =
            ([], level.orders, remaining) := by
          cases level.orders with
          | nil => rfl
          | cons order orders => exact if_pos hzero
        rw [hqueue]
        exact simulate_of_zero hfound hzero _
      · have hgo : ¬ (remaining.val = 0 ∨ (!crosses side limit level.price) = true) := by
          simp [hcrosses, hzero]
        have hleft := matchOrders_left level.price level.orders remaining
        unfold Logical.matchLevels
        rw [if_neg hgo]
        revert hleft
        rcases Logical.matchOrders level.price level.orders remaining with ⟨fills, rest, left⟩
        intro hleft
        cases rest with
        | nil =>
          dsimp only
          rw [ih hfind', List.length_append, Nat.add_assoc]
        | cons order orders => exact simulate_of_zero hfound (hleft (List.cons_ne_nil _ _)) _

/-- Trading in a queue makes the fills of its match. -/
theorem fillQueue_eq (price : PriceTicks) (orders : List ModelOrder) (remaining : Quantity)
    (fills : List ModelFill) :
    fillQueue price orders remaining fills =
      .ok ((Logical.matchOrders price orders remaining).2.1,
        (Logical.matchOrders price orders remaining).2.2,
        fills ++ (Logical.matchOrders price orders remaining).1) := by
  induction orders generalizing remaining fills with
  | nil => simp [fillQueue, Logical.matchOrders]
  | cons order orders ih =>
    unfold fillQueue Logical.matchOrders
    by_cases hzero : remaining.val = 0
    · rw [if_pos hzero, if_pos hzero, List.append_nil]
    rw [if_neg hzero, if_neg hzero]
    by_cases hpartly : remaining.val < order.quantity.val
    · have htraded : min remaining order.quantity = remaining := min_eq_left hpartly.le
      have hkept : (Unsigned.monus order.quantity remaining).val ≠ 0 := by
        rw [Unsigned.monus_val]
        omega
      dsimp only
      rw [if_pos hpartly, htraded, Run.subWord_of_le le_rfl, Run.ok_bind, monus_self,
        Run.subWord_of_le hpartly.le, Run.ok_bind, if_neg hkept]
      rfl
    · have htraded : min remaining order.quantity = order.quantity :=
        min_eq_right (Nat.le_of_not_lt hpartly)
      dsimp only
      rw [if_neg hpartly, htraded, Run.subWord_of_le (Nat.le_of_not_lt hpartly), Run.ok_bind,
        Run.subWord_of_le le_rfl, Run.ok_bind, monus_self, if_pos (show (0 : Quantity).val = 0 from rfl), ih,
        List.append_assoc]
      rfl

theorem fillLevels_of_zero {prices : List PriceTicks} (hremaining : remaining.val = 0) :
    fillLevels prices levels remaining fills = .ok (levels, remaining, fills) := by
  cases prices with
  | nil => rfl
  | cons price prices => exact if_pos hremaining

/-- Trading along the sorted levels makes their walk. -/
theorem fillLevels_eq (hdistinct : Distinct sorted) (hperm : levels.Perm sorted) (remaining : Quantity)
    (fills : List ModelFill) :
    ∃ rest, fillLevels ((reached side limit sorted).map Level.price) levels remaining fills =
      .ok (rest, (Logical.matchLevels side limit sorted remaining).2.2,
        fills ++ (Logical.matchLevels side limit sorted remaining).1) ∧
      rest.Perm (Logical.matchLevels side limit sorted remaining).2.1 := by
  induction sorted generalizing levels remaining fills with
  | nil => exact ⟨levels, by simp [reached, fillLevels, Logical.matchLevels], hperm⟩
  | cons level sorted ih =>
    cases hcrosses : crosses side limit level.price with
    | false =>
      rw [reached_of_stop hcrosses, Logical.matchLevels_of_stop (.inr (by simpa using hcrosses))]
      exact ⟨levels, by simp [fillLevels], hperm⟩
    | true =>
      rw [reached_cons hcrosses, List.map_cons]
      by_cases hzero : remaining.val = 0
      · rw [Logical.matchLevels_of_stop (.inl hzero), fillLevels_of_zero hzero, List.append_nil]
        exact ⟨levels, rfl, hperm⟩
      have hgo : ¬ (remaining.val = 0 ∨ (!crosses side limit level.price) = true) := by
        simp [hcrosses, hzero]
      obtain ⟨pre, post, rfl, hne⟩ :=
        (hdistinct.perm hperm).split (hperm.mem_iff.mpr List.mem_cons_self)
      have hothers : (pre ++ post).Perm sorted := (List.perm_middle.symm.trans hperm).cons_inv
      have hleft := matchOrders_left level.price level.orders remaining
      rw [fillLevels, if_neg hzero,
        findIdx?_price fun l hl ↦ hne l (List.mem_append_left _ hl), Run.expect_some, Run.ok_bind,
        readAt_split, Run.ok_bind, fillQueue_eq, Run.ok_bind, Logical.matchLevels, if_neg hgo]
      revert hleft
      rcases Logical.matchOrders level.price level.orders remaining with ⟨more, rest, left⟩
      intro hleft
      cases rest with
      | nil =>
        obtain ⟨after, hrun, hafter⟩ := ih hdistinct.tail hothers left (fills ++ more)
        dsimp only
        rw [if_pos rfl, eraseIdx_split, hrun, List.append_assoc]
        exact ⟨after, rfl, hafter⟩
      | cons order orders =>
        dsimp only
        rw [if_neg (List.cons_ne_nil _ _), set_split, fillLevels_of_zero (hleft (List.cons_ne_nil _ _))]
        exact ⟨_, rfl, List.perm_middle.trans (hothers.cons _)⟩

/-- The best price crosses as soon as some price does. -/
theorem bestPrice_crosses (side : Side) (limit : PriceTicks) (levels : ModelLevels) :
    (bestPrice side.opposite levels).any (fun best ↦ crosses side limit best) = true ↔
      ∃ level ∈ levels, crosses side limit level.price = true := by
  cases hlevels : levels with
  | nil => cases side <;> simp [bestPrice, Side.opposite]
  | cons level rest =>
    rw [← hlevels]
    have hne : levels.map Level.price ≠ [] := by simp [hlevels]
    cases side with
    | buy =>
      obtain ⟨best, hbest⟩ : ∃ best, (levels.map Level.price).min? = some best :=
        Option.isSome_iff_exists.mp (List.isSome_min?_of_ne_nil hne)
      obtain ⟨hmem, hle⟩ := List.min?_eq_some_iff.mp hbest
      obtain ⟨level, hlevel, rfl⟩ := List.mem_map.mp hmem
      unfold bestPrice Side.opposite
      dsimp only
      rw [hbest]
      constructor
      · intro hcrosses
        exact ⟨level, hlevel, hcrosses⟩
      · rintro ⟨other, hother, hcrosses⟩
        have hother : level.price ≤ other.price := hle _ (List.mem_map_of_mem hother)
        have hlimit : other.price.val ≤ limit.val := by simpa [crosses] using hcrosses
        simpa [crosses] using le_trans (Subtype.coe_le_coe.mpr hother) hlimit
    | sell =>
      obtain ⟨best, hbest⟩ : ∃ best, (levels.map Level.price).max? = some best :=
        Option.isSome_iff_exists.mp (List.isSome_max?_of_ne_nil hne)
      obtain ⟨hmem, hle⟩ := List.max?_eq_some_iff.mp hbest
      obtain ⟨level, hlevel, rfl⟩ := List.mem_map.mp hmem
      unfold bestPrice Side.opposite
      dsimp only
      rw [hbest]
      constructor
      · intro hcrosses
        exact ⟨level, hlevel, hcrosses⟩
      · rintro ⟨other, hother, hcrosses⟩
        have hother : other.price ≤ level.price := hle _ (List.mem_map_of_mem hother)
        have hlimit : limit.val ≤ other.price.val := by simpa [crosses] using hcrosses
        simpa [crosses] using le_trans hlimit (Subtype.coe_le_coe.mpr hother)

/-- The first of the sorted levels crosses as soon as some level does. -/
theorem head?_crosses
    (hsorted : sorted.Pairwise fun a b ↦
      SortedIndex.before (Book.descending side.opposite) a.price b.price = true) :
    sorted.head?.any (fun level ↦ crosses side limit level.price) = true ↔
      ∃ level ∈ sorted, crosses side limit level.price = true := by
  cases sorted with
  | nil => simp
  | cons level sorted =>
    constructor
    · intro hcrosses
      exact ⟨level, List.mem_cons_self, hcrosses⟩
    · rintro ⟨other, hother, hcrosses⟩
      rcases List.mem_cons.mp hother with rfl | hother
      · exact hcrosses
      · exact Logical.crosses_of_noWorse (.inr (List.rel_of_pairwise_cons hsorted hother)) hcrosses

/-! ## Rows -/

theorem pushRow_append (hpre : ∀ l ∈ pre, l.price ≠ price) :
    pushRow price order (pre ++ post) = pre ++ pushRow price order post := by
  induction pre with
  | nil => rfl
  | cons level pre ih =>
    rw [List.cons_append, pushRow, if_neg (hpre level List.mem_cons_self),
      ih fun l hl ↦ hpre l (List.mem_cons_of_mem _ hl), List.cons_append]

theorem appendOrder_perm_of_absent (hprice : ∀ l ∈ sorted, l.price ≠ price) :
    (Logical.appendOrder descending price order sorted).Perm (⟨price, [order]⟩ :: sorted) := by
  induction sorted with
  | nil => exact .refl _
  | cons level sorted ih =>
    rw [Logical.appendOrder, if_neg (hprice level List.mem_cons_self)]
    split
    · exact .refl _
    · exact ((ih fun l hl ↦ hprice l (List.mem_cons_of_mem _ hl)).cons level).trans (.swap _ _ _)

/-- Appending a row gives the same levels in either order. -/
theorem pushRow_perm
    (hsorted : sorted.Pairwise fun a b ↦ SortedIndex.before descending a.price b.price = true)
    (hperm : levels.Perm sorted) (price : PriceTicks) (order : ModelOrder) :
    (pushRow price order levels).Perm (Logical.appendOrder descending price order sorted) := by
  have hdistinct := Distinct.of_sorted hsorted
  by_cases hexists : ∃ level ∈ sorted, level.price = price
  · obtain ⟨level, hlevel, rfl⟩ := hexists
    obtain ⟨pre, post, rfl⟩ := List.append_of_mem hlevel
    obtain ⟨pre', post', rfl, hne⟩ := (hdistinct.perm hperm).split (hperm.mem_iff.mpr hlevel)
    have hothers : (pre' ++ post').Perm (pre ++ post) :=
      (List.perm_middle.symm.trans (hperm.trans List.perm_middle)).cons_inv
    have hbefore : ∀ l ∈ pre, SortedIndex.before descending l.price level.price = true :=
      fun l hl ↦ (List.pairwise_append.mp hsorted).2.2 l hl level List.mem_cons_self
    rw [Logical.appendOrder_of_price hbefore,
      pushRow_append fun l hl ↦ hne l (List.mem_append_left _ hl), pushRow, if_pos rfl]
    exact List.perm_middle.trans ((hothers.cons _).trans List.perm_middle.symm)
  · push Not at hexists
    have hprice : ∀ l ∈ levels, l.price ≠ price := fun l hl ↦ hexists l (hperm.mem_iff.mp hl)
    rw [← List.append_nil levels, pushRow_append hprice]
    exact (List.perm_append_singleton _ _).trans
      ((hperm.cons _).trans (appendOrder_perm_of_absent hexists).symm)

/-- Cancelling skips the levels without the order. -/
theorem cancelFrom_append (cancel : CancelOrder) (hpre : Logical.Without cancel.orderId pre) :
    cancelFrom cancel (pre ++ post) =
      (cancelFrom cancel post).map fun answer ↦ (answer.1, pre ++ answer.2) := by
  induction pre with
  | nil => simp
  | cons level pre ih =>
    have hfind : level.orders.find? (fun order ↦ order.id = cancel.orderId) = none := by
      rw [List.find?_eq_none]
      intro order horder
      simpa using hpre level List.mem_cons_self order horder
    rw [List.cons_append, cancelFrom, hfind, ih fun l hl ↦ hpre l (List.mem_cons_of_mem _ hl),
      Option.map_map]
    rfl

theorem cancelFrom_of_without (cancel : CancelOrder) (h : Logical.Without cancel.orderId levels) :
    cancelFrom cancel levels = none := by
  rw [← List.append_nil levels, cancelFrom_append cancel h]
  rfl

/-- Cancelling in the level that holds the order. -/
theorem cancelFrom_cons (cancel : CancelOrder) (hid : order.id = cancel.orderId)
    (hxs : ∀ x ∈ xs, x.id ≠ cancel.orderId) :
    cancelFrom cancel (⟨price, xs ++ order :: ys⟩ :: post) =
      some (if order.accountId ≠ cancel.accountId then
          (.error .notOrderOwner, ⟨price, xs ++ order :: ys⟩ :: post)
        else (.ok (order.id, order.accountId, order.quantity), Level.kept ⟨price, xs ++ ys⟩ ++ post)) := by
  have hskip : xs.find? (fun order ↦ order.id = cancel.orderId) = none := by
    rw [List.find?_eq_none]
    intro x hx
    simpa using hxs x hx
  have hfind : (xs ++ order :: ys).find? (fun order ↦ order.id = cancel.orderId) = some order := by
    rw [List.find?_append, hskip, List.find?_cons_of_pos (by simpa using hid)]
    rfl
  have herase : (xs ++ order :: ys).eraseP (fun order ↦ order.id = cancel.orderId) = xs ++ ys := by
    rw [List.eraseP_append_right _ (fun x hx ↦ by simpa using hxs x hx),
      List.eraseP_cons_of_pos (by simpa using hid)]
  unfold cancelFrom
  dsimp only
  rw [hfind, herase]
  dsimp only
  split
  · rfl
  · unfold Level.kept
    split <;> rfl

end DeterministicExchange.Model
