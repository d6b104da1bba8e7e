import Mathlib.Tactic

/-!
# Positions of a list of trades

Every trade moves a quantity from its seller to its buyer. The position of a party
is what it has bought less what it has sold, and the positions of all parties sum
to zero.
-/

namespace DeterministicExchange.Ledger

variable {α : Type} [DecidableEq α] {id : α}

structure Trade (α : Type) where
  buyer : α
  seller : α
  quantity : ℕ

def bought (id : α) (trades : List (Trade α)) : ℕ :=
  ((trades.filter fun trade ↦ trade.buyer = id).map Trade.quantity).sum

def sold (id : α) (trades : List (Trade α)) : ℕ :=
  ((trades.filter fun trade ↦ trade.seller = id).map Trade.quantity).sum

def position (id : α) (trades : List (Trade α)) : ℤ := bought id trades - sold id trades

/-- What one trade moves on the position of a party. -/
def move (id : α) (trade : Trade α) : ℤ :=
  (if trade.buyer = id then (trade.quantity : ℤ) else 0) +
    if trade.seller = id then -(trade.quantity : ℤ) else 0

@[simp] theorem position_nil (id : α) : position id [] = 0 := rfl

theorem position_cons (id : α) (trade : Trade α) (trades : List (Trade α)) :
    position id (trade :: trades) = move id trade + position id trades := by
  have hbought : (bought id (trade :: trades) : ℤ) =
      (if trade.buyer = id then (trade.quantity : ℤ) else 0) + bought id trades := by
    unfold bought
    by_cases hbuyer : trade.buyer = id
    · simp [hbuyer]
    · simp [hbuyer]
  have hsold : (sold id (trade :: trades) : ℤ) =
      sold id trades - if trade.seller = id then -(trade.quantity : ℤ) else 0 := by
    unfold sold
    by_cases hseller : trade.seller = id
    · simp [hseller, add_comm]
    · simp [hseller]
  unfold position move
  rw [hbought, hsold]
  ring

theorem position_eq_sum (id : α) (trades : List (Trade α)) :
    position id trades = (trades.map (move id)).sum := by
  induction trades with
  | nil => rfl
  | cons trade trades ih => rw [position_cons, ih, List.map_cons, List.sum_cons]

theorem position_append (id : α) (trades trades' : List (Trade α)) :
    position id (trades ++ trades') = position id trades + position id trades' := by
  rw [position_eq_sum, position_eq_sum, position_eq_sum, List.map_append, List.sum_append]

/-- An amount that one party of a list carries. -/
theorem sum_single {ids : List α} (hids : ids.Nodup) {party : α} (hparty : party ∈ ids) (amount : ℤ) :
    (ids.map fun id ↦ if party = id then amount else 0).sum = amount := by
  induction ids with
  | nil => simp at hparty
  | cons id ids ih =>
    rw [List.nodup_cons] at hids
    rw [List.map_cons, List.sum_cons]
    by_cases hsame : party = id
    · have hrest : (ids.map fun id ↦ if party = id then amount else 0).sum = 0 := by
        apply List.sum_eq_zero
        intro n hn
        obtain ⟨other, hother, rfl⟩ := List.mem_map.mp hn
        have hne : party ≠ other := by
          rintro rfl
          exact hids.1 (hsame ▸ hother)
        exact if_neg hne
      rw [if_pos hsame, hrest, add_zero]
    · have hmem : party ∈ ids := (List.mem_cons.mp hparty).resolve_left hsame
      rw [if_neg hsame, ih hids.2 hmem, zero_add]

/-- Among parties that make all trades, positions sum to zero. -/
theorem sum_position {ids : List α} (hids : ids.Nodup) {trades : List (Trade α)}
    (hparties : ∀ trade ∈ trades, trade.buyer ∈ ids ∧ trade.seller ∈ ids) :
    (ids.map fun id ↦ position id trades).sum = 0 := by
  induction trades with
  | nil => simp
  | cons trade trades ih =>
    obtain ⟨hbuyer, hseller⟩ := hparties trade List.mem_cons_self
    have hmoves : (ids.map fun id ↦ move id trade).sum = 0 := by
      unfold move
      rw [List.sum_map_add, sum_single hids hbuyer, sum_single hids hseller, add_neg_cancel]
    simp only [position_cons]
    rw [List.sum_map_add, hmoves, ih fun t ht ↦ hparties t (List.mem_cons_of_mem _ ht), add_zero]

end DeterministicExchange.Ledger
