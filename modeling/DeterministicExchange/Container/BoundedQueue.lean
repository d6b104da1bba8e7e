import Mathlib.Data.List.Basic

/-!
# Bounded queues

A first-in first-out queue with a capacity, as a list with its oldest value at
the head: a push is refused exactly when the queue is full.
-/

namespace DeterministicExchange.BoundedQueue

variable {T : Type}

def hasCapacity (N : ℕ) (queue : List T) : Bool := queue.length < N

/-- A refused value is handed back. -/
def tryPush (N : ℕ) (queue : List T) (value : T) : Except T Unit × List T :=
  if queue.length < N then (.ok (), queue ++ [value]) else (.error value, queue)

def tryPop : List T → Option T × List T
  | [] => (none, [])
  | value :: queue => (some value, queue)

theorem tryPush_of_lt {N : ℕ} {queue : List T} (value : T) (h : queue.length < N) :
    tryPush N queue value = (.ok (), queue ++ [value]) := if_pos h

theorem tryPush_of_le {N : ℕ} {queue : List T} (value : T) (h : N ≤ queue.length) :
    tryPush N queue value = (.error value, queue) := if_neg (Nat.not_lt.mpr h)

theorem tryPop_drop {values : List T} {n : ℕ} {value : T} (h : values[n]? = some value) :
    tryPop (values.drop n) = (some value, values.drop (n + 1)) := by
  obtain ⟨hn, rfl⟩ := List.getElem?_eq_some_iff.mp h
  rw [List.drop_eq_getElem_cons hn]
  rfl

end DeterministicExchange.BoundedQueue
