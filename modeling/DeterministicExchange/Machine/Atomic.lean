import DeterministicExchange.Machine.Run

/-!
# Atomic operations and what they implement

A fallible operation on a stored state is described by an abstract operation:
where the abstract operation rejects, the stored one rejects with the same
reason and leaves the whole stored state unchanged; where it succeeds, the
stored one returns the same value in a state that represents the abstract
outcome. In particular the stored operation never faults.
-/

namespace DeterministicExchange.Machine

variable {S L E A : Type}

def Implements (rep : S → L → Prop) (state : S) (spec : Except E (A × L))
    (run : Run (Except E A × S)) : Prop :=
  match spec with
  | .error reason => run = .ok (.error reason, state)
  | .ok (value, outcome) => ∃ state', run = .ok (.ok value, state') ∧ rep state' outcome

namespace Implements

variable {rep : S → L → Prop} {state : S} {spec : Except E (A × L)} {run : Run (Except E A × S)}

theorem reject {reason : E} (hspec : spec = .error reason) (hrun : run = .ok (.error reason, state)) :
    Implements rep state spec run := by
  rw [hspec]
  exact hrun

theorem accept {value : A} {outcome : L} (state' : S) (hspec : spec = .ok (value, outcome))
    (hrun : run = .ok (.ok value, state')) (hrep : rep state' outcome) :
    Implements rep state spec run := by
  rw [hspec]
  exact ⟨state', hrun, hrep⟩

/-- A rejected operation changes nothing. -/
theorem of_error (h : Implements rep state spec run) {reason : E} (hspec : spec = .error reason) :
    run = .ok (.error reason, state) := by
  rw [hspec] at h
  exact h

theorem of_ok (h : Implements rep state spec run) {value : A} {outcome : L}
    (hspec : spec = .ok (value, outcome)) :
    ∃ state', run = .ok (.ok value, state') ∧ rep state' outcome := by
  rw [hspec] at h
  exact h

/-- The operation returns, and its result is that of the abstract one. -/
theorem returns (h : Implements rep state spec run) :
    ∃ result state', run = .ok (result, state') ∧ result = spec.map Prod.fst := by
  cases spec with
  | error reason => exact ⟨_, _, h, rfl⟩
  | ok outcome =>
    obtain ⟨state', hrun, _⟩ := h
    exact ⟨_, _, hrun, rfl⟩

/-- What every accepted outcome preserves, the operation preserves; a rejection changes nothing. -/
theorem preserves {property : L → Prop} {logical : L} (h : Implements rep state spec run)
    (hrep : rep state logical) (hlogical : property logical)
    (hok : ∀ value outcome, spec = .ok (value, outcome) → property outcome) :
    ∃ result state', run = .ok (result, state') ∧ (∃ outcome, rep state' outcome ∧ property outcome) ∧
      ∀ reason, result = .error reason → state' = state := by
  cases hspec : spec with
  | error reason =>
    exact ⟨.error reason, state, h.of_error hspec, ⟨logical, hrep, hlogical⟩, fun _ _ ↦ rfl⟩
  | ok outcome =>
    obtain ⟨state', hrun, hrep'⟩ := h.of_ok hspec
    exact ⟨.ok outcome.1, state', hrun, ⟨outcome.2, hrep', hok outcome.1 outcome.2 hspec⟩, by simp⟩

/-- Two operations that implement the same abstract one, the second up to `view`, reject together or
succeed together. -/
theorem meet {T L' A' : Type} {rep' : T → L' → Prop} {state' : T} {run' : Run (Except E A' × T)}
    {view : A × L → A' × L'} (h : Implements rep state spec run)
    (h' : Implements rep' state' (spec.map view) run') :
    (∃ reason, run = .ok (.error reason, state) ∧ run' = .ok (.error reason, state')) ∨
      ∃ outcome next next', spec = .ok outcome ∧ run = .ok (.ok outcome.1, next) ∧ rep next outcome.2 ∧
        run' = .ok (.ok (view outcome).1, next') ∧ rep' next' (view outcome).2 := by
  cases hspec : spec with
  | error reason =>
    rw [hspec] at h'
    exact .inl ⟨reason, h.of_error hspec, h'.of_error rfl⟩
  | ok outcome =>
    rw [hspec] at h'
    obtain ⟨next, hrun, hrep⟩ := h.of_ok hspec
    obtain ⟨next', hrun', hrep'⟩ := h'.of_ok rfl
    exact .inr ⟨outcome, next, next', rfl, hrun, hrep, hrun', hrep'⟩

end Implements

end DeterministicExchange.Machine
