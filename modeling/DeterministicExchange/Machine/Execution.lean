import DeterministicExchange.Machine.Run

/-!
# Executions

A system answers each request with a reply and a new state, unless it faults.
An execution feeds it a finite sequence of requests. What a single request
preserves, an execution preserves; what relates two systems across a single
request relates them across an execution, with the same replies.
-/

namespace DeterministicExchange.Machine

variable {S T Q R : Type}

/-- The replies to a sequence of requests, and the state after the last one. -/
def execute (step : S → Q → Run (R × S)) : S → List Q → Run (List R × S)
  | state, [] => .ok ([], state)
  | state, request :: requests => do
    let (reply, state) ← step state request
    let (replies, state) ← execute step state requests
    return (reply :: replies, state)

theorem execute_nil (step : S → Q → Run (R × S)) (state : S) :
    execute step state [] = .ok ([], state) := rfl

theorem execute_cons {step : S → Q → Run (R × S)} {state state' : S} {request : Q} {reply : R}
    (hstep : step state request = .ok (reply, state')) (requests : List Q) :
    execute step state (request :: requests) =
      (execute step state' requests).map fun outcome ↦ (reply :: outcome.1, outcome.2) := by
  rw [execute, hstep]
  simp only [Run.ok_bind]
  cases execute step state' requests <;> rfl

/-- An execution that returns has made its first step and the rest. -/
theorem of_execute_cons {step : S → Q → Run (R × S)} {state state' : S} {request : Q} {requests : List Q}
    {replies : List R} (h : execute step state (request :: requests) = .ok (replies, state')) :
    ∃ reply state₁ replies', step state request = .ok (reply, state₁) ∧
      execute step state₁ requests = .ok (replies', state') ∧ replies = reply :: replies' := by
  obtain ⟨⟨reply, state₁⟩, hfirst, hafter⟩ := Run.bind_eq_ok.mp h
  obtain ⟨⟨replies', state₂⟩, hrest, heq⟩ := Run.bind_eq_ok.mp hafter
  obtain ⟨rfl, rfl⟩ := Prod.mk.inj (Except.ok.inj heq)
  exact ⟨reply, state₁, replies', hfirst, hrest, rfl⟩

/-- An execution without replies has not moved. -/
theorem eq_of_execute_nil {step : S → Q → Run (R × S)} {state state' : S} {requests : List Q}
    (h : execute step state requests = .ok ([], state')) : state' = state := by
  cases requests with
  | nil => exact (Prod.mk.inj (Except.ok.inj h)).2.symm
  | cons request requests =>
    obtain ⟨_, _, _, _, _, hreplies⟩ := of_execute_cons h
    simp at hreplies

/-- The last reply of an execution is that of a step to its last state. -/
theorem last_of_execute {step : S → Q → Run (R × S)} {state state' : S} {requests : List Q}
    {replies : List R} {reply : R} (h : execute step state requests = .ok (replies ++ [reply], state')) :
    ∃ before request, step before request = .ok (reply, state') := by
  induction requests generalizing state replies with
  | nil =>
    have hnil := congrArg List.length (Prod.mk.inj (Except.ok.inj h)).1
    simp at hnil
  | cons request requests ih =>
    obtain ⟨first, state₁, replies', hfirst, hrest, hreplies⟩ := of_execute_cons h
    cases replies with
    | nil =>
      obtain ⟨rfl, rfl⟩ := List.cons.inj hreplies
      rw [eq_of_execute_nil hrest]
      exact ⟨state, request, hfirst⟩
    | cons first replies =>
      obtain ⟨rfl, rfl⟩ := List.cons.inj hreplies
      exact ih hrest

theorem execute_concat {step : S → Q → Run (R × S)} {state state' state'' : S} {requests : List Q}
    {replies : List R} (hrun : execute step state requests = .ok (replies, state')) {request : Q} {reply : R}
    (hstep : step state' request = .ok (reply, state'')) :
    execute step state (requests ++ [request]) = .ok (replies ++ [reply], state'') := by
  induction requests generalizing state replies with
  | nil =>
    obtain ⟨rfl, rfl⟩ := Prod.mk.inj (Except.ok.inj hrun)
    rw [List.nil_append, execute_cons hstep, execute_nil]
    rfl
  | cons first requests ih =>
    obtain ⟨reply₁, state₁, replies', hfirst, hrest, rfl⟩ := of_execute_cons hrun
    rw [List.cons_append, execute_cons hfirst, ih hrest]
    rfl

/-- What each step keeps of the replies so far and of the state, an execution keeps. -/
theorem execute_keeps {step : S → Q → Run (R × S)} {invariant : List R → S → Prop}
    (hstep : ∀ past state request reply state', invariant past state →
      step state request = .ok (reply, state') → invariant (past ++ [reply]) state')
    {past replies : List R} {state state' : S} {requests : List Q} (h : invariant past state)
    (hrun : execute step state requests = .ok (replies, state')) : invariant (past ++ replies) state' := by
  induction requests generalizing past state replies with
  | nil =>
    obtain ⟨rfl, rfl⟩ := Prod.mk.inj (Except.ok.inj hrun)
    rwa [List.append_nil]
  | cons request requests ih =>
    obtain ⟨reply, state₁, replies', hfirst, hrest, rfl⟩ := of_execute_cons hrun
    rw [← List.singleton_append, ← List.append_assoc]
    exact ih (hstep past state request reply state₁ h hfirst) hrest

/-- Requests that never fault, and keep an invariant of the replies so far and of the state, never fault
in sequence. -/
theorem execute_total {step : S → Q → Run (R × S)} {invariant : List R → S → Prop} (requests : List Q)
    (hstep : ∀ past state, invariant past state → ∀ request ∈ requests,
      ∃ reply state', step state request = .ok (reply, state') ∧ invariant (past ++ [reply]) state')
    {state : S} (h : invariant [] state) :
    ∃ replies state', execute step state requests = .ok (replies, state') ∧ invariant replies state' := by
  induction requests generalizing state invariant with
  | nil => exact ⟨[], state, rfl, h⟩
  | cons request requests ih =>
    obtain ⟨reply, state₁, hrun, h₁⟩ := hstep [] state h request (by simp)
    -- the rest keeps the invariant of what follows the first reply
    have hafter (past : List R) (s : S) (hs : invariant (reply :: past) s) (q : Q) (hq : q ∈ requests) :
        ∃ reply' s', step s q = .ok (reply', s') ∧ invariant (reply :: (past ++ [reply'])) s' :=
      hstep (reply :: past) s hs q (List.mem_cons_of_mem _ hq)
    obtain ⟨replies, state₂, hrest, h₂⟩ := @ih (fun past s ↦ invariant (reply :: past) s) hafter _ h₁
    refine ⟨reply :: replies, state₂, ?_, h₂⟩
    rw [execute_cons hrun, hrest]
    rfl

/-- Requests that never fault on states with the invariant, and keep it, never fault in sequence. -/
theorem execute_invariant {step : S → Q → Run (R × S)} {invariant : S → Prop} (requests : List Q)
    (hstep : ∀ state, invariant state → ∀ request ∈ requests,
      ∃ reply state', step state request = .ok (reply, state') ∧ invariant state')
    {state : S} (h : invariant state) :
    ∃ replies state', execute step state requests = .ok (replies, state') ∧ invariant state' :=
  @execute_total S Q R step (fun _ ↦ invariant) requests (fun _ ↦ hstep) state h

/-- A call that the silent steps carry further, and a reply completes, is complete at the first reply. -/
theorem execute_returned {step : S → Q → Run (Option R × S)} {pending : S → Prop} {returned : R → S → Prop}
    (hsilent : ∀ state request state', pending state →
      step state request = .ok (none, state') → pending state')
    (hreply : ∀ state request reply state', pending state →
      step state request = .ok (some reply, state') → returned reply state')
    {state state' : S} {requests : List Q} {replies : List (Option R)} {reply : R} (h : pending state)
    (hquiet : ∀ other ∈ replies, other = none)
    (hrun : execute step state requests = .ok (replies ++ [some reply], state')) :
    returned reply state' := by
  induction requests generalizing state replies with
  | nil =>
    have hnil := congrArg List.length (Prod.mk.inj (Except.ok.inj hrun)).1
    simp at hnil
  | cons request requests ih =>
    obtain ⟨first, state₁, replies₁, hfirst, hrest, hreplies⟩ := of_execute_cons hrun
    cases replies with
    | nil =>
      obtain ⟨rfl, rfl⟩ := List.cons.inj hreplies
      rw [eq_of_execute_nil hrest]
      exact hreply state request reply state₁ h hfirst
    | cons silent replies =>
      obtain ⟨rfl, rfl⟩ := List.cons.inj hreplies
      obtain rfl := hquiet silent List.mem_cons_self
      exact ih (hsilent state request state₁ h hfirst)
        (fun other hmem ↦ hquiet other (List.mem_cons_of_mem _ hmem)) hrest

/-- Two systems that give the same reply to every request, from related states to related states,
give the same replies to every sequence of requests. -/
theorem execute_simulation {step : S → Q → Run (R × S)} {step' : T → Q → Run (R × T)}
    {related : S → T → Prop} (requests : List Q)
    (hstep : ∀ s t, related s t → ∀ request ∈ requests, ∃ reply s' t',
      step s request = .ok (reply, s') ∧ step' t request = .ok (reply, t') ∧ related s' t')
    {s : S} {t : T} (h : related s t) :
    ∃ replies s' t', execute step s requests = .ok (replies, s') ∧
      execute step' t requests = .ok (replies, t') ∧ related s' t' := by
  induction requests generalizing s t with
  | nil => exact ⟨[], s, t, rfl, rfl, h⟩
  | cons request requests ih =>
    obtain ⟨reply, s₁, t₁, hs, ht, h₁⟩ := hstep s t h request (by simp)
    obtain ⟨replies, s₂, t₂, hrest, hrest', h₂⟩ :=
      ih (fun s t hst q hq ↦ hstep s t hst q (List.mem_cons_of_mem _ hq)) h₁
    refine ⟨reply :: replies, s₂, t₂, ?_, ?_, h₂⟩
    · rw [execute_cons hs, hrest]
      rfl
    · rw [execute_cons ht, hrest']
      rfl

end DeterministicExchange.Machine
