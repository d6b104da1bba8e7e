import DeterministicExchange.Gateway.Reports

/-!
# What a command does to the book

An accepted command has the effect of one call of the book; a rejected one has no
effect on it.
-/

namespace DeterministicExchange.Logical.Gateway

open Machine DeterministicExchange.Book

/-- The call of the book behind a command, its result and its reports. -/
inductive BookEffect (LEVELS ORDERS capacity : ℕ) (book : Logical.Book) :
    Command → Result → List ExecutionReport → Logical.Book → Prop where
  | submitted {order : NewOrder} {summary : MatchSummary} {fills : List Fill} {book' : Logical.Book}
      (h : book.submit LEVELS ORDERS capacity order = .ok (summary, fills, book')) :
      BookEffect LEVELS ORDERS capacity book (.newOrder order) (.ok (.newOrder summary))
        (fills.map (Fill.report order)) book'
  | cancelled {cancel : CancelOrder} {cancelled : CancelledOrder} {book' : Logical.Book}
      (h : book.cancel cancel = .ok (cancelled, book')) :
      BookEffect LEVELS ORDERS capacity book (.cancelOrder cancel) (.ok (.cancelled cancelled)) [] book'
  | replaced {replace : ReplaceOrder} {replaced : ReplacedOrder} {book' : Logical.Book}
      (h : book.replace LEVELS ORDERS replace = .ok (replaced, book')) :
      BookEffect LEVELS ORDERS capacity book (.replaceOrder replace) (.ok (.replaced replaced)) [] book'
  | rejected (command : Command) (error : GatewayError) :
      BookEffect LEVELS ORDERS capacity book command (.error error) [] book

variable {RISK_ORDERS LEVELS ORDERS capacity : ℕ} {gateway : Logical.Gateway} {outcome : GatewayOutcome}

theorem release_book (gateway : Logical.Gateway) (orderId : OrderId) (result : Result) :
    (gateway.release orderId result).2.book = gateway.book := by
  unfold release
  split <;> rfl

/-- An accepted order has been submitted to the book. -/
theorem submitted_of_ok {order : NewOrder}
    (h : (gateway.processNewOrder RISK_ORDERS LEVELS ORDERS capacity order).1 = .ok outcome) :
    ∃ summary fills, outcome = .newOrder summary ∧
      gateway.book.submit LEVELS ORDERS capacity order = .ok (summary, fills,
        (gateway.processNewOrder RISK_ORDERS LEVELS ORDERS capacity order).2.1.book) ∧
      (gateway.processNewOrder RISK_ORDERS LEVELS ORDERS capacity order).2.2 =
        fills.map (Fill.report order) := by
  have hok : gateway.processNewOrder RISK_ORDERS LEVELS ORDERS capacity order = (.ok outcome,
      (gateway.processNewOrder RISK_ORDERS LEVELS ORDERS capacity order).2) := Prod.ext h rfl
  obtain ⟨summary, fills, book', hsummary, hsubmit, hreports⟩ := processNewOrder_ok hok
  refine ⟨summary, fills, hsummary, ?_, hreports⟩
  rw [hsubmit]
  suffices hbook : (gateway.processNewOrder RISK_ORDERS LEVELS ORDERS capacity order).2.1.book = book' by
    rw [hbook]
  unfold processNewOrder at h ⊢
  split
  · next hstale =>
    rw [if_pos hstale] at h
    exact absurd h (by simp)
  next hfresh =>
  rw [if_neg hfresh] at h
  dsimp only at h ⊢
  split
  · next herror =>
    rw [herror] at h
    exact absurd h (by simp)
  next reserved hreserved =>
  rw [hreserved] at h
  simp only [hsubmit] at h ⊢
  split
  · rfl
  split
  · exact release_book _ _ _
  · rfl

theorem cancelled_of_ok {cancel : CancelOrder} (h : (gateway.processCancel cancel).1 = .ok outcome) :
    ∃ cancelled, outcome = .cancelled cancelled ∧
      gateway.book.cancel cancel = .ok (cancelled, (gateway.processCancel cancel).2.book) := by
  unfold processCancel at h ⊢
  split at h
  · exact absurd h (by simp)
  split at h
  · exact absurd h (by simp)
  next cancelled book' hcancel =>
  split at h
  · exact absurd h (by simp)
  dsimp only at h
  split at h
  · exact absurd h (by simp)
  · simp only [hcancel]
    exact ⟨cancelled, (Except.ok.inj h).symm, rfl⟩

theorem replaced_of_ok {replace : ReplaceOrder}
    (h : (gateway.processReplace LEVELS ORDERS replace).1 = .ok outcome) :
    ∃ replaced, outcome = .replaced replaced ∧ gateway.book.replace LEVELS ORDERS replace =
      .ok (replaced, (gateway.processReplace LEVELS ORDERS replace).2.book) := by
  unfold processReplace at h ⊢
  split at h
  · exact absurd h (by simp)
  split at h
  · next replaced book' hreplace =>
    simp only [hreplace]
    exact ⟨replaced, (Except.ok.inj h).symm, rfl⟩
  · split at h
    · exact absurd h (by simp)
    · exact absurd h (by simp)

/-- Every command has the effect of one call of the book, or none. -/
theorem Invariant.bookEffect (hO : 0 < ORDERS) (h : gateway.Invariant LEVELS ORDERS)
    (RISK_ORDERS capacity : ℕ)
    (command : Command) :
    BookEffect LEVELS ORDERS capacity gateway.book command
      (gateway.processCommand RISK_ORDERS LEVELS ORDERS capacity command).1
      (gateway.processCommand RISK_ORDERS LEVELS ORDERS capacity command).2.2
      (gateway.processCommand RISK_ORDERS LEVELS ORDERS capacity command).2.1.book := by
  have hstep := h.processCommand hO RISK_ORDERS capacity command
  cases hresult : (gateway.processCommand RISK_ORDERS LEVELS ORDERS capacity command).1 with
  | error error =>
    obtain ⟨hbook, hreports⟩ := hstep.rejected hresult
    rw [hbook, hreports]
    exact .rejected command error
  | ok outcome =>
    unfold Logical.Gateway.processCommand at hresult ⊢
    split at hresult
    · exact absurd hresult (by simp)
    next next _ =>
    cases command with
    | newOrder order =>
      obtain ⟨summary, fills, rfl, hsubmit, hreports⟩ := submitted_of_ok hresult
      have hreports' : ({ gateway with expectedSequence := next }.dispatch RISK_ORDERS LEVELS ORDERS capacity
          (.newOrder order)).2.2 = fills.map (Fill.report order) := hreports
      rw [hreports']
      exact .submitted hsubmit
    | cancelOrder cancel =>
      obtain ⟨cancelled, rfl, hcancel⟩ := cancelled_of_ok hresult
      exact .cancelled hcancel
    | replaceOrder replace =>
      obtain ⟨replaced, rfl, hreplace⟩ := replaced_of_ok hresult
      exact .replaced hreplace

end DeterministicExchange.Logical.Gateway
