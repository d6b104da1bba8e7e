import DeterministicExchange.Gateway.BookOrder
import DeterministicExchange.Gateway.OrderLimits
import DeterministicExchange.Risk.Invariant

/-!
# Rebuilding a gateway from untrusted state

`Gateway.fromState` accepts a state only after three separate checks: of the book,
of risk, and of the two against each other. Whatever the counts, lists and padding
of the state, it returns, and a gateway that it builds exports exactly the given
state and has every invariant of a gateway that processed commands.
-/

namespace DeterministicExchange

open Machine Book Risk

variable {ACCOUNTS RISK_ORDERS LEVELS ORDERS_PER_LEVEL : ℕ}

/-- Every reservation belongs to a registered account. -/
def Risk.RiskEngine.Owned {ORDERS : ℕ} (risk : RiskEngine ACCOUNTS ORDERS) : Prop :=
  ∀ slot r, risk.ReservesAt slot r →
    ∃ (i : ℕ) (account : AccountState), risk.accounts[i]? = some (some account) ∧ account.id = r.accountId

theorem Risk.RiskEngine.Represents.owned {ORDERS : ℕ} {risk : RiskEngine ACCOUNTS ORDERS}
    {state : RiskEngineState} (h : risk.Represents state) (hconsistent : state.Consistent) : risk.Owned := by
  intro slot r hreserves
  obtain ⟨account, hmem, hid⟩ := hconsistent.registered _ (h.mem_of_reservesAt hreserves)
  obtain ⟨i, hi⟩ := h.exists_account hmem
  exact ⟨i, account, hi, hid⟩

namespace Gateway

/-- The invariants of a gateway together: of the arrays of the book and of risk, of the agreement of
the two with the position and open-order limits, of the limits of every order, and of the order of
the book with its watermarks. -/
structure Intact (gateway : Gateway ACCOUNTS RISK_ORDERS LEVELS ORDERS_PER_LEVEL) : Prop where
  book : gateway.book.Invariant
  risk : gateway.risk.Invariant
  owned : gateway.risk.Owned
  agrees : gateway.Agrees
  limits : gateway.WithinLimits
  inOrder : gateway.InOrder

variable {gateway : Gateway ACCOUNTS RISK_ORDERS LEVELS ORDERS_PER_LEVEL} {logical : Logical.Gateway}

theorem Represents.intact (hc : Addressable ACCOUNTS RISK_ORDERS LEVELS ORDERS_PER_LEVEL)
    (h : gateway.Represents logical) (hinvariant : logical.Invariant LEVELS ORDERS_PER_LEVEL)
    (hlimited : logical.Limited) : gateway.Intact := by
  have hsound : gateway.Sound := ⟨logical, h, hinvariant⟩
  exact {
    book := h.book.invariant hc.book
    risk := h.risk.invariant hc.accounts hc.reservations hinvariant.risk.balanced
    owned := h.risk.owned hinvariant.risk
    agrees := hsound.agrees
    limits := h.withinLimits_iff.mpr hlimited
    inOrder := hsound.inOrder hc }

/-- Rebuilding returns for every state, and what it builds is intact and exports that state. -/
theorem fromState_sound (hc : Addressable ACCOUNTS RISK_ORDERS LEVELS ORDERS_PER_LEVEL)
    (state : GatewayState LEVELS ORDERS_PER_LEVEL) :
    ∃ result, fromState ACCOUNTS RISK_ORDERS state = .ok result ∧
      ∀ gateway : Gateway ACCOUNTS RISK_ORDERS LEVELS ORDERS_PER_LEVEL, result = .ok gateway →
        gateway.exportState = .ok state ∧ gateway.Intact := by
  obtain ⟨result, hrun, hspec⟩ := fromState_spec hc state
  refine ⟨result, hrun, ?_⟩
  intro gateway hresult
  obtain ⟨logical, rfl, hrestorable, hrep⟩ := hspec gateway hresult
  exact ⟨hrep.exportState hc, hrep.intact hc hrestorable.invariant hrestorable.limited⟩

/-! The state of the sample session, with one account and one resting order. -/

def sampleState : GatewayState 1 1 := sampleGateway.exportState.toOption.get sampleGateway_exports

theorem sampleState_accepted :
    ((fromState 1 1 sampleState).toOption.bind Except.toOption).isSome = true := by decide

theorem sampleState_restores_intact :
    ∃ gateway : Gateway 1 1 1 1, fromState 1 1 sampleState = .ok (.ok gateway) ∧
      gateway.exportState = .ok sampleState ∧ gateway.Intact := by
  have hsizes : Addressable 1 1 1 1 := ⟨by decide, by decide, by decide⟩
  obtain ⟨result, hrun, hsound⟩ := fromState_sound hsizes sampleState
  have haccepted := Run.eq_ok_ok_get sampleState_accepted
  rw [haccepted] at hrun
  obtain ⟨hexport, hintact⟩ := hsound _ (Except.ok.inj hrun).symm
  exact ⟨_, haccepted, hexport, hintact⟩

end Gateway

end DeterministicExchange
