import DeterministicExchange.Book.Digest
import DeterministicExchange.Gateway.Reachable
import DeterministicExchange.Risk.Digest

/-!
# Digest of a gateway

The digest of a gateway combines those of its book and of risk with the next sequence
and the watermark of the received ids. The digest of the book is determined by the
exported state. That of risk is determined by it only together with the order in which
the slots hold accounts and live reservations: gateways with the same exported state
can differ there, and a rebuilt gateway differs from the one it was exported from.
-/

namespace DeterministicExchange

open Machine Book Codec Risk

variable {ACCOUNTS RISK_ORDERS LEVELS ORDERS_PER_LEVEL : ℕ}

namespace Gateway

def stableDigest (gateway : Gateway ACCOUNTS RISK_ORDERS LEVELS ORDERS_PER_LEVEL) : Run U64 := do
  let session := (rotateLeft gateway.expectedSequence 29).val ^^^
    (rotateLeft (gateway.maximumReceivedOrderId.getD (wrapping 0)) 43).val
  let book ← gateway.book.stableDigest
  return wrapping ((rotateLeft book 17).val ^^^ gateway.risk.stableDigest.val ^^^ session)

variable {gateway gateway' : Gateway ACCOUNTS RISK_ORDERS LEVELS ORDERS_PER_LEVEL}
  {logical logical' : Logical.Gateway}

/-- What gateways with the same exported state share. -/
structure SameState (gateway gateway' : Gateway ACCOUNTS RISK_ORDERS LEVELS ORDERS_PER_LEVEL)
    (state : RiskEngineState) : Prop where
  book : gateway.book.stableDigest = gateway'.book.stableDigest
  risk : gateway.risk.Represents state
  risk' : gateway'.risk.Represents state
  expectedSequence : gateway.expectedSequence = gateway'.expectedSequence
  maximumReceived : gateway.maximumReceivedOrderId = gateway'.maximumReceivedOrderId

theorem Represents.sameState (hc : Addressable ACCOUNTS RISK_ORDERS LEVELS ORDERS_PER_LEVEL)
    (h : gateway.Represents logical) (h' : gateway'.Represents logical')
    (hexport : gateway.exportState = gateway'.exportState) : gateway.SameState gateway' logical.risk := by
  rw [h.exportState hc, h'.exportState hc] at hexport
  obtain ⟨hinstrument, hbook, hrisk, hexpected, hmaximum⟩ := GatewayState.mk.inj (Except.ok.inj hexport)
  have hbookExport : gateway.book.exportState = gateway'.book.exportState := by
    rw [h.book.exportState hc.book, h'.book.exportState hc.book, hbook]
  exact {
    book := h.book.stableDigest_eq hc.book h'.book hbookExport
    risk := h.risk
    risk' := hrisk ▸ h'.risk
    expectedSequence := h.expectedSequence.trans (hexpected.trans h'.expectedSequence.symm)
    maximumReceived := h.maximumReceived.trans (hmaximum.trans h'.maximumReceived.symm) }

theorem SameState.stableDigest_eq {state : RiskEngineState} (h : gateway.SameState gateway' state)
    (hsame : gateway.risk.SameSlotOrder gateway'.risk) : gateway.stableDigest = gateway'.stableDigest := by
  unfold stableDigest
  rw [h.book, h.risk.stableDigest_eq_of_sameSlotOrder h.risk' hsame, h.expectedSequence, h.maximumReceived]

theorem fromState_risk {state : GatewayState LEVELS ORDERS_PER_LEVEL}
    (hrun : fromState ACCOUNTS RISK_ORDERS state = .ok (.ok gateway)) :
    RiskEngine.fromState ACCOUNTS RISK_ORDERS state.risk = .ok (.ok gateway.risk) := by
  unfold fromState at hrun
  obtain ⟨book, _, hrun⟩ := Run.bind_eq_ok.mp hrun
  cases book with
  | error error => simp at hrun
  | ok book =>
    obtain ⟨risk, hrisk, hrun⟩ := Run.bind_eq_ok.mp hrun
    cases risk with
    | error error => simp at hrun
    | ok risk =>
      rw [hrisk]
      simp only at hrun
      split at hrun
      · simp at hrun
      · obtain rfl := Except.ok.inj (Except.ok.inj hrun)
        rfl

/-- Gateways and risk engines that export the same state mix the same words, and then have the same
digest, exactly when their slots hold accounts and live reservations in the same order; a rebuilt
gateway does so exactly when the original holds them in ascending order. Books that export the same
state always have the same digest. -/
theorem stableDigest_of_slotOrder (hc : Capacities ACCOUNTS RISK_ORDERS LEVELS ORDERS_PER_LEVEL) :
    (∀ gateway gateway' : Gateway ACCOUNTS RISK_ORDERS LEVELS ORDERS_PER_LEVEL, gateway.Reachable →
      gateway'.Reachable → gateway.exportState = gateway'.exportState →
        (gateway.risk.digestWords = gateway'.risk.digestWords ↔
          gateway.risk.SameSlotOrder gateway'.risk) ∧
        (gateway.risk.SameSlotOrder gateway'.risk → gateway.stableDigest = gateway'.stableDigest)) ∧
    (∀ (gateway restored : Gateway ACCOUNTS RISK_ORDERS LEVELS ORDERS_PER_LEVEL)
      (state : GatewayState LEVELS ORDERS_PER_LEVEL), gateway.Reachable →
      gateway.exportState = .ok state → fromState ACCOUNTS RISK_ORDERS state = .ok (.ok restored) →
        (restored.risk.digestWords = gateway.risk.digestWords ↔ gateway.risk.SlotsAscending) ∧
        (gateway.risk.SlotsAscending → restored.stableDigest = gateway.stableDigest)) ∧
    (∀ book book' : OrderBook LEVELS ORDERS_PER_LEVEL, book.Obtained → book'.Obtained →
      book.exportState = book'.exportState → book.stableDigest = book'.stableDigest) ∧
    ∀ engine engine' : RiskEngine ACCOUNTS RISK_ORDERS, engine.Obtained → engine'.Obtained →
      engine.exportState = engine'.exportState →
        (engine.digestWords = engine'.digestWords ↔ engine.SameSlotOrder engine') ∧
        (engine.SameSlotOrder engine' → engine.stableDigest = engine'.stableDigest) := by
  refine ⟨?_, ?_, ?_, ?_⟩
  · intro gateway gateway' h h' hexport
    obtain ⟨logical, hrep, _⟩ := h.sound hc
    obtain ⟨logical', hrep', _⟩ := h'.sound hc
    have hsame := hrep.sameState hc.index.addressable hrep' hexport
    exact ⟨hsame.risk.digestWords_eq_iff hsame.risk', hsame.stableDigest_eq⟩
  · intro gateway restored state h hexport hrestored
    obtain ⟨logical, hrep, _⟩ := h.sound hc
    obtain ⟨_, hrun, hspec⟩ := fromState_spec hc.index.addressable state
    obtain ⟨logical', hstate, _, hrep'⟩ := hspec restored (Except.ok.inj (hrestored.symm.trans hrun)).symm
    have hexport' : restored.exportState = gateway.exportState := by
      rw [hexport, hrep'.exportState hc.index.addressable, hstate]
    have hsame := hrep'.sameState hc.index.addressable hrep hexport'
    have hascending := RiskEngine.fromState_ascending (fromState_risk hrestored)
    have horder : restored.risk.SameSlotOrder gateway.risk ↔ gateway.risk.SlotsAscending :=
      ⟨fun hsame ↦ hsame.ascending hascending,
        fun h ↦ hsame.risk.sameSlotOrder_of_ascending hsame.risk' hascending h⟩
    exact ⟨(hsame.risk.digestWords_eq_iff hsame.risk').trans horder,
      fun h ↦ hsame.stableDigest_eq (horder.mpr h)⟩
  · intro book book' h h' hexport
    obtain ⟨logical, hrep⟩ := h.represents hc.orders hc.book
    obtain ⟨logical', hrep'⟩ := h'.represents hc.orders hc.book
    exact hrep.stableDigest_eq (addressable hc.book) hrep' hexport
  · intro engine engine' h h' hexport
    obtain ⟨state, hrep, _⟩ := h.sound hc.accounts hc.reservations
    obtain ⟨state', hrep', _⟩ := h'.sound hc.accounts hc.reservations
    rw [hrep.exportState, hrep'.exportState] at hexport
    subst hexport
    exact ⟨hrep.digestWords_eq_iff hrep', hrep.stableDigest_eq_of_sameSlotOrder hrep'⟩

/-! ## Two registrations

The accounts 7 and 8, registered in both orders. -/

def registeredPair (first second : AccountId) : Run (RiskEngine 2 1) := do
  let (_, risk) ← (RiskEngine.new 2 1).registerAccount first sampleLimits
  let (_, risk) ← risk.registerAccount second sampleLimits
  return risk

theorem registeredPair_fresh {first second : AccountId} {risk : RiskEngine 2 1}
    (h : registeredPair first second = .ok risk) : RiskEngine.Fresh risk := by
  obtain ⟨⟨_, risk₁⟩, hfirst, h⟩ := Run.bind_eq_ok.mp h
  obtain ⟨⟨_, risk₂⟩, hsecond, h⟩ := Run.bind_eq_ok.mp h
  obtain rfl := Except.ok.inj h
  exact .registerAccount (.registerAccount .new hfirst) hsecond

theorem ascendingPair_registered : (registeredPair 7 8).toOption.isSome = true := by decide

def ascendingPair : Gateway 2 1 1 1 :=
  Gateway.new ((registeredPair 7 8).toOption.get ascendingPair_registered) 1

theorem descendingPair_registered : (registeredPair 8 7).toOption.isSome = true := by decide

def descendingPair : Gateway 2 1 1 1 :=
  Gateway.new ((registeredPair 8 7).toOption.get descendingPair_registered) 1

theorem ascendingPair_reachable : ascendingPair.ReachableFromNew :=
  .start ⟨_, 1, registeredPair_fresh (Run.eq_ok_get ascendingPair_registered), rfl⟩

theorem descendingPair_reachable : descendingPair.ReachableFromNew :=
  .start ⟨_, 1, registeredPair_fresh (Run.eq_ok_get descendingPair_registered), rfl⟩

theorem pairs_export : ascendingPair.exportState = descendingPair.exportState := by decide +kernel

theorem pairs_digest : ascendingPair.stableDigest ≠ descendingPair.stableDigest := by decide

theorem descendingPair_exports : descendingPair.exportState.toOption.isSome = true := by decide

def pairState : GatewayState 1 1 := descendingPair.exportState.toOption.get descendingPair_exports

theorem pairState_accepted :
    ((fromState 2 1 pairState).toOption.bind Except.toOption).isSome = true := by decide

def restoredPair : Gateway 2 1 1 1 :=
  ((fromState 2 1 pairState).toOption.bind Except.toOption).get pairState_accepted

theorem restoredPair_digest : restoredPair.stableDigest ≠ descendingPair.stableDigest := by decide

theorem restoredPair_digest_of_ascending : restoredPair.stableDigest = ascendingPair.stableDigest :=
  ((stableDigest_of_slotOrder ⟨by decide, by decide, by decide, by decide⟩).2.1 ascendingPair restoredPair
    pairState ascendingPair_reachable.reachable
    (pairs_export.trans (Run.eq_ok_get descendingPair_exports)) (Run.eq_ok_ok_get pairState_accepted)).2
    ⟨by decide, by decide⟩

/-- Neither does the exported state determine the digest, nor does rebuilding keep it. -/
theorem stableDigest_not_of_exportState :
    (¬ ∀ gateway gateway' : Gateway 2 1 1 1, gateway.ReachableFromNew → gateway'.ReachableFromNew →
      gateway.exportState = gateway'.exportState → gateway.stableDigest = gateway'.stableDigest) ∧
    ¬ ∀ (gateway restored : Gateway 2 1 1 1) (state : GatewayState 1 1), gateway.ReachableFromNew →
      gateway.exportState = .ok state → fromState 2 1 state = .ok (.ok restored) →
        restored.stableDigest = gateway.stableDigest :=
  ⟨fun h ↦ pairs_digest (h _ _ ascendingPair_reachable descendingPair_reachable pairs_export),
    fun h ↦ restoredPair_digest (h _ _ _ descendingPair_reachable (Run.eq_ok_get descendingPair_exports)
      (Run.eq_ok_ok_get pairState_accepted))⟩

end Gateway

end DeterministicExchange
