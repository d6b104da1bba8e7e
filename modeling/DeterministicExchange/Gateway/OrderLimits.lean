import DeterministicExchange.Gateway.Agreement

/-!
# Limits of resting orders

New orders are checked against every limit of their account. A replace is checked
against the position limit and, when it increases the quantity, against the
notional limit; the quantity limit and the price collar are not looked at. As long
as replaces ask for what a new order could ask for, every resting order stays
within the limits of its account, and the exported state can be restored.
-/

namespace DeterministicExchange

open Machine Book Risk

/-- What a replace has to respect by itself, since the command path does not check it. -/
def Risk.RiskLimits.Respected (limits : RiskLimits) (prior : Quantity) (price : PriceTicks)
    (quantity : Quantity) : Prop :=
  quantity.val ≤ limits.maxQuantity.val ∧ limits.minimumPrice.val ≤ price.val ∧
    price.val ≤ limits.maximumPrice.val ∧
    (quantity.val ≤ prior.val → |price.val| * quantity.val ≤ limits.maxNotional.val)

theorem Risk.RiskLimits.Admits.mono {limits : RiskLimits} {price : PriceTicks} {quantity quantity' : Quantity}
    (h : limits.Admits price quantity) (hle : quantity'.val ≤ quantity.val) :
    limits.Admits price quantity' := by
  obtain ⟨hquantity, hminimum, hmaximum, hnotional⟩ := h
  refine ⟨hle.trans hquantity, hminimum, hmaximum, ?_⟩
  calc
    |price.val| * (quantity'.val : ℤ) ≤ |price.val| * quantity.val := by
      apply mul_le_mul_of_nonneg_left _ (abs_nonneg _)
      exact_mod_cast hle
    _ ≤ limits.maxNotional.val := hnotional

/-! ## Commands keep the limits -/

namespace Logical.Gateway

variable {LEVELS ORDERS : ℕ} {gateway gateway' : Logical.Gateway}

/-- Accounts keep their limits. -/
theorem Kept.exists_account (h : gateway.Kept LEVELS ORDERS gateway') {account' : AccountRiskState}
    (hmem : account' ∈ gateway'.risk.accounts) :
    ∃ account ∈ gateway.risk.accounts, account.profile = account'.profile := by
  have hprofile := List.mem_map_of_mem (f := AccountRiskState.profile) hmem
  rw [h.profiles] at hprofile
  obtain ⟨account, hmem', heq⟩ := List.mem_map.mp hprofile
  exact ⟨account, hmem', heq⟩

theorem Traded.limited {order : NewOrder} {summary : MatchSummary} {reports : List ExecutionReport}
    (h : gateway.Traded LEVELS ORDERS order summary reports gateway')
    (hordered : gateway.risk.Ordered) (hlimited : gateway.Limited) : gateway'.Limited := by
  intro account' hmem' entry' hentry' hid'
  obtain ⟨account, hmem, hprofile⟩ := h.kept.exists_account hmem'
  have hid : account.id = account'.id := congrArg Prod.fst hprofile
  have hlimits : account.limits = account'.limits := congrArg (fun p ↦ p.2.1) hprofile
  rw [← hlimits]
  rcases h.origin hentry' with hrest | ⟨entry, hentry, hafter⟩
  · unfold takerRest at hrest
    split at hrest
    · rw [List.mem_singleton.mp hrest] at hid' ⊢
      obtain ⟨admitting, hadmitting, hadmittingId, hadmits⟩ := h.admits
      have howner : order.accountId = account'.id := hid'
      have hsame : admitting = account := List.inj_on_of_nodup_map hordered.ids_nodup hadmitting hmem
        (hadmittingId.trans (howner.trans hid.symm))
      rw [hsame] at hadmits
      exact hadmits.mono h.resting_le
    · simp at hrest
  · obtain ⟨_, hprice, _, haccount, _, hquantity, _⟩ := afterReports_eq_some hafter
    rw [hprice]
    refine (hlimited account hmem entry hentry ?_).mono (by omega)
    rw [← haccount, hid', hid]

theorem Amended.limited {orderId : OrderId} {accountId : AccountId} {new : List Entry}
    (h : gateway.Amended LEVELS ORDERS orderId accountId new gateway') (hlimited : gateway.Limited)
    (hnew : ∀ entry ∈ new, ∀ account ∈ gateway.risk.accounts, entry.2.2.accountId = account.id →
      account.limits.Admits entry.2.1 entry.2.2.quantity) : gateway'.Limited := by
  intro account' hmem' entry' hentry' hid'
  obtain ⟨account, hmem, hprofile⟩ := h.kept.exists_account hmem'
  have hid : account.id = account'.id := congrArg Prod.fst hprofile
  have hlimits : account.limits = account'.limits := congrArg (fun p ↦ p.2.1) hprofile
  rw [← hlimits]
  rcases h.origin hentry' with hentry' | hentry'
  · exact hnew entry' hentry' account hmem (hid'.trans hid.symm)
  · exact hlimited account hmem entry' hentry' (hid'.trans hid.symm)

/-- A replace that the limits of its account admit, for every reservation it can name. -/
def Respects (gateway : Logical.Gateway) (command : Command) : Prop :=
  ∀ replace, command = .replaceOrder replace → command.sequence = gateway.expectedSequence →
    ∀ r ∈ gateway.risk.reservations, r.orderId = replace.orderId → r.accountId = replace.accountId →
      ∀ account ∈ gateway.risk.accounts, account.id = replace.accountId →
        account.limits.Respected r.quantity replace.price replace.quantity

theorem CommandStep.limited {command : Command} {outcome : Result × Logical.Gateway × List ExecutionReport}
    (hstep : CommandStep LEVELS ORDERS gateway command outcome) (hordered : gateway.risk.Ordered)
    (hrespects : gateway.Respects command) (hlimited : gateway.Limited) : outcome.2.1.Limited := by
  cases hstep with
  | outOfSequence _ => exact hlimited
  | exhausted _ _ => exact hlimited
  | @newOrder admitted order outcome hadmitted _ _ hstep =>
    have hadmittedLimited : admitted.Limited := by
      rw [hadmitted.rest]
      exact hlimited
    have hadmittedOrdered : admitted.risk.Ordered := by
      rw [hadmitted.rest]
      exact hordered
    cases hstep with
    | stale _ => exact hadmittedLimited
    | refused _ _ => exact hadmittedLimited
    | unplaced _ _ => exact hadmittedLimited
    | accepted _ _ _ _ htraded => exact htraded.limited hadmittedOrdered hadmittedLimited
  | @cancelOrder admitted cancel outcome hadmitted _ _ hstep =>
    have hadmittedLimited : admitted.Limited := by
      rw [hadmitted.rest]
      exact hlimited
    cases hstep with
    | refused _ _ => exact hadmittedLimited
    | unplaced _ _ => exact hadmittedLimited
    | accepted _ _ _ hasked hamended => exact hamended.limited hadmittedLimited (by simp [hasked])
  | @replaceOrder admitted replace outcome hadmitted _ hcommand hstep =>
    have hadmittedLimited : admitted.Limited := by
      rw [hadmitted.rest]
      exact hlimited
    cases hstep with
    | refused _ _ => exact hadmittedLimited
    | unplaced _ _ => exact hadmittedLimited
    | accepted _ _ _ hasked hamended =>
      refine hamended.limited hadmittedLimited ?_
      obtain ⟨side, order', rfl, haccount, hquantity, r, hr, horder, howner, hincrease⟩ := hasked
      have hrisk : admitted.risk = gateway.risk := by rw [hadmitted.rest]
      rw [hrisk] at hr hincrease
      intro entry hentry account hmem hid
      rw [List.mem_singleton.mp hentry] at hid ⊢
      rw [hrisk] at hmem
      have hid' : account.id = replace.accountId := hid.symm.trans haccount
      obtain ⟨hmax, hlow, hhigh, hnotional⟩ := hrespects replace hcommand hadmitted.sequence r hr horder
        howner account hmem hid'
      show account.limits.Admits replace.price order'.quantity
      rw [hquantity]
      refine ⟨hmax, hlow, hhigh, ?_⟩
      rcases Nat.lt_or_ge r.quantity.val replace.quantity.val with hlt | hge
      · exact hincrease hlt account hmem hid'
      · exact hnotional hge

end Logical.Gateway

/-! ## Sessions -/

namespace Gateway

variable {ACCOUNTS RISK_ORDERS LEVELS ORDERS_PER_LEVEL : ℕ}
  {gateway : Gateway ACCOUNTS RISK_ORDERS LEVELS ORDERS_PER_LEVEL} {logical : Logical.Gateway}

/-- Every resting order is within the limits of its account. -/
def WithinLimits (gateway : Gateway ACCOUNTS RISK_ORDERS LEVELS ORDERS_PER_LEVEL) : Prop :=
  ∀ (slot : ℕ) (account : AccountState), gateway.risk.accounts[slot]? = some (some account) →
    ∀ location price order, gateway.book.RestsAtPrice location price order →
      order.accountId = account.id → account.limits.Admits price order.quantity

/-- A command on this gateway: if it is a replace in sequence of a live order of its account, it asks
for a quantity and a price within the limits of the account. -/
def RespectsLimits (gateway : Gateway ACCOUNTS RISK_ORDERS LEVELS ORDERS_PER_LEVEL)
    (command : Command) : Prop :=
  ∀ replace, command = .replaceOrder replace → command.sequence = gateway.expectedSequence →
    ∀ slot r, gateway.risk.ReservesAt slot r → r.orderId = replace.orderId →
      r.accountId = replace.accountId →
      ∀ (i : ℕ) (account : AccountState), gateway.risk.accounts[i]? = some (some account) →
        account.id = replace.accountId →
          account.limits.Respected r.quantity replace.price replace.quantity

theorem Represents.withinLimits_iff (h : gateway.Represents logical) :
    gateway.WithinLimits ↔ logical.Limited := by
  constructor
  · intro hwithin account hmem entry hentry hid
    obtain ⟨slot, hslot⟩ := h.risk.exists_account hmem
    obtain ⟨location, order, hrests, _, horder⟩ := h.book.exists_restsAtPrice hentry
    have hid' : order.accountId = account.id := by
      rw [← hid, ← horder]
      rfl
    have hadmits := hwithin slot account hslot location _ order hrests hid'
    rw [← horder]
    exact hadmits
  · intro hlimited slot account hslot location price order hrests hid
    exact hlimited account (h.risk.mem_of_account hslot) _ (h.book.entry_of_restsAtPrice hrests) hid

theorem Represents.respects (h : gateway.Represents logical) {command : Command}
    (hrespects : gateway.RespectsLimits command) : logical.Respects command := by
  intro replace hcommand hsequence r hr horder howner account hmem hid
  obtain ⟨slot, stored, hreserves, rfl⟩ := h.risk.exists_reservesAt hr
  obtain ⟨i, hi⟩ := h.risk.exists_account hmem
  rw [← h.expectedSequence] at hsequence
  exact hrespects replace hcommand hsequence slot stored hreserves horder howner i account hi hid

/-- Sessions of commands that respect the limits. -/
theorem Sessions.limited (hc : Capacities ACCOUNTS RISK_ORDERS LEVELS ORDERS_PER_LEVEL)
    (h : Sessions Started RespectsLimits gateway) :
    ∃ logical : Logical.Gateway, gateway.Represents logical ∧
      logical.Invariant LEVELS ORDERS_PER_LEVEL ∧ logical.Limited := by
  refine h.represents hc ?_ ?_
  · intro gateway hstarted
    obtain ⟨risk, instrument, hunused, hrep⟩ := hstarted.represents hc
    refine ⟨_, hrep, hunused.invariant LEVELS ORDERS_PER_LEVEL instrument, ?_⟩
    intro account _ entry hentry
    simp [Logical.Gateway.new, Logical.Book.empty, Logical.Book.entries] at hentry
  · intro gateway logical command outcome hrep hinvariant hrespects hlimited hstep
    exact hstep.limited hinvariant.risk.ordered (hrep.respects hrespects) hlimited

/-! A replace within the limits of the sample session. -/

def sampleAmend : Command := .replaceOrder ⟨1, 7, 1, 2, ⟨60, by decide⟩, 6⟩

theorem sampleGateway_limits (slot : ℕ) (account : AccountState)
    (h : sampleGateway.risk.accounts[slot]? = some (some account)) : account.limits = sampleLimits := by
  cases slot with
  | zero =>
    have hsame : (⟨7, sampleLimits, Signed.zero 128, 5, 0, 1, false⟩ : AccountState) = account :=
      Option.some.inj (Option.some.inj h)
    rw [← hsame]
  | succ slot =>
    rw [Vector.getElem?_eq_none (by omega)] at h
    simp at h

theorem sampleAmend_respects : sampleGateway.RespectsLimits sampleAmend := by
  intro replace hcommand _ _ r _ _ _ slot account haccount _
  obtain rfl : (⟨1, 7, 1, 2, ⟨60, by decide⟩, 6⟩ : ReplaceOrder) = replace := by
    simpa [sampleAmend] using hcommand
  rw [sampleGateway_limits slot account haccount]
  have hadmits : sampleLimits.Admits ⟨60, by decide⟩ 6 := by decide
  exact ⟨hadmits.1, hadmits.2.1, hadmits.2.2.1, fun _ ↦ hadmits.2.2.2⟩

theorem sampleAmend_returns :
    (sampleGateway.processCommand sampleAmend (ReportBuffer.new 1)).toOption.isSome = true := by
  decide

def sampleAmended : Gateway 1 1 1 1 :=
  ((sampleGateway.processCommand sampleAmend (ReportBuffer.new 1)).toOption.get sampleAmend_returns).2.1

theorem sampleAmended_session : Sessions Started RespectsLimits sampleAmended :=
  .step (.step (.start sampleStart_started) (fun _ h ↦ by simp [sampleOrder] at h)
    (Run.eq_ok_get sampleOrder_returns)) sampleAmend_respects (Run.eq_ok_get sampleAmend_returns)

/-- As long as replaces respect the limits, resting orders do. -/
theorem withinLimits_of_respected (hc : Capacities ACCOUNTS RISK_ORDERS LEVELS ORDERS_PER_LEVEL)
    (h : Sessions Started RespectsLimits gateway) : gateway.WithinLimits := by
  obtain ⟨logical, hrep, _, hlimited⟩ := h.limited hc
  exact hrep.withinLimits_iff.mpr hlimited

theorem sampleAmended_withinLimits : sampleAmended.WithinLimits :=
  withinLimits_of_respected ⟨by decide, by decide, by decide, by decide⟩ sampleAmended_session

/-- The state of a gateway whose orders are within the limits restores to a gateway that represents
the same logical gateway. -/
theorem Represents.restored (hc : Capacities ACCOUNTS RISK_ORDERS LEVELS ORDERS_PER_LEVEL)
    (h : gateway.Represents logical) (hinvariant : logical.Invariant LEVELS ORDERS_PER_LEVEL)
    (hlimited : logical.Limited) :
    ∃ gateway' : Gateway ACCOUNTS RISK_ORDERS LEVELS ORDERS_PER_LEVEL,
      fromState ACCOUNTS RISK_ORDERS (logical.state LEVELS ORDERS_PER_LEVEL) = .ok (.ok gateway') ∧
        gateway'.Represents logical :=
  fromState_restorable hc.index ⟨hinvariant, hlimited, h.risk.length_le.1, h.risk.length_le.2⟩

/-- As long as replaces respect the limits, a gateway restores from its own exported state. -/
theorem restores_of_respected (hc : Capacities ACCOUNTS RISK_ORDERS LEVELS ORDERS_PER_LEVEL)
    (h : Sessions Started RespectsLimits gateway) :
    ∃ state, gateway.exportState = .ok state ∧
      ∃ gateway' : Gateway ACCOUNTS RISK_ORDERS LEVELS ORDERS_PER_LEVEL,
        fromState ACCOUNTS RISK_ORDERS state = .ok (.ok gateway') ∧ gateway'.exportState = .ok state := by
  obtain ⟨logical, hrep, hinvariant, hlimited⟩ := h.limited hc
  obtain ⟨gateway', hrestored, hrep'⟩ := hrep.restored hc hinvariant hlimited
  exact ⟨_, hrep.exportState hc.index.addressable, gateway', hrestored,
    hrep'.exportState hc.index.addressable⟩

theorem sampleAmended_restores :
    ∃ state, sampleAmended.exportState = .ok state ∧ ∃ gateway' : Gateway 1 1 1 1,
      fromState 1 1 state = .ok (.ok gateway') ∧ gateway'.exportState = .ok state :=
  restores_of_respected ⟨by decide, by decide, by decide, by decide⟩ sampleAmended_session

/-! ## A replace outside the limits -/

def sampleReplace : Command := .replaceOrder ⟨1, 7, 1, 2, ⟨500, by decide⟩, 5⟩

theorem sampleReplace_returns :
    (sampleGateway.processCommand sampleReplace (ReportBuffer.new 1)).toOption.isSome = true := by
  decide

/-- The sample gateway after a replace far above the price collar of its account. -/
def sampleReplaced : Gateway 1 1 1 1 :=
  ((sampleGateway.processCommand sampleReplace (ReportBuffer.new 1)).toOption.get sampleReplace_returns).2.1

theorem sampleReplaced_reachableFromNew : sampleReplaced.ReachableFromNew :=
  .step sampleGateway_reachableFromNew trivial (Run.eq_ok_get sampleReplace_returns)

theorem sampleReplaced_outside_limits :
    sampleReplaced.ReachableFromNew ∧ ¬ sampleReplaced.WithinLimits := by
  refine ⟨sampleReplaced_reachableFromNew, ?_⟩
  intro hwithin
  have hadmits := hwithin 0 ⟨7, sampleLimits, ⟨0, by decide⟩, 5, 0, 1, false⟩ rfl ⟨.buy, 0, 0⟩
    ⟨500, by decide⟩ ⟨1, 7, _, 5, 2⟩ ⟨_, rfl, rfl, rfl⟩ rfl
  revert hadmits
  decide

theorem sampleReplaced_not_restored :
    sampleReplaced.ReachableFromNew ∧
      (sampleReplaced.exportState >>= fun state ↦ fromState 1 1 state).map
        (fun result ↦ result.map fun _ ↦ ()) = .ok (.error .orderLimit) := by
  exact ⟨sampleReplaced_reachableFromNew, by decide⟩

end Gateway

end DeterministicExchange
