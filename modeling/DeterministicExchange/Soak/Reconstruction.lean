import DeterministicExchange.Gateway.BookEffect
import DeterministicExchange.Gateway.Restore
import DeterministicExchange.Soak.Tables

/-!
# Reconstruction of the book from its events

A batch changes a table as its command has changed the book, and no check of the
table refuses it. So a consumer of the batches alone has, after each of them, exactly
the orders that rest in the gateway.
-/

namespace DeterministicExchange.Soak

open Machine Book Events

/-! ## Batches -/

section Batches

variable {ACCOUNTS RISK_ORDERS LEVELS ORDERS_PER_LEVEL BATCH capacity : ℕ} {table : LiveOrders RISK_ORDERS}
  {transition : Gateway.Transition ACCOUNTS RISK_ORDERS LEVELS ORDERS_PER_LEVEL} {batch : EventBatch BATCH}
  {command : Command} {sequence : SequenceNumber}

theorem applyTrades_cons_of_not_trade {event : Event} (h : isTrade event = false) (events : List Event)
    (traded : U64) (table : LiveOrders RISK_ORDERS) :
    LiveOrders.applyTrades command (event :: events) traded table =
      LiveOrders.applyTrades command events traded table := by
  cases event with
  | trade trade => exact absurd h (by simp [isTrade])
  | accepted _ | rejected _ | cancelled _ | replaced _ | topOfBook _ => rfl

theorem applyTrades_topEvents (identity : CommandIdentity) (before after : Option TopLevel × Option TopLevel)
    (ordinal : ℕ) (traded : U64) (table : LiveOrders RISK_ORDERS) :
    LiveOrders.applyTrades command (topEvents identity sequence before after ordinal) traded table =
      .ok (traded, table) := by
  unfold topEvents
  split <;> rfl

theorem isTrade_of_terminal {event : Event} (h : isTerminal event = true) :
    isTrade event = false ∧ isTopOfBook event = false := by
  cases event with
  | trade _ | topOfBook _ =>
    exact absurd h (by simp [isTerminal, isAccepted, isRejected, isCancelled, isReplaced])
  | accepted _ | rejected _ | cancelled _ | replaced _ => exact ⟨rfl, rfl⟩

theorem isTopOfBook_tradeEvents (reports : List ExecutionReport) (ordinal : ℕ) :
    ∀ event ∈ tradeEvents sequence reports ordinal, isTopOfBook event = false := by
  have hnone := @countP_tradeEvents sequence isTopOfBook (fun _ ↦ rfl) reports ordinal
  intro event hevent
  rw [List.countP_eq_zero] at hnone
  simpa using hnone event hevent

/-- The last event of a batch tells of the tops exactly when they have changed. -/
theorem checkTops_batch (identity : CommandIdentity) {terminal : Event}
    (hterminal : isTerminal terminal = true)
    (reports : List ExecutionReport) (before after : Option TopLevel × Option TopLevel) (ordinal : ℕ) :
    LiveOrders.checkTops (terminal :: (tradeEvents sequence reports 1 ++
      topEvents identity sequence before after ordinal)).getLast? before after = .ok () := by
  by_cases hsame : before = after
  · have hnone : topEvents identity sequence before after ordinal = [] := if_neg (not_not.mpr hsame)
    rw [hnone, List.append_nil]
    have hlast : ∀ event, (terminal :: tradeEvents sequence reports 1).getLast? = some event →
        isTopOfBook event = false := by
      intro event hevent
      rcases List.mem_cons.mp (List.mem_of_getLast? hevent) with rfl | hmem
      · exact (isTrade_of_terminal hterminal).2
      · exact isTopOfBook_tradeEvents reports 1 event hmem
    unfold LiveOrders.checkTops
    split
    · next top htop => exact absurd (hlast _ htop) (by simp [isTopOfBook])
    · rw [if_neg (not_not.mpr hsame)]
  · have htop : topEvents identity sequence before after ordinal = [.topOfBook
        ⟨⟨sequence, Fin.ofNat (2 ^ 16) ordinal⟩, identity.instrumentId, after.1, after.2⟩] := if_pos hsame
    rw [htop, ← List.cons_append, List.getLast?_concat]
    unfold LiveOrders.checkTops
    simp only
    rw [if_pos hsame, if_neg (not_not.mpr rfl)]

/-- What the trades of a batch and its terminal event do to a table that lists the book. -/
theorem Lists.applyEvents {result : Except GatewayError GatewayOutcome} {reports : List ExecutionReport}
    {book book' : Logical.Book} (heffect : Logical.Gateway.BookEffect LEVELS ORDERS_PER_LEVEL capacity book
      command result reports book')
    (hrestorable : book.Restorable LEVELS ORDERS_PER_LEVEL) (hbook : book.Orderly) (hbook' : book'.Orderly)
    (hroom : book'.entries.length ≤ RISK_ORDERS)
    {terminal : Event} (hterminal : Terminal command result terminal)
    (h : Lists table book.entries) (before after : Option TopLevel × Option TopLevel)
    (ordinal : ℕ) :
    ∃ quantity traded table', LiveOrders.applyTrades command (terminal ::
        (tradeEvents command.sequence reports 1 ++
          topEvents (.fromCommand command) command.sequence before after ordinal)) 0 table =
          .ok (quantity, traded) ∧
      traded.applyTerminal (some terminal) command quantity = .ok table' ∧
      Lists table' book'.entries := by
  have hskip := (isTrade_of_terminal (isTerminal_of_terminal hterminal).1).1
  rw [applyTrades_cons_of_not_trade hskip]
  cases heffect with
  | @submitted order summary fills _ hok =>
    cases hterminal
    obtain ⟨traded, table', htrades, happlied, hlists⟩ := h.submitted hbook hbook' hroom hok order.sequence 1
      (topEvents (.fromCommand (.newOrder order)) order.sequence before after ordinal)
    rw [applyTrades_topEvents] at htrades
    exact ⟨_, traded, table', htrades, happlied, hlists⟩
  | @cancelled cancel cancelled _ hok =>
    cases hterminal
    obtain ⟨table', happlied, hlists⟩ := h.cancelled hrestorable hok cancel.sequence
    exact ⟨0, table, table', applyTrades_topEvents _ _ _ _ _ _, happlied, hlists⟩
  | @replaced replace replaced _ hok =>
    cases hterminal
    obtain ⟨table', happlied, hlists⟩ := h.replaced hbook hbook' hok replace.sequence
    exact ⟨0, table, table', applyTrades_topEvents _ _ _ _ _ _, happlied, hlists⟩
  | rejected _ error =>
    have happlied : table.applyTerminal (some terminal) command 0 = .ok table := by
      cases hterminal <;> cases command <;> simp [LiveOrders.applyTerminal]
    exact ⟨0, table, table, applyTrades_topEvents _ _ _ _ _ _, happlied, h⟩

end Batches

/-! ## Comparison with the gateway -/

section Validation

variable {ACCOUNTS RISK_ORDERS LEVELS ORDERS_PER_LEVEL : ℕ} {table : LiveOrders RISK_ORDERS}
  {gateway : Gateway ACCOUNTS RISK_ORDERS LEVELS ORDERS_PER_LEVEL} {logical : Logical.Gateway}

theorem countOrders_eq_ok {orders : List BookOrderState} {count total : ℕ} :
    table.countOrders orders count = .ok total ↔
      (∀ order ∈ orders, table.lists order = true) ∧ total = count + orders.length := by
  induction orders generalizing count with
  | nil =>
    rw [LiveOrders.countOrders, Except.ok.injEq]
    constructor
    · rintro rfl
      exact ⟨by simp, rfl⟩
    · rintro ⟨_, rfl⟩
      rfl
  | cons order orders ih =>
    rw [LiveOrders.countOrders, List.forall_mem_cons, List.length_cons]
    by_cases hlisted : table.lists order = true
    · rw [if_pos hlisted, ih]
      have hsum : count + 1 + orders.length = count + (orders.length + 1) := by omega
      rw [hsum]
      tauto
    · rw [if_neg hlisted]
      simp [hlisted]

theorem lists_orderState {entry : Logical.Entry} :
    table.lists (Logical.orderState entry.1 entry.2.1 entry.2.2) = true ↔ liveOf entry ∈ table.live := by
  unfold LiveOrders.lists
  rw [List.any_eq_true]
  constructor
  · rintro ⟨live, hlive, heq⟩
    obtain ⟨hid, howner, hprice, hquantity, hside⟩ := of_decide_eq_true heq
    have hsame : live = liveOf entry := by
      obtain ⟨id, owner, price, quantity, side⟩ := live
      unfold liveOf
      rw [LiveOrder.mk.injEq]
      exact ⟨hid, howner, hprice, hquantity, hside⟩
    rw [← hsame]
    exact hlive
  · intro hlive
    exact ⟨liveOf entry, hlive, decide_eq_true ⟨rfl, rfl, rfl, rfl, rfl⟩⟩

/-- The comparison accepts exactly the tables that list the resting orders of the gateway. -/
theorem validate_iff (hc : Addressable ACCOUNTS RISK_ORDERS LEVELS ORDERS_PER_LEVEL)
    (hrep : gateway.Represents logical) (hbook : logical.book.Restorable LEVELS ORDERS_PER_LEVEL) :
    table.validate gateway = .ok (.ok ()) ↔ Lists table logical.book.entries := by
  have horders : OrderBook.stateOrders (logical.state LEVELS ORDERS_PER_LEVEL).book =
      logical.book.entries.map fun entry ↦ Logical.orderState entry.1 entry.2.1 entry.2.2 :=
    stateOrders_state hbook
  have hcount := @countOrders_eq_ok RISK_ORDERS table
    (OrderBook.stateOrders (logical.state LEVELS ORDERS_PER_LEVEL).book) 0
  have hmem : (∀ order ∈ OrderBook.stateOrders (logical.state LEVELS ORDERS_PER_LEVEL).book,
      table.lists order = true) ↔ ∀ entry ∈ logical.book.entries, liveOf entry ∈ table.live := by
    rw [horders, List.forall_mem_map]
    exact forall₂_congr fun entry _ ↦ lists_orderState
  have hlength : (OrderBook.stateOrders (logical.state LEVELS ORDERS_PER_LEVEL).book).length =
      logical.book.entries.length := by
    rw [horders, List.length_map]
  rw [hmem, Nat.zero_add, hlength] at hcount
  unfold LiveOrders.validate
  rw [hrep.exportState hc, Run.ok_bind]
  constructor
  · intro h
    split at h
    · exact absurd (Except.ok.inj h) (by simp)
    next count hok =>
    obtain ⟨hlisted, rfl⟩ := hcount.mp hok
    have hsame : logical.book.entries.length = table.len := by
      by_contra hne
      rw [if_pos hne] at h
      exact absurd (Except.ok.inj h) (by simp)
    -- distinct ids make the listed orders distinct, so that equal numbers leave no other
    have hnodup : (logical.book.entries.map liveOf).Nodup := by
      apply List.Nodup.of_map LiveOrder.orderId
      rw [List.map_map]
      exact hbook.ids
    have hsubset : logical.book.entries.map liveOf ⊆ table.live := by
      intro live hlive
      obtain ⟨entry, hentry, rfl⟩ := List.mem_map.mp hlive
      exact hlisted entry hentry
    have hle : table.live.length ≤ (logical.book.entries.map liveOf).length := by
      rw [List.length_map, hsame]
      exact le_rfl
    exact ((hnodup.subperm hsubset).perm_of_length_le hle).symm
  · intro h
    have hlisted : ∀ entry ∈ logical.book.entries, liveOf entry ∈ table.live := fun entry hentry ↦
      h.mem_iff.mpr (List.mem_map_of_mem hentry)
    have hsame : logical.book.entries.length = table.len := by
      have hlisted := h.length_eq
      rw [List.length_map] at hlisted
      exact hlisted.symm
    rw [hcount.mpr ⟨hlisted, rfl⟩]
    simp only
    rw [if_neg (not_not.mpr hsame)]
    rfl

/-- The comparison of a table with a reachable gateway succeeds exactly when the table holds the resting
orders: none is missing, none is left over, none differs. -/
theorem live_orders_validate_iff (hc : Capacities ACCOUNTS RISK_ORDERS LEVELS ORDERS_PER_LEVEL)
    (hreachable : gateway.Reachable) (table : LiveOrders RISK_ORDERS) :
    table.validate gateway = .ok (.ok ()) ↔
      table.live.Perm (gateway.book.toLogical.entries.map liveOf) := by
  obtain ⟨logical, hrep, hinvariant⟩ := hreachable.sound hc
  rw [hrep.book.toLogical_eq hc.book]
  exact validate_iff hc.index.addressable hrep hinvariant.book

/-- A table of the first order in the sample book. -/
def sampleTable : LiveOrders 1 :=
  (LiveOrders.new 1).put 0 (Gateway.sampleGateway.book.toLogical.entries.map liveOf).head?

theorem live_orders_validate_iff_sample :
    sampleTable.validate Gateway.sampleGateway = .ok (.ok ()) ↔
      sampleTable.live.Perm (Gateway.sampleGateway.book.toLogical.entries.map liveOf) :=
  live_orders_validate_iff ⟨by decide, by decide, by decide, by decide⟩
    Gateway.sampleGateway_reachableFromNew.reachable _

end Validation

/-! ## Runs -/

section Runs

variable {ACCOUNTS RISK_ORDERS LEVELS ORDERS_PER_LEVEL BATCH : ℕ}

/-- A consumer that applies each batch with its command. -/
def LiveOrders.follow : List (EventBatch BATCH × Command) → LiveOrders RISK_ORDERS →
    Except RoutedError (List EventSummary × LiveOrders RISK_ORDERS)
  | [], table => .ok ([], table)
  | (batch, command) :: rest, table => do
    let (summary, table) ← table.apply batch command
    let (summaries, table) ← follow rest table
    return (summary :: summaries, table)

theorem follow_concat {steps : List (EventBatch BATCH × Command)} {batch : EventBatch BATCH}
    {command : Command} {table table' table'' : LiveOrders RISK_ORDERS} {summaries : List EventSummary}
    {summary : EventSummary} (h : LiveOrders.follow steps table = .ok (summaries, table'))
    (happly : table'.apply batch command = .ok (summary, table'')) :
    LiveOrders.follow (steps ++ [(batch, command)]) table = .ok (summaries ++ [summary], table'') := by
  induction steps generalizing table summaries with
  | nil =>
    obtain ⟨rfl, rfl⟩ := Prod.mk.inj (Except.ok.inj h)
    simp only [List.nil_append, LiveOrders.follow, happly, except_ok_bind]
    rfl
  | cons step steps ih =>
    obtain ⟨⟨first, table₁⟩, hfirst, hrest⟩ := except_bind_eq_ok.mp h
    obtain ⟨⟨later, table₂⟩, hlater, heq⟩ := except_bind_eq_ok.mp hrest
    obtain ⟨rfl, rfl⟩ := Prod.mk.inj (Except.ok.inj heq)
    simp only [List.cons_append, LiveOrders.follow, hfirst, except_ok_bind, ih hlater]
    rfl

variable {table : LiveOrders RISK_ORDERS} {batch : EventBatch BATCH}
  {transition : Gateway.Transition ACCOUNTS RISK_ORDERS LEVELS ORDERS_PER_LEVEL}
  {start gateway : Gateway ACCOUNTS RISK_ORDERS LEVELS ORDERS_PER_LEVEL}
  {logical logical' initial : Logical.Gateway}

theorem tops_eq (h : gateway.Represents logical) :
    BoundedEventEngine.tops gateway = (logical.book.topLevel .buy, logical.book.topLevel .sell) :=
  Prod.ext (h.book.topLevel .buy) (h.book.topLevel .sell)

/-- No more orders rest than there are reservations. -/
theorem entries_le (h : gateway.Represents logical)
    (hinvariant : logical.Invariant LEVELS ORDERS_PER_LEVEL) :
    logical.book.entries.length ≤ RISK_ORDERS := by
  have hbacked := hinvariant.backed.length_eq
  rw [List.length_map] at hbacked
  rw [← hbacked]
  exact h.risk.length_le.2

/-- A batch changes the table as its command has changed the book. -/
theorem Lists.apply (hpublishes : Publishes transition batch)
    (hbefore : transition.before.Represents logical) (hafter : transition.after.Represents logical')
    (hinvariant : logical.Invariant LEVELS ORDERS_PER_LEVEL)
    (hinvariant' : logical'.Invariant LEVELS ORDERS_PER_LEVEL) {capacity : ℕ}
    (heffect : Logical.Gateway.BookEffect LEVELS ORDERS_PER_LEVEL capacity logical.book transition.command
      transition.result transition.reports logical'.book)
    (h : Lists table logical.book.entries) :
    ∃ table', table.apply batch transition.command = .ok (summarize batch.entries, table') ∧
      Lists table' logical'.book.entries := by
  obtain ⟨terminal, hterminal, hentries⟩ := hpublishes.entries
  have hfirst := (isTerminal_of_terminal hterminal).1
  obtain ⟨quantity, traded, table', htrades, happlied, hlists⟩ := Lists.applyEvents heffect hinvariant.book
    hbefore.book.orderly hafter.book.orderly (entries_le hafter hinvariant') hterminal h
    (BoundedEventEngine.tops transition.before) (BoundedEventEngine.tops transition.after)
    (transition.reports.length + 1)
  have hvalid : validateBatch batch transition.command.instrumentId transition.command.sequence =
      .ok (summarize batch.entries) :=
    (validateBatch_eq_ok _ _ _ _).mpr ⟨wellFormed_of_publishes hpublishes, rfl⟩
  have htops := @checkTops_batch transition.command.sequence
    (.fromCommand transition.command) _ hfirst transition.reports (BoundedEventEngine.tops transition.before)
    (BoundedEventEngine.tops transition.after) (transition.reports.length + 1)
  have hold : table.tops = BoundedEventEngine.tops transition.before := by
    rw [h.tops hbefore.book.orderly, tops_eq hbefore]
  have hnew : table'.tops = BoundedEventEngine.tops transition.after := by
    rw [hlists.tops hafter.book.orderly, tops_eq hafter]
  refine ⟨table', ?_, hlists⟩
  unfold LiveOrders.apply
  rw [hvalid]
  simp only
  rw [hentries, htrades, except_ok_bind]
  simp only [List.head?_cons, happlied, except_ok_bind]
  rw [hold, hnew, htops]
  rfl

/-- Along a trace, the batches of its commands lead a table that lists the first book to one that lists
the last. -/
theorem Lists.follow (hc : Capacities ACCOUNTS RISK_ORDERS LEVELS ORDERS_PER_LEVEL)
    (hstart : start.Represents initial) (hinitial : initial.Invariant LEVELS ORDERS_PER_LEVEL)
    (h : Lists table initial.book.entries)
    {transitions : List (Gateway.Transition ACCOUNTS RISK_ORDERS LEVELS ORDERS_PER_LEVEL)}
    (htrace : Gateway.Trace start transitions gateway) {batches : List (EventBatch BATCH)}
    (hpublished : List.Forall₂ Publishes transitions batches) :
    ∃ logical summaries table', gateway.Represents logical ∧
      logical.Invariant LEVELS ORDERS_PER_LEVEL ∧
      LiveOrders.follow (batches.zip (transitions.map Gateway.Transition.command)) table =
        .ok (summaries, table') ∧ Lists table' logical.book.entries := by
  induction htrace generalizing batches with
  | nil =>
    rw [List.forall₂_nil_left_iff.mp hpublished]
    exact ⟨initial, [], table, hstart, hinitial, rfl, h⟩
  | @snoc transitions current current' REPORTS reports reports' command result _ hrun ih =>
    obtain ⟨batches', batch, rfl, hbatches, hlast⟩ := exists_of_forall₂_concat hpublished
    obtain ⟨logical, summaries, table', hrep, hinvariant, hfollow, hlists⟩ := ih hbatches
    obtain ⟨current₁, reports₁, hrun₁, hrep₁, hreports₁⟩ := hrep.processCommand hc command reports
    have hstep := hinvariant.processCommand hc.orders RISK_ORDERS REPORTS command
    have heffect := hinvariant.bookEffect hc.orders RISK_ORDERS REPORTS command
    obtain ⟨hresult, hnext⟩ := Prod.mk.inj (Except.ok.inj (hrun.symm.trans hrun₁))
    obtain ⟨rfl, rfl⟩ := Prod.mk.inj hnext
    rw [← hresult, ← hreports₁] at heffect
    have hinvariant₁ := hstep.invariant hinvariant
    obtain ⟨table'', happly, hlists'⟩ := Lists.apply hlast hrep hrep₁ hinvariant hinvariant₁ heffect hlists
    refine ⟨_, summaries ++ [summarize batch.entries], table'', hrep₁, hinvariant₁, ?_, hlists'⟩
    have hlength : batches'.length = (transitions.map Gateway.Transition.command).length := by
      rw [List.length_map, hbatches.length_eq]
    rw [List.map_append, List.zip_append hlength]
    exact follow_concat hfollow happly

/-- The events alone tell which orders rest. A table that agrees with a reachable gateway, followed by
the batches of an engine on that gateway, agrees with it after every command: no batch is refused, the
comparison with the exported state succeeds, and the tops are those of the gateway. -/
theorem live_orders_follow (hc : Capacities ACCOUNTS RISK_ORDERS LEVELS ORDERS_PER_LEVEL)
    (hreachable : gateway.Reachable) (htable : table.validate gateway = .ok (.ok ())) {REPORTS : ℕ}
    {engine : BoundedEventEngine ACCOUNTS RISK_ORDERS LEVELS ORDERS_PER_LEVEL BATCH}
    (hnew : BoundedEventEngine.tryNew REPORTS BATCH gateway = .ok engine) (QUEUE : ℕ)
    (actions : List Action) :
    ∃ replies system transitions,
      execute (EventSystem.step REPORTS QUEUE) (EventSystem.start engine) actions = .ok (replies, system) ∧
      Gateway.Trace gateway transitions system.engine.gateway ∧
      ∀ batches rest, system.received ++ system.engine.queue = batches ++ rest →
        ∃ current summaries table', Gateway.Trace gateway (transitions.take batches.length) current ∧
          LiveOrders.follow (batches.zip ((transitions.take batches.length).map
            Gateway.Transition.command)) table = .ok (summaries, table') ∧
          table'.validate current = .ok (.ok ()) ∧
          ∀ side, table'.top side = current.topLevel side := by
  obtain ⟨replies, system, transitions, hrun, hsound⟩ := exists_sound hc hreachable hnew QUEUE actions
  obtain ⟨initial, hstart, hinitial⟩ := hreachable.sound hc
  refine ⟨replies, system, transitions, hrun, hsound.trace, ?_⟩
  intro batches rest heq
  have hlists : Lists table initial.book.entries :=
    (validate_iff hc.index.addressable hstart hinitial.book).mp htable
  have hpublished := List.forall₂_take batches.length hsound.published
  rw [heq, List.take_left] at hpublished
  obtain ⟨later, hlater⟩ := EventSystem.settled_prefix system.phase transitions
  have hlength : batches.length ≤ (system.phase.settled transitions).length := by
    rw [hsound.published.length_eq, heq, List.length_append]
    exact Nat.le_add_right _ _
  have htake : transitions.take batches.length =
      (system.phase.settled transitions).take batches.length := by
    conv_lhs => rw [hlater]
    exact List.take_append_of_le_length hlength
  rw [← htake] at hpublished
  obtain ⟨current, hcurrent⟩ := exists_trace_of_append hsound.trace _ _
    (List.take_append_drop batches.length transitions).symm
  obtain ⟨logical, summaries, table', hrep, hinvariant, hfollow, hlists'⟩ :=
    hlists.follow hc hstart hinitial hcurrent hpublished
  refine ⟨current, summaries, table', hcurrent, hfollow, ?_, fun side ↦ ?_⟩
  · exact (validate_iff hc.index.addressable hrep hinvariant.book).mpr hlists'
  · rw [hlists'.top hrep.book.orderly]
    exact (hrep.book.topLevel side).symm

theorem live_orders_follow_sample :
    (LiveOrders.new 1).validate Gateway.sampleStart = .ok (.ok ()) ∧
      ∃ engine : BoundedEventEngine 1 1 1 1 3,
        BoundedEventEngine.tryNew 1 3 Gateway.sampleStart = .ok engine ∧
        ∃ replies system transitions, execute (EventSystem.step 1 2) (EventSystem.start engine)
            [.call (.command Gateway.sampleOrder), .advance, .advance,
              .call (.command Gateway.sampleAmend), .pop, .advance, .advance] = .ok (replies, system) ∧
          Gateway.Trace Gateway.sampleStart transitions system.engine.gateway ∧
          ∀ batches rest, system.received ++ system.engine.queue = batches ++ rest →
            ∃ current summaries table',
              Gateway.Trace Gateway.sampleStart (transitions.take batches.length) current ∧
              LiveOrders.follow (batches.zip ((transitions.take batches.length).map
                Gateway.Transition.command)) (LiveOrders.new 1) = .ok (summaries, table') ∧
              table'.validate current = .ok (.ok ()) ∧
              ∀ side, table'.top side = current.topLevel side := by
  have htable : (LiveOrders.new 1).validate Gateway.sampleStart = .ok (.ok ()) := by decide
  obtain ⟨engine, hnew⟩ : ∃ engine, BoundedEventEngine.tryNew 1 3 Gateway.sampleStart = .ok engine := ⟨_, rfl⟩
  have hc : Capacities 1 1 1 1 := ⟨by decide, by decide, by decide, by decide⟩
  exact ⟨htable, engine, hnew,
    live_orders_follow hc (.start (.inl Gateway.sampleStart_started)) htable hnew 2 _⟩

end Runs

end DeterministicExchange.Soak
