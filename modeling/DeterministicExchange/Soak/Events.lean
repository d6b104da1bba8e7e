import DeterministicExchange.Book.Digest
import DeterministicExchange.Events.Stream

/-!
# Checking published batches

The soak runner checks every batch it receives: identity and order of the events,
one terminal event, trades only after an acceptance, a top of the book only at the
end. The accepted batches are described by a grammar, and the summary that is
returned counts the events of each kind.
-/

namespace DeterministicExchange.Soak

open Machine Codec Book Events

structure EventSummary where
  events : ℕ
  terminals : ℕ
  accepted : ℕ
  rejected : ℕ
  cancelled : ℕ
  replaced : ℕ
  trades : ℕ
  topOfBook : ℕ
  fingerprint : U64
  deriving DecidableEq, Repr

def EventSummary.default : EventSummary := ⟨0, 0, 0, 0, 0, 0, 0, 0, 0⟩

inductive EventValidationError where
  | emptyBatch
  | wrongInstrument
  | wrongSequence
  | wrongOrdinal
  | terminalNotFirst
  | terminalCount
  | duplicateTopOfBook
  | topOfBookNotLast
  | unexpectedTrade
  | unexpectedTopOfBook
  deriving DecidableEq, Repr

def eventInstrument : Event → InstrumentId
  | .accepted value => value.instrumentId
  | .rejected value => value.instrumentId
  | .trade value => value.instrumentId
  | .cancelled value => value.instrumentId
  | .replaced value => value.instrumentId
  | .topOfBook value => value.instrumentId

def isAccepted : Event → Bool
  | .accepted _ => true
  | _ => false

def isRejected : Event → Bool
  | .rejected _ => true
  | _ => false

def isCancelled : Event → Bool
  | .cancelled _ => true
  | _ => false

def isReplaced : Event → Bool
  | .replaced _ => true
  | _ => false

def isTrade : Event → Bool
  | .trade _ => true
  | _ => false

def isTopOfBook : Event → Bool
  | .topOfBook _ => true
  | _ => false

def isTerminal (event : Event) : Bool :=
  isAccepted event || isRejected event || isCancelled event || isReplaced event

/-! ## Fingerprints -/

/-- The mixing step of the soak fingerprints. -/
def mix (hash value : U64) : U64 :=
  wrapping ((wrapping ((wrapping ((rotateLeft hash 9).val + 0x9e3779b97f4a7c15)).val *
    0xbf58476d1ce4e5b9)).val ^^^ (wrapping (value.val * 0x94d049bb133111eb)).val)

def rejectReason : RejectReason → ℕ
  | .invalidInstrument => 1
  | .invalidPrice => 2
  | .invalidQuantity => 3
  | .quantityLimit => 4
  | .notionalLimit => 5
  | .positionLimit => 6
  | .openOrderLimit => 7
  | .priceCollar => 8
  | .duplicateOrderId => 9
  | .unknownOrder => 10
  | .notOrderOwner => 11
  | .killSwitch => 12
  | .unknownAccount => 13
  | .arithmeticOverflow => 14
  | .orderCapacity => 15
  | .priceLevelCapacity => 16
  | .priceLevelOrderCapacity => 17
  | .reportCapacity => 18
  | .insufficientLiquidity => 19
  | .postOnlyWouldTrade => 20
  | .replaceWouldCross => 21

def orderState : OrderState → ℕ
  | .accepted => 1
  | .partiallyFilled => 2
  | .filled => 3
  | .rejected reason => 0x100 ||| rejectReason reason

def commandTag : CommandKind → ℕ
  | .newOrder => 0
  | .cancel => 1
  | .replace => 2

def hashTop (hash : U64) : Option TopLevel → U64
  | none => mix hash (wrapping 0)
  | some top =>
    let quantity := beBytes 16 top.aggregateQuantity
    mix (mix (mix (mix (mix hash (wrapping 1)) (priceWord top.price)) (beHigh quantity)) (beLow quantity))
      (if top.orderCount < 2 ^ 64 then wrapping top.orderCount else Unsigned.maxValue 64)

def hashEvent (hash : U64) (event : Event) : U64 :=
  let hash := mix hash event.id.commandSequence
  let hash := mix hash (wrapping event.id.ordinal.val)
  let hash := mix hash (wrapping (eventInstrument event).val)
  match event with
  | .accepted value =>
    let hash := mix (mix (mix hash (wrapping 1)) value.orderId) (wrapping value.accountId.val)
    let hash := mix (mix hash (wrapping (orderState value.state))) value.filledQuantity
    mix (mix hash value.restingQuantity) value.discardedQuantity
  | .rejected value =>
    let hash := mix (mix (mix hash (wrapping 2)) value.orderId) (wrapping value.accountId.val)
    mix (mix hash (wrapping (commandTag value.command))) (wrapping (rejectReason value.reason))
  | .trade value =>
    let hash := mix (mix (mix hash (wrapping 3)) value.makerOrderId) value.takerOrderId
    mix (mix hash (priceWord value.price)) value.quantity
  | .cancelled value =>
    mix (mix (mix (mix hash (wrapping 4)) value.orderId) (wrapping value.accountId.val)) value.quantity
  | .replaced value =>
    let hash := mix (mix (mix hash (wrapping 5)) value.orderId) (wrapping value.accountId.val)
    let hash := mix (mix (mix hash value.oldQuantity) value.newQuantity) (priceWord value.price)
    mix hash (wrapping (if value.priorityLost then 1 else 0))
  | .topOfBook value => hashTop (hashTop (mix hash (wrapping 6)) value.bid) value.ask

/-! ## The check -/

/-- The counters of the loop over a batch. -/
structure Tally where
  summary : EventSummary
  terminalCount : ℕ
  topCount : ℕ

/-- Counts an event that has passed. -/
def Tally.record (tally : Tally) (event : Event) : Tally :=
  let summary := tally.summary
  let counted := match event with
    | .accepted _ => { summary with accepted := summary.accepted + 1 }
    | .rejected _ => { summary with rejected := summary.rejected + 1 }
    | .trade _ => { summary with trades := summary.trades + 1 }
    | .cancelled _ => { summary with cancelled := summary.cancelled + 1 }
    | .replaced _ => { summary with replaced := summary.replaced + 1 }
    | .topOfBook _ => { summary with topOfBook := summary.topOfBook + 1 }
  { summary := { counted with
      events := summary.events + 1, fingerprint := hashEvent summary.fingerprint event }
    terminalCount := tally.terminalCount + (isTerminal event).toNat
    topCount := tally.topCount + (isTopOfBook event).toNat }

/-- The checks of one kind of event, for what the first event of the batch was. -/
def checkKind (accepted rejected : Bool) (len index : ℕ) (tally : Tally) :
    Event → Except EventValidationError Unit
  | .trade _ => if !accepted then .error .unexpectedTrade else .ok ()
  | .topOfBook _ =>
    if rejected then .error .unexpectedTopOfBook
    else if 1 < tally.topCount + 1 then .error .duplicateTopOfBook
    else if index + 1 ≠ len then .error .topOfBookNotLast
    else .ok ()
  | _ => .ok ()

def checkEvent (accepted rejected : Bool) (len : ℕ) (instrument : InstrumentId)
    (sequence : SequenceNumber) (index : ℕ) (tally : Tally) (event : Event) :
    Except EventValidationError Unit :=
  if eventInstrument event ≠ instrument then .error .wrongInstrument
  else if event.id.commandSequence ≠ sequence then .error .wrongSequence
  else if event.id.ordinal.val ≠ index then .error .wrongOrdinal
  else if isTerminal event ∧ index ≠ 0 then .error .terminalNotFirst
  else checkKind accepted rejected len index tally event

def checkEvents (accepted rejected : Bool) (len : ℕ) (instrument : InstrumentId)
    (sequence : SequenceNumber) : List Event → ℕ → Tally → Except EventValidationError Tally
  | [], _, tally => .ok tally
  | event :: events, index, tally =>
    match checkEvent accepted rejected len instrument sequence index tally event with
    | .error error => .error error
    | .ok () =>
      checkEvents accepted rejected len instrument sequence events (index + 1) (tally.record event)

/-- Checks event identity and ordering within one command batch. -/
def validateBatch {N : ℕ} (batch : EventBatch N) (instrument : InstrumentId)
    (sequence : SequenceNumber) : Except EventValidationError EventSummary :=
  match batch.entries.head? with
  | none => .error .emptyBatch
  | some first =>
    match checkEvents (isAccepted first) (isRejected first) batch.entries.length instrument sequence
        batch.entries 0 ⟨.default, 0, 0⟩ with
    | .error error => .error error
    | .ok tally =>
      if tally.terminalCount ≠ 1 then .error .terminalCount
      else .ok { tally.summary with terminals := tally.terminalCount }

/-! ## The accepted batches -/

/-- What may follow the first event: trades after an acceptance, then a top of the book unless the
command was rejected. -/
inductive Follows (accepted rejected : Bool) : List Event → Prop where
  | nil : Follows accepted rejected []
  | top (h : rejected = false) (event : TopOfBook) : Follows accepted rejected [.topOfBook event]
  | trade (h : accepted = true) (event : Trade) {events : List Event}
      (hrest : Follows accepted rejected events) : Follows accepted rejected (.trade event :: events)

/-- The batches of one command. -/
structure WellFormed {N : ℕ} (batch : EventBatch N) (instrument : InstrumentId)
    (sequence : SequenceNumber) : Prop where
  numbered : batch.Numbered sequence
  instrument : ∀ event ∈ batch.entries, eventInstrument event = instrument
  shape : ∃ first events, batch.entries = first :: events ∧ isTerminal first = true ∧
    Follows (isAccepted first) (isRejected first) events

/-- The counts of the events of each kind, and their fingerprint. -/
def summarize (events : List Event) : EventSummary where
  events := events.length
  terminals := events.countP isTerminal
  accepted := events.countP isAccepted
  rejected := events.countP isRejected
  cancelled := events.countP isCancelled
  replaced := events.countP isReplaced
  trades := events.countP isTrade
  topOfBook := events.countP isTopOfBook
  fingerprint := events.foldl hashEvent 0

/-- The tally of checked events. -/
def tallyOf (events : List Event) : Tally where
  summary := { summarize events with terminals := 0 }
  terminalCount := events.countP isTerminal
  topCount := events.countP isTopOfBook

theorem tallyOf_concat (events : List Event) (event : Event) :
    (tallyOf events).record event = tallyOf (events ++ [event]) := by
  unfold tallyOf summarize Tally.record
  simp only [List.countP_append, List.countP_singleton, List.length_append, List.length_singleton,
    List.foldl_append, List.foldl_cons, List.foldl_nil]
  cases event <;> rfl

section Check

variable {accepted rejected : Bool} {len index : ℕ} {instrument : InstrumentId}
  {sequence : SequenceNumber} {tally : Tally} {event : Event} {before events : List Event}

/-- The event carries the sequence and the ordinal, and belongs to the instrument. -/
def Identified (instrument : InstrumentId) (sequence : SequenceNumber) (index : ℕ) (event : Event) : Prop :=
  eventInstrument event = instrument ∧ event.id.commandSequence = sequence ∧ event.id.ordinal.val = index

theorem checkKind_trade {trade : Trade} :
    checkKind accepted rejected len index tally (.trade trade) = .ok () ↔ accepted = true := by
  cases accepted <;> simp [checkKind]

theorem checkKind_topOfBook {top : TopOfBook} :
    checkKind accepted rejected len index tally (.topOfBook top) = .ok () ↔
      rejected = false ∧ tally.topCount = 0 ∧ index + 1 = len := by
  rw [checkKind]
  constructor
  · intro h
    split at h
    · exact absurd h (by simp)
    next hrejected =>
    split at h
    · exact absurd h (by simp)
    next hcount =>
    split at h
    · exact absurd h (by simp)
    next hlast => exact ⟨Bool.eq_false_iff.mpr hrejected, by omega, not_not.mp hlast⟩
  · rintro ⟨hrejected, hcount, hlast⟩
    rw [if_neg (by simp [hrejected]), if_neg (by omega), if_neg (not_not.mpr hlast)]

theorem checkEvent_eq_ok :
    checkEvent accepted rejected len instrument sequence index tally event = .ok () ↔
      Identified instrument sequence index event ∧ (isTerminal event = true → index = 0) ∧
        checkKind accepted rejected len index tally event = .ok () := by
  unfold checkEvent Identified
  constructor
  · intro h
    split at h
    · exact absurd h (by simp)
    next hinstrument =>
    split at h
    · exact absurd h (by simp)
    next hsequence =>
    split at h
    · exact absurd h (by simp)
    next hordinal =>
    split at h
    · exact absurd h (by simp)
    next hterminal =>
    refine ⟨⟨not_not.mp hinstrument, not_not.mp hsequence, not_not.mp hordinal⟩, fun h' ↦ ?_, h⟩
    by_contra hindex
    exact hterminal ⟨h', hindex⟩
  · rintro ⟨⟨hinstrument, hsequence, hordinal⟩, hterminal, hkind⟩
    rw [if_neg (not_not.mpr hinstrument), if_neg (not_not.mpr hsequence), if_neg (not_not.mpr hordinal),
      if_neg fun h ↦ h.2 (hterminal h.1)]
    exact hkind

/-- Behind the first event only trades and a last top of the book pass. -/
theorem checkEvent_behind (hindex : index ≠ 0) :
    checkEvent accepted rejected len instrument sequence index tally event = .ok () ↔
      Identified instrument sequence index event ∧
        ((∃ trade, event = .trade trade ∧ accepted = true) ∨
          ∃ top, event = .topOfBook top ∧ rejected = false ∧ tally.topCount = 0 ∧ index + 1 = len) := by
  rw [checkEvent_eq_ok]
  apply and_congr_right
  intro _
  cases event with
  | trade trade =>
    rw [checkKind_trade]
    simp [isTerminal, isAccepted, isRejected, isCancelled, isReplaced]
  | topOfBook top =>
    rw [checkKind_topOfBook]
    simp [isTerminal, isAccepted, isRejected, isCancelled, isReplaced]
  | accepted _ | rejected _ | cancelled _ | replaced _ =>
    simp [isTerminal, isAccepted, isRejected, isCancelled, isReplaced, hindex]

/-- The numbering of events from an ordinal on. -/
def IdentifiedFrom (instrument : InstrumentId) (sequence : SequenceNumber) : ℕ → List Event → Prop
  | _, [] => True
  | index, event :: events =>
    Identified instrument sequence index event ∧ IdentifiedFrom instrument sequence (index + 1) events

theorem identifiedFrom_iff :
    IdentifiedFrom instrument sequence index events ↔
      (∀ event ∈ events, eventInstrument event = instrument) ∧
        events.map (fun event ↦ (event.id.commandSequence, event.id.ordinal.val)) =
          (List.range' index events.length).map fun ordinal ↦ (sequence, ordinal) := by
  induction events generalizing index with
  | nil => simp [IdentifiedFrom]
  | cons event events ih =>
    rw [IdentifiedFrom, ih, List.forall_mem_cons, List.map_cons, List.length_cons, List.range'_succ,
      List.map_cons, List.cons.injEq, Prod.mk.injEq]
    unfold Identified
    tauto

/-- The loop behind the first event accepts what may follow it, and counts it. -/
theorem checkEvents_eq_ok (hpos : 0 < before.length) (hlen : before.length + events.length = len)
    (htop : before.countP isTopOfBook = 0) :
    checkEvents accepted rejected len instrument sequence events before.length (tallyOf before) =
        .ok tally ↔
      IdentifiedFrom instrument sequence before.length events ∧ Follows accepted rejected events ∧
        tally = tallyOf (before ++ events) := by
  induction events generalizing before with
  | nil =>
    rw [checkEvents, List.append_nil, Except.ok.injEq]
    constructor
    · rintro rfl
      exact ⟨trivial, .nil, rfl⟩
    · rintro ⟨_, _, rfl⟩
      rfl
  | cons event events ih =>
    rw [List.length_cons] at hlen
    have hcheck := @checkEvent_behind accepted rejected len before.length instrument sequence
      (tallyOf before) event hpos.ne'
    have hnext : (before ++ [event]).length = before.length + 1 := by simp
    rw [checkEvents, IdentifiedFrom]
    constructor
    · intro h
      split at h
      · exact absurd h (by simp)
      next hok =>
      obtain ⟨hidentified, hkind⟩ := hcheck.mp hok
      rcases hkind with ⟨trade, rfl, haccepted⟩ | ⟨top, rfl, hrejected, _, hlast⟩
      · rw [tallyOf_concat, ← hnext, ih (by simp) (by rw [hnext]; omega) (by simp [htop, isTopOfBook])] at h
        obtain ⟨hrest, hfollows, htally⟩ := h
        rw [hnext] at hrest
        rw [List.append_assoc] at htally
        exact ⟨⟨hidentified, hrest⟩, .trade haccepted trade hfollows, htally⟩
      · have hnil : events = [] := List.length_eq_zero_iff.mp (by omega)
        subst hnil
        rw [checkEvents, tallyOf_concat, Except.ok.injEq] at h
        exact ⟨⟨hidentified, trivial⟩, .top hrejected top, h.symm⟩
    · rintro ⟨⟨hidentified, hrest⟩, hfollows, rfl⟩
      cases hfollows with
      | top hrejected top =>
        have hlast : before.length + 1 = len := by simpa using hlen
        rw [hcheck.mpr ⟨hidentified, .inr ⟨top, rfl, hrejected, htop, hlast⟩⟩, tallyOf_concat]
        rfl
      | trade haccepted trade hfollows =>
        rw [hcheck.mpr ⟨hidentified, .inl ⟨trade, rfl, haccepted⟩⟩, tallyOf_concat, ← hnext]
        simp only
        rw [ih (by simp) (by rw [hnext]; omega) (by simp [htop, isTopOfBook]), hnext, List.append_assoc]
        exact ⟨hrest, hfollows, rfl⟩

theorem countP_isTopOfBook_of_terminal (h : isTerminal event = true) :
    [event].countP isTopOfBook = 0 := by
  cases event with
  | topOfBook top =>
    exact absurd h (by simp [isTerminal, isAccepted, isRejected, isCancelled, isReplaced])
  | trade _ | accepted _ | rejected _ | cancelled _ | replaced _ => rfl

/-- What follows the first event contains no other terminal event. -/
theorem Follows.countP_isTerminal (h : Follows accepted rejected events) :
    events.countP isTerminal = 0 := by
  induction h with
  | nil => rfl
  | top _ _ => rfl
  | trade _ trade _ ih =>
    rw [List.countP_cons_of_neg (by simp [isTerminal, isAccepted, isRejected, isCancelled, isReplaced]), ih]

theorem numbered_iff {N : ℕ} {batch : EventBatch N} {instrument : InstrumentId}
    {sequence : SequenceNumber} :
    IdentifiedFrom instrument sequence 0 batch.entries ↔
      (∀ event ∈ batch.entries, eventInstrument event = instrument) ∧ batch.Numbered sequence := by
  rw [identifiedFrom_iff, EventBatch.Numbered, List.range_eq_range']

/-- The loop behind a terminal event. -/
theorem checkEvents_first {first : Event} (hterminal : isTerminal first = true) :
    checkEvents (isAccepted first) (isRejected first) (first :: events).length instrument sequence events 1
        (tallyOf [first]) = .ok tally ↔
      IdentifiedFrom instrument sequence 1 events ∧ Follows (isAccepted first) (isRejected first) events ∧
        tally = tallyOf (first :: events) := by
  have hlength : [first].length + events.length = (first :: events).length := Nat.add_comm _ _
  have hpos : 0 < [first].length := Nat.one_pos
  exact checkEvents_eq_ok hpos hlength (countP_isTopOfBook_of_terminal hterminal)

/-- A batch that passes begins with its terminal event. -/
theorem isTerminal_of_checkEvents {first : Event} {rest : List Event}
    (hkind : checkKind (isAccepted first) (isRejected first) (first :: rest).length 0 (tallyOf []) first =
      .ok ())
    (hrest : checkEvents (isAccepted first) (isRejected first) (first :: rest).length instrument sequence
      rest 1 (tallyOf [first]) = .ok tally) (hcount : tally.terminalCount = 1) :
    isTerminal first = true := by
  cases first with
  | accepted _ | rejected _ | cancelled _ | replaced _ => rfl
  | trade trade => exact absurd (checkKind_trade.mp hkind) (by simp [isAccepted])
  | topOfBook top =>
    -- a top of the book in the first place is also in the last one
    obtain ⟨_, _, hlast⟩ := checkKind_topOfBook.mp hkind
    have hnil : rest = [] := by
      rw [List.length_cons] at hlast
      exact List.length_eq_zero_iff.mp (by omega)
    subst hnil
    rw [checkEvents, Except.ok.injEq] at hrest
    rw [← hrest] at hcount
    exact absurd hcount (by simp [tallyOf, isTerminal, isAccepted, isRejected, isCancelled, isReplaced])

/-- The check accepts exactly the well-formed batches, and counts their events. -/
theorem validateBatch_eq_ok {N : ℕ} (batch : EventBatch N) (instrument : InstrumentId)
    (sequence : SequenceNumber) (summary : EventSummary) :
    validateBatch batch instrument sequence = .ok summary ↔
      WellFormed batch instrument sequence ∧ summary = summarize batch.entries := by
  have hnumbered := @numbered_iff N batch instrument sequence
  unfold validateBatch
  cases hentries : batch.entries with
  | nil =>
    constructor
    · exact fun h ↦ absurd h (by simp)
    · rintro ⟨⟨_, _, first, events, heq, _, _⟩, _⟩
      rw [hentries] at heq
      exact absurd heq (by simp)
  | cons first events =>
    rw [hentries, IdentifiedFrom] at hnumbered
    have hstart : (⟨.default, 0, 0⟩ : Tally) = tallyOf [] := rfl
    simp only [List.head?_cons, checkEvents, hstart, tallyOf_concat, List.nil_append, Nat.zero_add]
    constructor
    · intro h
      split at h
      · exact absurd h (by simp)
      next tally htally =>
      split at htally
      · exact absurd htally (by simp)
      next hok =>
      obtain ⟨hidentified, _, hkind⟩ := checkEvent_eq_ok.mp hok
      split at h
      · exact absurd h (by simp)
      next hcount =>
      have hterminal := isTerminal_of_checkEvents hkind htally (not_not.mp hcount)
      obtain ⟨hrest, hfollows, rfl⟩ := (checkEvents_first hterminal).mp htally
      obtain ⟨hinstrument, hnumbers⟩ := hnumbered.mp ⟨hidentified, hrest⟩
      refine ⟨⟨hnumbers, ?_, first, events, hentries, hterminal, hfollows⟩, ?_⟩
      · rw [hentries]
        exact hinstrument
      · rw [← Except.ok.inj h]
        rfl
    · rintro ⟨⟨hnumbers, hinstrument, first', events', heq, hterminal, hfollows⟩, rfl⟩
      rw [hentries] at heq hinstrument
      obtain ⟨rfl, rfl⟩ := List.cons.inj heq
      obtain ⟨hidentified, hrest⟩ := hnumbered.mpr ⟨hinstrument, hnumbers⟩
      have hkind : checkKind (isAccepted first) (isRejected first) (first :: events).length 0
          (tallyOf []) first = .ok () := by
        cases first with
        | trade _ | topOfBook _ =>
          exact absurd hterminal (by simp [isTerminal, isAccepted, isRejected, isCancelled, isReplaced])
        | accepted _ | rejected _ | cancelled _ | replaced _ => rfl
      have hcount : (tallyOf (first :: events)).terminalCount = 1 := by
        show (first :: events).countP isTerminal = 1
        rw [List.countP_cons_of_pos hterminal, hfollows.countP_isTerminal]
      rw [checkEvent_eq_ok.mpr ⟨hidentified, fun _ ↦ rfl, hkind⟩]
      simp only
      rw [(checkEvents_first hterminal).mpr ⟨hrest, hfollows, rfl⟩]
      simp only
      rw [if_neg (not_not.mpr hcount)]
      rfl

end Check

/-! ## Published batches -/

section Published

variable {ACCOUNTS RISK_ORDERS LEVELS ORDERS_PER_LEVEL BATCH : ℕ} {accepted rejected : Bool}
  {transition : Gateway.Transition ACCOUNTS RISK_ORDERS LEVELS ORDERS_PER_LEVEL} {batch : EventBatch BATCH}
  {sequence : SequenceNumber} {instrument : InstrumentId}

theorem fromCommand_instrumentId (command : Command) :
    (CommandIdentity.fromCommand command).instrumentId = command.instrumentId := by
  cases command <;> rfl

theorem follows_topEvents (hrejected : rejected = false) (command : CommandIdentity)
    (before after : Option TopLevel × Option TopLevel) (ordinal : ℕ) :
    Follows accepted rejected (topEvents command sequence before after ordinal) := by
  unfold topEvents
  split
  · exact .top hrejected _
  · exact .nil

theorem follows_tradeEvents (haccepted : accepted = true) {events : List Event}
    (h : Follows accepted rejected events) (reports : List ExecutionReport) (ordinal : ℕ) :
    Follows accepted rejected (tradeEvents sequence reports ordinal ++ events) := by
  induction reports generalizing ordinal with
  | nil => exact h
  | cons report reports ih => exact .trade haccepted _ (ih (ordinal + 1))

theorem eventInstrument_tradeEvents {reports : List ExecutionReport} (ordinal : ℕ)
    (h : ∀ report ∈ reports, report.instrumentId = instrument) :
    ∀ event ∈ tradeEvents sequence reports ordinal, eventInstrument event = instrument := by
  induction reports generalizing ordinal with
  | nil => simp [tradeEvents]
  | cons report reports ih =>
    rw [List.forall_mem_cons] at h
    rw [tradeEvents, List.forall_mem_cons]
    exact ⟨h.1, ih (ordinal + 1) h.2⟩

theorem eventInstrument_topEvents (command : CommandIdentity)
    (before after : Option TopLevel × Option TopLevel) (ordinal : ℕ) :
    ∀ event ∈ topEvents command sequence before after ordinal,
      eventInstrument event = command.instrumentId := by
  unfold topEvents
  split
  · intro event hevent
    rw [List.mem_singleton.mp hevent]
    rfl
  · simp

/-- Reports are about the instrument of their command. -/
theorem instrumentId_of_reported (h : transition.Reported) :
    ∀ report ∈ transition.reports, report.instrumentId = transition.command.instrumentId := by
  obtain ⟨before, command, result, reports, after⟩ := transition
  intro report hreport
  cases result with
  | error error =>
    have hnone : reports = [] := (h.rejected error rfl).1
    rw [hnone] at hreport
    exact absurd hreport (by simp)
  | ok outcome =>
    have hanswers := h.accepted outcome rfl
    cases hanswers with
    | newOrder _ htaker => exact (htaker report hreport).2
    | cancelled | replaced => exact absurd hreport (by simp)

theorem isTerminal_of_terminal {command : Command} {result : Except GatewayError GatewayOutcome}
    {terminal : Event} (h : Terminal command result terminal) :
    isTerminal terminal = true ∧ eventInstrument terminal = command.instrumentId := by
  rw [← fromCommand_instrumentId]
  cases h with
  | answer outcome => cases outcome <;> exact ⟨rfl, rfl⟩
  | risk reason => exact ⟨rfl, rfl⟩
  | book reason => exact ⟨rfl, rfl⟩

/-- What follows the terminal event of a command. -/
theorem follows_of_reported (h : transition.Reported) {terminal : Event}
    (hterminal : Terminal transition.command transition.result terminal) :
    Follows (isAccepted terminal) (isRejected terminal)
      (tradeEvents transition.command.sequence transition.reports 1 ++
        topEvents (.fromCommand transition.command) transition.command.sequence
          (BoundedEventEngine.tops transition.before) (BoundedEventEngine.tops transition.after)
          (transition.reports.length + 1)) := by
  obtain ⟨before, command, result, reports, after⟩ := transition
  have hrejected (error : GatewayError) (herror : result = .error error) :
      tradeEvents command.sequence reports 1 ++ topEvents (.fromCommand command) command.sequence
        (BoundedEventEngine.tops before) (BoundedEventEngine.tops after) (reports.length + 1) = [] := by
    obtain ⟨hreports, htops⟩ := h.rejected error herror
    have hreports' : reports = [] := hreports
    rw [hreports', topEvents, if_neg (not_not.mpr (tops_eq_of_topLevel htops).symm)]
    rfl
  cases hterminal with
  | answer outcome =>
    have hanswers := h.accepted outcome rfl
    cases hanswers with
    | newOrder _ _ => exact follows_tradeEvents rfl (follows_topEvents rfl _ _ _ _) reports 1
    | cancelled | replaced => exact follows_topEvents rfl _ _ _ _
  | risk reason =>
    rw [hrejected _ rfl]
    exact .nil
  | book reason =>
    rw [hrejected _ rfl]
    exact .nil

/-- The batch of a command is well formed. -/
theorem wellFormed_of_publishes (h : Publishes transition batch) :
    WellFormed batch transition.command.instrumentId transition.command.sequence := by
  obtain ⟨terminal, hterminal, hentries⟩ := h.entries
  obtain ⟨hfirst, hinstrument⟩ := isTerminal_of_terminal hterminal
  refine ⟨h.numbered, ?_, terminal, _, hentries, hfirst, follows_of_reported h.reported hterminal⟩
  rw [hentries, List.forall_mem_cons, List.forall_mem_append]
  refine ⟨hinstrument, eventInstrument_tradeEvents 1 (instrumentId_of_reported h.reported), ?_⟩
  rw [← fromCommand_instrumentId]
  exact eventInstrument_topEvents _ _ _ _

/-! ### Counts -/

/-- What the summary of a checked batch says about its command. -/
structure Counts (transition : Gateway.Transition ACCOUNTS RISK_ORDERS LEVELS ORDERS_PER_LEVEL)
    (summary : EventSummary) : Prop where
  terminals : summary.terminals = 1
  accepted : summary.accepted = 1 ↔ ∃ answer, transition.result = .ok (.newOrder answer)
  cancelled : summary.cancelled = 1 ↔ ∃ answer, transition.result = .ok (.cancelled answer)
  replaced : summary.replaced = 1 ↔ ∃ answer, transition.result = .ok (.replaced answer)
  rejected : summary.rejected = 1 ↔ ∃ error, transition.result = .error error
  trades : summary.trades = transition.reports.length
  topOfBook : summary.topOfBook =
    if BoundedEventEngine.tops transition.before = BoundedEventEngine.tops transition.after then 0 else 1
  events : summary.events = 1 + summary.trades + summary.topOfBook

theorem countP_tradeEvents {kind : Event → Bool} (hkind : ∀ trade, kind (.trade trade) = false)
    (reports : List ExecutionReport) (ordinal : ℕ) :
    (tradeEvents sequence reports ordinal).countP kind = 0 := by
  induction reports generalizing ordinal with
  | nil => rfl
  | cons report reports ih =>
    rw [tradeEvents, List.countP_cons_of_neg (by simp [tradeEvent, hkind]), ih]

theorem countP_isTrade_tradeEvents (reports : List ExecutionReport) (ordinal : ℕ) :
    (tradeEvents sequence reports ordinal).countP isTrade = reports.length := by
  induction reports generalizing ordinal with
  | nil => rfl
  | cons report reports ih =>
    rw [tradeEvents, List.countP_cons_of_pos (by rfl), ih, List.length_cons]

theorem countP_topEvents {kind : Event → Bool} (command : CommandIdentity)
    (before after : Option TopLevel × Option TopLevel) (ordinal : ℕ) :
    (topEvents command sequence before after ordinal).countP kind =
      if before = after then 0
      else (kind (.topOfBook ⟨⟨sequence, Fin.ofNat (2 ^ 16) ordinal⟩, command.instrumentId, after.1,
        after.2⟩)).toNat := by
  unfold topEvents
  by_cases hsame : before = after
  · rw [if_neg (not_not.mpr hsame), if_pos hsame]
    rfl
  · rw [if_pos hsame, if_neg hsame, List.countP_singleton]
    cases kind _ <;> rfl

theorem length_topEvents (command : CommandIdentity) (before after : Option TopLevel × Option TopLevel)
    (ordinal : ℕ) :
    (topEvents command sequence before after ordinal).length = if before = after then 0 else 1 := by
  unfold topEvents
  by_cases hsame : before = after
  · rw [if_neg (not_not.mpr hsame), if_pos hsame]
    rfl
  · rw [if_pos hsame, if_neg hsame]
    rfl

/-- The kind of the terminal event is that of the result. -/
theorem kinds_of_terminal {command : Command} {result : Except GatewayError GatewayOutcome}
    {terminal : Event} (h : Terminal command result terminal) :
    (isAccepted terminal = true ↔ ∃ answer, result = .ok (.newOrder answer)) ∧
      (isCancelled terminal = true ↔ ∃ answer, result = .ok (.cancelled answer)) ∧
      (isReplaced terminal = true ↔ ∃ answer, result = .ok (.replaced answer)) ∧
      (isRejected terminal = true ↔ ∃ error, result = .error error) := by
  cases h with
  | answer outcome =>
    cases outcome <;> simp [terminalEvent, isAccepted, isCancelled, isReplaced, isRejected]
  | risk reason => simp [isAccepted, isCancelled, isReplaced, isRejected]
  | book reason => simp [isAccepted, isCancelled, isReplaced, isRejected]

/-- The summary of a published batch counts the trades of its command, and the kind of its result. -/
theorem counts_of_publishes (h : Publishes transition batch) :
    Counts transition (summarize batch.entries) := by
  obtain ⟨terminal, hterminal, hentries⟩ := h.entries
  obtain ⟨haccepted, hcancelled, hreplaced, hrejected⟩ := kinds_of_terminal hterminal
  have hfirst := (isTerminal_of_terminal hterminal).1
  have hkind (kind : Event → Bool) (htrade : ∀ trade, kind (.trade trade) = false)
      (htop : ∀ top, kind (.topOfBook top) = false) :
      batch.entries.countP kind = (kind terminal).toNat := by
    rw [hentries, List.countP_cons, List.countP_append, countP_tradeEvents htrade, countP_topEvents, htop]
    cases kind terminal <;> simp
  have htrades : batch.entries.countP isTrade = transition.reports.length := by
    have hnot : ¬ isTrade terminal = true := by
      cases terminal <;> simp_all [isTerminal, isAccepted, isRejected, isCancelled, isReplaced, isTrade]
    rw [hentries, List.countP_cons_of_neg hnot, List.countP_append, countP_isTrade_tradeEvents,
      countP_topEvents]
    simp [isTrade]
  have htops : batch.entries.countP isTopOfBook =
      if BoundedEventEngine.tops transition.before = BoundedEventEngine.tops transition.after then 0
      else 1 := by
    have hnot : ¬ isTopOfBook terminal = true := by
      cases terminal <;> simp_all [isTerminal, isAccepted, isRejected, isCancelled, isReplaced, isTopOfBook]
    rw [hentries, List.countP_cons_of_neg hnot, List.countP_append,
      countP_tradeEvents (fun _ ↦ rfl), countP_topEvents, Nat.zero_add]
    rfl
  have hlength : batch.entries.length = 1 + transition.reports.length +
      batch.entries.countP isTopOfBook := by
    rw [htops, hentries, List.length_cons, List.length_append, length_tradeEvents, length_topEvents]
    omega
  exact {
    terminals := by
      have hcount := hkind isTerminal (fun _ ↦ rfl) (fun _ ↦ rfl)
      rw [hfirst] at hcount
      exact hcount
    accepted := by
      have hcount := hkind isAccepted (fun _ ↦ rfl) (fun _ ↦ rfl)
      rw [← haccepted, ← Bool.toNat_eq_one, ← hcount]
      rfl
    cancelled := by
      have hcount := hkind isCancelled (fun _ ↦ rfl) (fun _ ↦ rfl)
      rw [← hcancelled, ← Bool.toNat_eq_one, ← hcount]
      rfl
    replaced := by
      have hcount := hkind isReplaced (fun _ ↦ rfl) (fun _ ↦ rfl)
      rw [← hreplaced, ← Bool.toNat_eq_one, ← hcount]
      rfl
    rejected := by
      have hcount := hkind isRejected (fun _ ↦ rfl) (fun _ ↦ rfl)
      rw [← hrejected, ← Bool.toNat_eq_one, ← hcount]
      rfl
    trades := htrades
    topOfBook := htops
    events := by
      show batch.entries.length = 1 + batch.entries.countP isTrade + batch.entries.countP isTopOfBook
      rw [htrades, hlength] }

end Published

/-! ## Runs -/

section Runs

variable {ACCOUNTS RISK_ORDERS LEVELS ORDERS_PER_LEVEL BATCH REPORTS : ℕ}
  {gateway : Gateway ACCOUNTS RISK_ORDERS LEVELS ORDERS_PER_LEVEL}
  {engine : BoundedEventEngine ACCOUNTS RISK_ORDERS LEVELS ORDERS_PER_LEVEL BATCH}

/-- Whatever calls are made and however the consumer pops in between, the engine keeps its account. -/
theorem exists_sound (hc : Capacities ACCOUNTS RISK_ORDERS LEVELS ORDERS_PER_LEVEL)
    (hreachable : gateway.Reachable) (hnew : BoundedEventEngine.tryNew REPORTS BATCH gateway = .ok engine)
    (QUEUE : ℕ) (actions : List Action) :
    ∃ replies system transitions,
      execute (EventSystem.step REPORTS QUEUE) (EventSystem.start engine) actions = .ok (replies, system) ∧
      system.Sound REPORTS QUEUE gateway transitions := by
  obtain ⟨hordinals, hbatch, rfl⟩ := (BoundedEventEngine.tryNew_eq_ok REPORTS).mp hnew
  have hstep (system : EventSystem ACCOUNTS RISK_ORDERS LEVELS ORDERS_PER_LEVEL BATCH)
      (h : ∃ transitions, system.Sound REPORTS QUEUE gateway transitions) (action : Action)
      (_ : action ∈ actions) : ∃ reply system', system.step REPORTS QUEUE action = .ok (reply, system') ∧
        ∃ transitions, system'.Sound REPORTS QUEUE gateway transitions := by
    obtain ⟨transitions, hsound⟩ := h
    obtain ⟨reply, system', transitions', hrun, hsound', _⟩ := hsound.step hc hordinals hbatch action
    exact ⟨reply, system', hrun, transitions', hsound'⟩
  obtain ⟨replies, system, hrun, transitions, hsound⟩ :=
    execute_invariant actions hstep ⟨[], EventSystem.Sound.start hc hreachable⟩
  exact ⟨replies, system, transitions, hrun, hsound⟩

/-- Every batch that is published passes the check, and its summary tells what its command did. -/
theorem published_batches_validate (hc : Capacities ACCOUNTS RISK_ORDERS LEVELS ORDERS_PER_LEVEL)
    (hreachable : gateway.Reachable) (hnew : BoundedEventEngine.tryNew REPORTS BATCH gateway = .ok engine)
    (QUEUE : ℕ) (actions : List Action) :
    ∃ replies system transitions,
      execute (EventSystem.step REPORTS QUEUE) (EventSystem.start engine) actions = .ok (replies, system) ∧
      Gateway.Trace gateway transitions system.engine.gateway ∧
      List.Forall₂ (fun transition batch ↦ ∃ summary,
          validateBatch batch transition.command.instrumentId transition.command.sequence = .ok summary ∧
            Counts transition summary)
        (system.phase.settled transitions) (system.received ++ system.engine.queue) := by
  obtain ⟨replies, system, transitions, hrun, hsound⟩ := exists_sound hc hreachable hnew QUEUE actions
  refine ⟨replies, system, transitions, hrun, hsound.trace, hsound.published.imp ?_⟩
  intro transition batch hpublishes
  refine ⟨summarize batch.entries, ?_, counts_of_publishes hpublishes⟩
  exact (validateBatch_eq_ok _ _ _ _).mpr ⟨wellFormed_of_publishes hpublishes, rfl⟩

/-- The sample gateway: an order is published, and a cancel of it is on its way. -/
theorem published_batches_validate_sample :
    ∃ engine : BoundedEventEngine 1 1 1 1 3, BoundedEventEngine.tryNew 1 3 Gateway.sampleStart = .ok engine ∧
      ∃ replies system transitions, execute (EventSystem.step 1 2) (EventSystem.start engine)
          [.call (.command Gateway.sampleOrder), .advance, .advance, .pop,
            .call (.frame (Wire.encodeCommand (Gateway.sampleCancel 2))), .advance] = .ok (replies, system) ∧
        Gateway.Trace Gateway.sampleStart transitions system.engine.gateway ∧
        List.Forall₂ (fun transition batch ↦ ∃ summary,
            validateBatch batch transition.command.instrumentId transition.command.sequence = .ok summary ∧
              Counts transition summary)
          (system.phase.settled transitions) (system.received ++ system.engine.queue) := by
  obtain ⟨engine, hnew⟩ : ∃ engine, BoundedEventEngine.tryNew 1 3 Gateway.sampleStart = .ok engine := ⟨_, rfl⟩
  have hc : Capacities 1 1 1 1 := ⟨by decide, by decide, by decide, by decide⟩
  exact ⟨engine, hnew, published_batches_validate hc (.start (.inl Gateway.sampleStart_started)) hnew 2 _⟩

end Runs

end DeterministicExchange.Soak
