import DeterministicExchange.Spsc.Interleaving

/-!
# Taking a ring down

`into_inner` lets the head pass a slot before it moves the value out, and `Drop`
visits the slots that are left between the cursors. Wherever `into_inner`
unwinds, each value has been popped, moved out or dropped once, except for the
one of a slot that the head has passed already.
-/

namespace DeterministicExchange.Spsc

open Machine

variable {T : Type} {N : ℕ}

namespace SpscQueue

/-- The head passes a slot. -/
def advance (queue : SpscQueue T N) : SpscQueue T N := { queue with head := wrappingSucc queue.head }

/-- Rounds of `into_inner` with the values that they move out, as many as given or until the ring is empty.
`none` is a slot without a value. -/
def moveOut : ℕ → SpscQueue T N → Option (List T × SpscQueue T N)
  | 0, queue => some ([], queue)
  | rounds + 1, queue =>
    if queue.head = queue.tail then some ([], queue)
    else
      match queue.slots[queue.head.val &&& (N - 1)]? with
      | some (some value) =>
        (moveOut rounds
            { queue.advance with slots := queue.slots.setIfInBounds (queue.head.val &&& (N - 1)) none }).map
          fun (moved, queue) ↦ (value :: moved, queue)
      | _ => none

/-- The ring that `into_inner` leaves if it unwinds between two rounds, or in a round after the store of the
head. -/
def unwound (queue : SpscQueue T N) (opened : Bool) : SpscQueue T N :=
  if opened ∧ queue.head ≠ queue.tail then queue.advance else queue

/-- The values that `Drop` visits; `drop_value` leaves a slot as a move does. -/
def dropValues (queue : SpscQueue T N) : Option (List T) := drain queue.slots queue.head queue.tail

/-- A ring without endpoints that holds the values numbered from `first`. -/
structure Standing (base : U64) (values : List T) (queue : SpscQueue T N) (first : ℕ) : Prop where
  head : queue.head = cursor base first
  tail : queue.tail = cursor base values.length
  first_le : first ≤ values.length
  room : values.length ≤ first + N
  slots : Holds base queue.slots values first values.length

/-- What the drained slots hold decides the values, whatever there is in the others. -/
theorem drain_of_live (hN : N.isPowerOfTwo) (hlt : N < 2 ^ 64) {base : U64} {values : List T} (n : ℕ)
    {slots : Vector (Option T) N} {first : ℕ} (hlast : values.length = first + n)
    (hroom : values.length ≤ first + N)
    (hlive : ∀ i, first ≤ i → i < values.length → slots[(base.val + i) % N]? = some values[i]?) :
    drain slots (cursor base first) (cursor base values.length) = some (values.drop first) := by
  induction n generalizing slots first with
  | zero =>
    rw [drain, hlast, Nat.add_zero, if_pos rfl, List.drop_eq_nil_of_le (by omega)]
  | succ n ih =>
    have hless : first < values.length := by omega
    have hne : cursor base first ≠ cursor base values.length := by
      rw [ne_eq, cursor_eq_iff base hless.le (by omega)]
      exact hless.ne
    have hfirst := hlive first le_rfl hless
    rw [List.getElem?_eq_getElem hless] at hfirst
    rw [drain, if_neg hne, Coherent.cursor_masked hN hlt, hfirst]
    simp only [wrappingSucc_cursor]
    rw [ih (by omega) (by omega) ?_, List.drop_eq_getElem_cons hless]
    · rfl
    · intro i hle hi
      rw [Vector.getElem?_setIfInBounds_ne (Holds.place_ne (by omega) (by omega) (by omega))]
      exact hlive i (by omega) hi

namespace Standing

variable {base : U64} {values : List T} {queue : SpscQueue T N} {first : ℕ}

theorem empty_iff (hlt : N < 2 ^ 64) (h : Standing base values queue first) :
    queue.head = queue.tail ↔ first = values.length := by
  have hroom := h.room
  rw [h.head, h.tail, cursor_eq_iff base h.first_le (by omega)]

/-- The head may pass a slot whether its value is moved out or not; what is left stands. -/
theorem advance (h : Standing base values queue first) (hless : first < values.length) :
    Standing base values
      { queue.advance with slots := queue.slots.setIfInBounds ((base.val + first) % N) none }
        (first + 1) where
  head := by
    show wrappingSucc queue.head = _
    rw [h.head, wrappingSucc_cursor]
  tail := h.tail
  first_le := hless
  room := h.room.trans (by omega)
  slots := h.slots.pop hless h.room

theorem moveOut (hN : N.isPowerOfTwo) (hlt : N < 2 ^ 64) (rounds : ℕ) (h : Standing base values queue first) :
    ∃ moved left, queue.moveOut rounds = some (moved, left) ∧
      moved = (values.drop first).take rounds ∧ Standing base values left (first + moved.length) := by
  induction rounds generalizing queue first with
  | zero => exact ⟨[], queue, rfl, rfl, h⟩
  | succ rounds ih =>
    unfold SpscQueue.moveOut
    by_cases hempty : queue.head = queue.tail
    · have hend := (h.empty_iff hlt).mp hempty
      rw [if_pos hempty]
      refine ⟨[], queue, rfl, ?_, h⟩
      rw [hend, List.drop_length, List.take_nil]
    · have hless : first < values.length :=
        lt_of_le_of_ne h.first_le fun heq ↦ hempty ((h.empty_iff hlt).mpr heq)
      have hlive := h.slots.live first le_rfl hless
      rw [List.getElem?_eq_getElem hless] at hlive
      obtain ⟨moved, left, hrest, hmoved, hleft⟩ := ih (h.advance hless)
      rw [if_neg hempty, h.head, Coherent.cursor_masked hN hlt, hlive]
      simp only
      rw [hrest]
      refine ⟨values[first] :: moved, left, rfl, ?_, ?_⟩
      · rw [List.drop_eq_getElem_cons hless, List.take_succ_cons, hmoved]
      · rw [List.length_cons, Nat.add_comm moved.length 1, ← Nat.add_assoc]
        exact hleft

/-- `Drop` visits what is left, without the slot that the head has passed last. -/
theorem dropValues_unwound (hN : N.isPowerOfTwo) (hlt : N < 2 ^ 64) (h : Standing base values queue first)
    (opened : Bool) :
    (queue.unwound opened).dropValues = some ((values.drop first).drop opened.toNat) := by
  have hle := h.first_le
  have hroom := h.room
  unfold dropValues unwound
  by_cases hpassed : opened ∧ queue.head ≠ queue.tail
  · have hless : first < values.length :=
      lt_of_le_of_ne hle fun heq ↦ hpassed.2 ((h.empty_iff hlt).mpr heq)
    rw [if_pos hpassed, hpassed.1, List.drop_drop]
    show drain queue.slots (wrappingSucc queue.head) queue.tail = _
    rw [h.head, h.tail, wrappingSucc_cursor]
    exact drain_of_live hN hlt (values.length - (first + 1)) (by omega) (by omega)
      fun i hi hlast ↦ h.slots.live i (by omega) hlast
  · have hdrain := drain_of_live hN hlt (values.length - first) (by omega) hroom h.slots.live
    rw [if_neg hpassed, h.head, h.tail, hdrain]
    cases opened with
    | false => rfl
    | true =>
      have hend := (h.empty_iff hlt).mp (not_not.mp fun hne ↦ hpassed ⟨rfl, hne⟩)
      rw [hend, List.drop_length, List.drop_nil]

end Standing

end SpscQueue

/-- An idle ring stands for the values between its cursors. -/
theorem Coherent.standing {base : U64} {history : History T} {system : System T N} {known seen : ℕ}
    (h : Coherent base history system known seen) (hquiet : system.quiet = true) :
    system.queue.Standing base history.pushed history.popped.length := by
  unfold System.quiet at hquiet
  split at hquiet
  · next hproducer hconsumer =>
    have hslots := h.slots
    have hroom := h.producer.room
    have hknown := h.producer.known_le
    have hfits := h.producer.phase
    rw [hproducer] at hslots hroom hfits
    rw [hconsumer, hfits.1, Option.toList_none, List.append_nil] at hslots
    exact ⟨h.consumer.shared, h.producer.shared, h.popped_le, hroom.trans (by omega), hslots⟩
  · simp at hquiet

/-- However a ring is taken down, each value that was pushed is popped, moved out by `into_inner` or dropped,
once and in order: after any number of rounds of `into_inner`, also if it unwinds when the head has passed a
slot, `Drop` finds a value in every slot that it visits, and it visits all the others. -/
theorem takedown_accounts (hN : N.isPowerOfTwo) (hlt : N < 2 ^ 64) {base : U64} {events : List (Event T)}
    {system : System T N} (h : System.Reaches (SpscQueue.startingAt T N base).split events system)
    (hquiet : system.quiet = true) (rounds : ℕ) (opened : Bool) :
    ∃ moved left passed dropped, system.queue.moveOut rounds = some (moved, left) ∧
      (left.unwound opened).dropValues = some dropped ∧
      (History.of events).pushed = (History.of events).popped ++ moved ++ passed ++ dropped ∧
      passed.length ≤ opened.toNat ∧
      ((History.of events).pushed.length ≤ (History.of events).popped.length + rounds →
        system.queue.intoInner = some moved ∧ passed = [] ∧ dropped = []) := by
  obtain ⟨known, seen, hcoherent⟩ := Reaches.coherent hN hlt h
  obtain ⟨moved, left, hmoveOut, hmoved, hleft⟩ := (hcoherent.standing hquiet).moveOut hN hlt rounds
  have hdropped := hleft.dropValues_unwound hN hlt opened
  have hinner := hcoherent.intoInner hN hlt hquiet
  obtain ⟨rest, hrest⟩ := hcoherent.order
  have hcontents : (History.of events).pushed.drop (History.of events).popped.length = rest := by
    rw [← hrest, List.drop_left]
  rw [hcontents] at hmoved hinner
  rw [← List.drop_drop, hcontents] at hdropped
  have hmovedDrop : rest = moved ++ rest.drop moved.length := by
    rw [hmoved, List.length_take, List.drop_eq_drop_iff.mpr ?_, List.take_append_drop]
    omega
  refine ⟨moved, left, (rest.drop moved.length).take opened.toNat, _, hmoveOut, hdropped, ?_, ?_, ?_⟩
  · rw [List.append_assoc, List.take_append_drop, List.append_assoc, ← hmovedDrop, hrest]
  · rw [List.length_take]
    exact Nat.min_le_left _ _
  · intro hall
    rw [← hrest, List.length_append] at hall
    have hwhole : moved = rest := hmoved.trans (List.take_of_length_le (by omega))
    rw [hwhole, List.drop_length, List.take_nil, List.drop_nil]
    exact ⟨hinner, rfl, rfl⟩

/-- A ring of two slots with two values at the end of the cursor range, given up in its first round. -/
theorem takedown_accounts_at_overflow :
    ∃ (system : System ℕ 2) (moved passed dropped : List ℕ) (left : SpscQueue ℕ 2),
      system.queue.moveOut 0 = some (moved, left) ∧ (left.unwound true).dropValues = some dropped ∧
      [5, 6] = moved ++ passed ++ dropped ∧ passed.length ≤ 1 := by
  have hreaches := ((((((System.Reaches.start :
    (SpscQueue.startingAt ℕ 2 (Unsigned.maxValue 64)).split.Reaches [] _).step
      (.tryPush 5) rfl).step .producer rfl).step .producer rfl).step
      (.tryPush 6) rfl).step .producer rfl).step .producer rfl
  obtain ⟨moved, left, passed, dropped, hmoved, hdropped, haccounts, hpassed, _⟩ :=
    takedown_accounts ⟨1, rfl⟩ (by decide) hreaches rfl 0 true
  exact ⟨_, moved, passed, dropped, left, hmoved, hdropped, haccounts, hpassed⟩

end DeterministicExchange.Spsc
