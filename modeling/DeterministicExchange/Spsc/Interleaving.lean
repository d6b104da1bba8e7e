import DeterministicExchange.Container.BoundedQueue
import DeterministicExchange.Spsc.Queue

/-!
# The ring under any interleaving

Every event of the ring is one that an atomic bounded queue admits: a push is
refused only when all slots are taken, a pop finds nothing only when everything
was popped, and otherwise values leave in the order in which they came. The
invariant counts the values pushed and popped; a cached peer cursor stands for
an earlier count, so that comparisons with it are conservative.
-/

namespace DeterministicExchange.Spsc

open Machine

variable {T : Type} {N : ℕ}

/-! ## The abstract queue -/

/-- The events that a bounded queue of capacity `N` admits after `history`. -/
def History.Admits (N : ℕ) (history : History T) : Event T → Prop
  | .called _ => history.pending = none
  | .returned (.ok ()) =>
    (∃ value, history.pending = some value) ∧ history.pushed.length < history.popped.length + N
  | .returned (.error value) =>
    history.pending = some value ∧ history.written = false ∧ history.promised = false ∧
      history.pushed.length = history.popped.length + N
  | .wrote found => found = none
  | .read found => ∃ value, found = some value
  | .took none => history.pushed.length = history.popped.length
  | .took (some value) => history.pushed[history.popped.length]? = some value
  | .capacity free => history.pending = none ∧
    (free = true ↔ history.pushed.length < history.popped.length + N)
  | .silent => True
  | .panicked => False

/-! ## The invariant -/

/-- The private cursor of a producer is ahead of the published one while a store is due. -/
def ProducerPhase.ahead : ProducerPhase T → ℕ
  | .storeTail => 1
  | _ => 0

def ConsumerPhase.ahead : ConsumerPhase T → ℕ
  | .storeHead _ => 1
  | _ => 0

/-- What a phase of the producer says about the history. -/
def ProducerPhase.Fits (N : ℕ) (history : History T) (known : ℕ) : ProducerPhase T → Prop
  | .idle => history.pending = none ∧
    (history.promised = true → history.pushed.length < known + N)
  | .loadHead value => history.pending = some value ∧ history.written = false ∧ history.promised = false
  | .writeSlot value => history.pending = some value ∧ history.pushed.length < known + N
  | .storeTail => ∃ value, history.pending = some value
  | .loadCapacity => history.pending = none ∧ history.promised = false

def ConsumerPhase.Fits (pushed popped : List T) (seen : ℕ) : ConsumerPhase T → Prop
  | .idle => True
  | .loadTail => True
  | .readSlot => popped.length < seen
  | .storeHead value => pushed[popped.length]? = some value

/-- The producer knows of `known` pops. -/
structure ProducerSide (N : ℕ) (base : U64) (history : History T) (tail : U64) (producer : Producer T)
    (known : ℕ) : Prop where
  shared : tail = cursor base history.pushed.length
  own : producer.tail = cursor base (history.pushed.length + producer.phase.ahead)
  cached : producer.cachedHead = cursor base known
  known_le : known ≤ history.popped.length
  room : history.pushed.length + producer.phase.ahead ≤ known + N
  phase : producer.phase.Fits N history known

/-- The consumer has seen `seen` pushes. -/
structure ConsumerSide (base : U64) (pushed popped : List T) (head : U64) (consumer : Consumer T)
    (seen : ℕ) : Prop where
  shared : head = cursor base popped.length
  own : consumer.head = cursor base (popped.length + consumer.phase.ahead)
  cached : consumer.cachedTail = cursor base seen
  seen_le : seen ≤ pushed.length
  available : popped.length + consumer.phase.ahead ≤ seen
  phase : consumer.phase.Fits pushed popped seen

/-- The slots hold the values numbered from `first` to `last`, each at its place in the ring. -/
structure Holds (base : U64) (slots : Vector (Option T) N) (values : List T) (first last : ℕ) : Prop where
  live : ∀ i, first ≤ i → i < last → slots[(base.val + i) % N]? = some values[i]?
  vacant : ∀ i, last ≤ i → i < first + N → slots[(base.val + i) % N]? = some none

structure Coherent (base : U64) (history : History T) (system : System T N) (known seen : ℕ) : Prop where
  producer : ProducerSide N base history system.queue.tail system.producer known
  consumer : ConsumerSide base history.pushed history.popped system.queue.head system.consumer seen
  order : history.popped <+: history.pushed
  slots : Holds base system.queue.slots (history.pushed ++ history.pending.toList)
    (history.popped.length + system.consumer.phase.ahead)
    (history.pushed.length + system.producer.phase.ahead)

/-! ## Slots -/

namespace Holds

variable {base : U64} {slots : Vector (Option T) N} {values values' : List T} {first last : ℕ}

theorem congr (h : Holds base slots values first last)
    (heq : ∀ i, i < last → values'[i]? = values[i]?) : Holds base slots values' first last where
  live := by
    intro i hfirst hlast
    rw [h.live i hfirst hlast, heq i hlast]
  vacant := h.vacant

/-- Two numbers less than a lap apart have different places. -/
theorem place_ne {i j : ℕ} (hne : i ≠ j) (hij : i < j + N) (hji : j < i + N) :
    (base.val + i) % N ≠ (base.val + j) % N := by
  intro heq
  have hmod : i % N = j % N := Nat.ModEq.add_left_cancel' base.val heq
  rcases Nat.lt_or_gt_of_ne hne with hlt | hgt
  · have hdvd := (Nat.modEq_iff_dvd' hlt.le).mp hmod
    have := Nat.le_of_dvd (by omega) hdvd
    omega
  · have hdvd := (Nat.modEq_iff_dvd' hgt.le).mp hmod.symm
    have := Nat.le_of_dvd (by omega) hdvd
    omega

theorem push (h : Holds base slots values first last) (hfirst : first ≤ last) (hroom : last < first + N)
    {value : T} (hvalue : values[last]? = some value) :
    Holds base (slots.setIfInBounds ((base.val + last) % N) (some value)) values first (last + 1) := by
  have hplace : (base.val + last) % N < N := Nat.mod_lt _ (by omega)
  refine ⟨?_, ?_⟩
  · intro i hi hlt
    by_cases heq : i = last
    · rw [heq, hvalue, Vector.getElem?_setIfInBounds_self_of_lt hplace]
    · rw [Vector.getElem?_setIfInBounds_ne (place_ne (Ne.symm heq) (by omega) (by omega))]
      exact h.live i hi (by omega)
  · intro i hi hlt
    rw [Vector.getElem?_setIfInBounds_ne (place_ne (by omega) (by omega) (by omega))]
    exact h.vacant i (by omega) hlt

theorem pop (h : Holds base slots values first last) (hlt : first < last) (hroom : last ≤ first + N) :
    Holds base (slots.setIfInBounds ((base.val + first) % N) none) values (first + 1) last := by
  have hplace : (base.val + first) % N < N := Nat.mod_lt _ (by omega)
  refine ⟨?_, ?_⟩
  · intro i hi hlt'
    rw [Vector.getElem?_setIfInBounds_ne (place_ne (by omega) (by omega) (by omega))]
    exact h.live i (by omega) hlt'
  · intro i hi hlt'
    by_cases heq : i = first + N
    · have hsame : (base.val + i) % N = (base.val + first) % N := by
        rw [heq, ← Nat.add_assoc, Nat.add_mod_right]
      rw [hsame, Vector.getElem?_setIfInBounds_self_of_lt hplace]
    · rw [Vector.getElem?_setIfInBounds_ne (place_ne (by omega) (by omega) (by omega))]
      exact h.vacant i hi (by omega)

end Holds

/-! ## One step -/

namespace Coherent

variable {base : U64} {history : History T} {system system' : System T N} {known seen : ℕ}
  {event : Event T}

/-- The event is admitted, and the system stays coherent. -/
def Next (base : U64) (history : History T) (event : Event T) (system' : System T N) : Prop :=
  history.Admits N event ∧ ∃ known seen, Coherent base (history.record event) system' known seen

theorem popped_le (h : Coherent base history system known seen) :
    history.popped.length ≤ history.pushed.length := h.order.length_le

/-- Values that are already pushed do not depend on an open call. -/
theorem getElem?_values (pushed : List T) (pending : List T) {i : ℕ} (hi : i < pushed.length) :
    (pushed ++ pending)[i]? = pushed[i]? := List.getElem?_append_left hi

section Capacity

variable (hlt : N < 2 ^ 64)

include hlt

theorem full_iff (producer : Producer T) {pushed known : ℕ} (hown : producer.tail = cursor base pushed)
    (hcached : producer.cachedHead = cursor base known) (hle : known ≤ pushed)
    (hroom : pushed ≤ known + N) : System.full N producer = true ↔ pushed = known + N := by
  unfold System.full
  rw [decide_eq_true_iff, hown, hcached, wrappingSub_cursor base hle (by omega)]
  omega

theorem tryPush (h : Coherent base history system known seen) {value : T}
    (hstep : system.tryPush value = some (event, system')) : Next base history event system' := by
  unfold System.tryPush at hstep
  split at hstep
  · next hidle =>
    obtain ⟨rfl, rfl⟩ := Prod.ext_iff.mp (Option.some.inj hstep)
    obtain ⟨hshared, hown, hcached, hknown, hroom, hphase⟩ := h.producer
    have hslots := h.slots
    rw [hidle] at hown hroom hphase hslots
    have hfull := full_iff hlt system.producer hown hcached (hknown.trans h.popped_le) hroom
    have hvalues : Holds base system.queue.slots (history.pushed ++ (some value).toList)
        (history.popped.length + system.consumer.phase.ahead) history.pushed.length :=
      hslots.congr fun i hi ↦ by rw [getElem?_values _ _ hi, getElem?_values _ _ hi]
    refine ⟨hphase.1, known, seen, ?_⟩
    by_cases hcase : System.full N system.producer = true
    · have hnot : history.promised = false := by
        by_contra hpromised
        have hless := hphase.2 (by simpa using hpromised)
        exact hless.ne (hfull.mp hcase)
      simp only [hcase, if_true]
      exact ⟨⟨hshared, hown, hcached, hknown, hroom, rfl, rfl, hnot⟩, h.consumer, h.order, hvalues⟩
    · have hless : history.pushed.length < known + N :=
        lt_of_le_of_ne hroom fun heq ↦ hcase (hfull.mpr heq)
      simp only [hcase]
      exact ⟨⟨hshared, hown, hcached, hknown, hroom, rfl, hless⟩, h.consumer, h.order, hvalues⟩
  · simp at hstep

theorem hasCapacity (h : Coherent base history system known seen)
    (hstep : system.hasCapacity = some (event, system')) : Next base history event system' := by
  unfold System.hasCapacity at hstep
  split at hstep
  · next hidle =>
    obtain ⟨hshared, hown, hcached, hknown, hroom, hphase⟩ := h.producer
    have hslots := h.slots
    rw [hidle] at hown hroom hphase hslots
    have hfull := full_iff hlt system.producer hown hcached (hknown.trans h.popped_le) hroom
    split at hstep
    · next hcase =>
      obtain ⟨rfl, rfl⟩ := Prod.ext_iff.mp (Option.some.inj hstep)
      have hnot : history.promised = false := by
        by_contra hpromised
        have hless := hphase.2 (by simpa using hpromised)
        exact hless.ne (hfull.mp hcase)
      exact ⟨trivial, known, seen, ⟨hshared, hown, hcached, hknown, hroom, hphase.1, hnot⟩, h.consumer,
        h.order, hslots⟩
    · next hcase =>
      obtain ⟨rfl, rfl⟩ := Prod.ext_iff.mp (Option.some.inj hstep)
      have hless : history.pushed.length < known + N :=
        lt_of_le_of_ne hroom fun heq ↦ hcase (hfull.mpr heq)
      have hroomy : history.pushed.length < history.popped.length + N := hless.trans_le (by omega)
      refine ⟨⟨hphase.1, iff_of_true rfl hroomy⟩, known, seen,
        ⟨hshared, h.producer.own, hcached, hknown, h.producer.room, ?_⟩, h.consumer, h.order, h.slots⟩
      rw [hidle]
      exact ⟨hphase.1, fun _ ↦ hless⟩
  · simp at hstep

/-- A fresh load of the head tells the producer of every pop. -/
theorem loadHead (h : Coherent base history system known seen) {value : T}
    (hphase : system.producer.phase = .loadHead value)
    (hstep : system.stepProducer = some (event, system')) : Next base history event system' := by
  obtain ⟨hshared, hown, hcached, hknown, hroom, hfits⟩ := h.producer
  have hslots := h.slots
  rw [hphase] at hown hroom hfits hslots
  obtain ⟨hpending, hwritten, hpromised⟩ := hfits
  have hroom' : history.pushed.length ≤ history.popped.length + N := hroom.trans (by omega)
  have hfull := full_iff hlt { system.producer with cachedHead := system.queue.head } hown
    h.consumer.shared h.popped_le hroom'
  unfold System.stepProducer at hstep
  simp only [hphase] at hstep
  split at hstep
  · next hcase =>
    obtain ⟨rfl, rfl⟩ := Prod.ext_iff.mp (Option.some.inj hstep)
    have hvalues : Holds base system.queue.slots (history.pushed ++ none.toList)
        (history.popped.length + system.consumer.phase.ahead) history.pushed.length :=
      hslots.congr fun i hi ↦ by rw [getElem?_values _ _ hi, getElem?_values _ _ hi]
    exact ⟨⟨hpending, hwritten, hpromised, hfull.mp hcase⟩, history.popped.length, seen,
      ⟨hshared, hown, h.consumer.shared, le_rfl, hroom', rfl, fun heq ↦ nomatch heq⟩, h.consumer, h.order,
      hvalues⟩
  · next hcase =>
    obtain ⟨rfl, rfl⟩ := Prod.ext_iff.mp (Option.some.inj hstep)
    have hless : history.pushed.length < history.popped.length + N :=
      lt_of_le_of_ne hroom' fun heq ↦ hcase (hfull.mpr heq)
    exact ⟨trivial, history.popped.length, seen,
      ⟨hshared, hown, h.consumer.shared, le_rfl, hroom', hpending, hless⟩, h.consumer, h.order, hslots⟩

theorem loadCapacity (h : Coherent base history system known seen)
    (hphase : system.producer.phase = .loadCapacity)
    (hstep : system.stepProducer = some (event, system')) : Next base history event system' := by
  obtain ⟨hshared, hown, hcached, hknown, hroom, hfits⟩ := h.producer
  have hslots := h.slots
  rw [hphase] at hown hroom hfits hslots
  obtain ⟨hpending, hpromised⟩ := hfits
  have hroom' : history.pushed.length ≤ history.popped.length + N := hroom.trans (by omega)
  have hfull := full_iff hlt
    (⟨system.producer.tail, system.queue.head, .idle⟩ : Producer T) hown h.consumer.shared h.popped_le hroom'
  unfold System.stepProducer at hstep
  simp only [hphase] at hstep
  obtain ⟨rfl, rfl⟩ := Prod.ext_iff.mp (Option.some.inj hstep)
  refine ⟨⟨hpending, ?_⟩, history.popped.length, seen, ⟨hshared, hown, h.consumer.shared, le_rfl, hroom',
    hpending, ?_⟩, h.consumer, h.order, hslots⟩
  · rw [Bool.not_eq_true', Bool.eq_false_iff, ne_eq, hfull]
    exact ⟨fun hne ↦ lt_of_le_of_ne hroom' hne, fun hless ↦ hless.ne⟩
  intro hnow
  refine lt_of_le_of_ne hroom' fun heq ↦ ?_
  simp only [History.record, hfull.mpr heq, hpromised] at hnow
  exact Bool.false_ne_true hnow

end Capacity

/-- Publishing the tail admits the pushed value. -/
theorem storeTail (h : Coherent base history system known seen)
    (hphase : system.producer.phase = .storeTail)
    (hstep : system.stepProducer = some (event, system')) : Next base history event system' := by
  obtain ⟨hshared, hown, hcached, hknown, hroom, hfits⟩ := h.producer
  have hslots := h.slots
  rw [hphase] at hown hroom hfits hslots
  simp only [ProducerPhase.ahead] at hown hroom hslots
  obtain ⟨value, hpending⟩ := hfits
  have hpushed : (history.pushed ++ history.pending.toList).length = history.pushed.length + 1 := by
    rw [hpending]
    simp
  unfold System.stepProducer at hstep
  simp only [hphase] at hstep
  obtain ⟨rfl, rfl⟩ := Prod.ext_iff.mp (Option.some.inj hstep)
  obtain ⟨hconsumer, hconsumerOwn, hseen, hseen_le, havailable, hconsumerFits⟩ := h.consumer
  refine ⟨⟨⟨value, hpending⟩, by omega⟩, known, seen, ⟨?_, ?_, hcached, hknown, ?_, rfl,
    fun heq ↦ nomatch heq⟩, ⟨hconsumer, hconsumerOwn, hseen, ?_, havailable, ?_⟩,
    h.order.trans (List.prefix_append _ _), ?_⟩
  · show system.producer.tail = cursor base (history.pushed ++ history.pending.toList).length
    rw [hpushed, hown]
  · show system.producer.tail = cursor base (history.pushed ++ history.pending.toList).length
    rw [hpushed, hown]
  · show (history.pushed ++ history.pending.toList).length ≤ known + N
    rw [hpushed]
    exact hroom
  · show seen ≤ (history.pushed ++ history.pending.toList).length
    rw [hpushed]
    omega
  · show system.consumer.phase.Fits (history.pushed ++ history.pending.toList) history.popped seen
    cases hconsumerPhase : system.consumer.phase with
    | idle => trivial
    | loadTail => trivial
    | readSlot =>
      rw [hconsumerPhase] at hconsumerFits
      exact hconsumerFits
    | storeHead taken =>
      rw [hconsumerPhase] at hconsumerFits
      exact (List.getElem?_append_left (List.getElem?_eq_some_iff.mp hconsumerFits).1).trans hconsumerFits
  · show Holds base system.queue.slots (history.pushed ++ history.pending.toList ++ none.toList)
      (history.popped.length + system.consumer.phase.ahead)
      (history.pushed ++ history.pending.toList).length
    rw [hpushed]
    simpa using hslots

section Masked

variable (hN : N.isPowerOfTwo) (hlt : N < 2 ^ 64)

include hN hlt

theorem cursor_masked (base : U64) (n : ℕ) : (cursor base n).val &&& (N - 1) = (base.val + n) % N := by
  obtain ⟨k, rfl⟩ := hN
  exact cursor_and base n ((Nat.pow_lt_pow_iff_right (by decide)).mp hlt).le

/-- The slot behind the tail is vacant. -/
theorem writeSlot (h : Coherent base history system known seen) {value : T}
    (hphase : system.producer.phase = .writeSlot value)
    (hstep : system.stepProducer = some (event, system')) : Next base history event system' := by
  obtain ⟨hshared, hown, hcached, hknown, hroom, hfits⟩ := h.producer
  have hslots := h.slots
  rw [hphase] at hown hfits hslots
  simp only [ProducerPhase.ahead, Nat.add_zero] at hown hslots
  obtain ⟨hpending, hless⟩ := hfits
  have hindex : system.producer.tail.val &&& (N - 1) = (base.val + history.pushed.length) % N := by
    rw [hown]
    exact cursor_masked hN hlt base _
  have hvacant := hslots.vacant history.pushed.length le_rfl (by omega)
  unfold System.stepProducer at hstep
  simp only [hphase, hindex, hvacant] at hstep
  obtain ⟨rfl, rfl⟩ := Prod.ext_iff.mp (Option.some.inj hstep)
  have havailable := h.consumer.available.trans h.consumer.seen_le
  refine ⟨rfl, known, seen, ⟨hshared, ?_, hcached, hknown, hless, value, hpending⟩, h.consumer, h.order, ?_⟩
  · show wrappingSucc system.producer.tail = cursor base (history.pushed.length + 1)
    rw [hown, wrappingSucc_cursor]
  · refine hslots.push havailable (by omega) ?_
    rw [hpending, List.getElem?_append_right le_rfl]
    simp

/-- The slot at the head holds the next value. -/
theorem readSlot (h : Coherent base history system known seen)
    (hphase : system.consumer.phase = .readSlot)
    (hstep : system.stepConsumer = some (event, system')) : Next base history event system' := by
  obtain ⟨hshared, hown, hcached, hseen_le, havailable, hfits⟩ := h.consumer
  have hslots := h.slots
  rw [hphase] at hown hfits hslots
  simp only [ConsumerPhase.ahead, Nat.add_zero] at hown hslots
  have hless : history.popped.length < history.pushed.length := Nat.lt_of_lt_of_le hfits hseen_le
  have hroom := h.producer.room
  have hknown := h.producer.known_le
  have hindex : system.consumer.head.val &&& (N - 1) = (base.val + history.popped.length) % N := by
    rw [hown]
    exact cursor_masked hN hlt base _
  have hlive := hslots.live history.popped.length le_rfl (by omega)
  rw [getElem?_values _ _ hless, List.getElem?_eq_getElem hless] at hlive
  unfold System.stepConsumer at hstep
  simp only [hphase, hindex, hlive] at hstep
  obtain ⟨rfl, rfl⟩ := Prod.ext_iff.mp (Option.some.inj hstep)
  refine ⟨⟨_, rfl⟩, known, seen, h.producer, ⟨hshared, ?_, hcached, hseen_le, hfits, ?_⟩, h.order, ?_⟩
  · show wrappingSucc system.consumer.head = cursor base (history.popped.length + 1)
    rw [hown, wrappingSucc_cursor]
  · exact List.getElem?_eq_getElem hless
  · exact hslots.pop (by omega) (by omega)

end Masked

section Window

variable (hlt : N < 2 ^ 64)

include hlt

theorem empty_iff {head cachedTail : U64} {popped seen : ℕ} (hown : head = cursor base popped)
    (hcached : cachedTail = cursor base seen) (hle : popped ≤ seen) (hwindow : seen ≤ popped + N) :
    head = cachedTail ↔ popped = seen := by
  rw [hown, hcached]
  exact cursor_eq_iff base hle (by omega)

theorem tryPop (h : Coherent base history system known seen)
    (hstep : system.tryPop = some (event, system')) : Next base history event system' := by
  unfold System.tryPop at hstep
  split at hstep
  · next hidle =>
    obtain ⟨rfl, rfl⟩ := Prod.ext_iff.mp (Option.some.inj hstep)
    obtain ⟨hshared, hown, hcached, hseen_le, havailable, hfits⟩ := h.consumer
    have hslots := h.slots
    rw [hidle] at hown havailable hslots
    have hroom := h.producer.room
    have hknown := h.producer.known_le
    have hempty := empty_iff hlt hown hcached havailable (by
      show seen ≤ history.popped.length + N
      omega)
    refine ⟨trivial, known, seen, ?_⟩
    by_cases hcase : system.consumer.head = system.consumer.cachedTail
    · simp only [hcase, if_true]
      rw [hcase] at hown
      exact ⟨h.producer, ⟨hshared, hown, hcached, hseen_le, havailable, trivial⟩, h.order, hslots⟩
    · have hless : history.popped.length < seen :=
        lt_of_le_of_ne havailable fun heq ↦ hcase (hempty.mpr heq)
      simp only [hcase, if_false]
      exact ⟨h.producer, ⟨hshared, hown, hcached, hseen_le, havailable, hless⟩, h.order, hslots⟩
  · simp at hstep

/-- A fresh load of the tail shows the consumer every push. -/
theorem loadTail (h : Coherent base history system known seen)
    (hphase : system.consumer.phase = .loadTail)
    (hstep : system.stepConsumer = some (event, system')) : Next base history event system' := by
  obtain ⟨hshared, hown, hcached, hseen_le, havailable, hfits⟩ := h.consumer
  have hslots := h.slots
  rw [hphase] at hown hslots
  have hroom := h.producer.room
  have hknown := h.producer.known_le
  have hempty := empty_iff hlt hown h.producer.shared h.popped_le (by
    show history.pushed.length ≤ history.popped.length + N
    omega)
  unfold System.stepConsumer at hstep
  simp only [hphase] at hstep
  split at hstep
  · next hcase =>
    obtain ⟨rfl, rfl⟩ := Prod.ext_iff.mp (Option.some.inj hstep)
    exact ⟨(hempty.mp hcase).symm, known, history.pushed.length, h.producer,
      ⟨hshared, hown, h.producer.shared, le_rfl, h.popped_le, trivial⟩, h.order, hslots⟩
  · next hcase =>
    obtain ⟨rfl, rfl⟩ := Prod.ext_iff.mp (Option.some.inj hstep)
    have hless : history.popped.length < history.pushed.length :=
      lt_of_le_of_ne h.popped_le fun heq ↦ hcase (hempty.mpr heq)
    exact ⟨trivial, known, history.pushed.length, h.producer,
      ⟨hshared, hown, h.producer.shared, le_rfl, h.popped_le, hless⟩, h.order, hslots⟩

end Window

/-- Publishing the head counts the value as popped; the producer knows of no later pop. -/
theorem storeHead (h : Coherent base history system known seen) {value : T}
    (hphase : system.consumer.phase = .storeHead value)
    (hstep : system.stepConsumer = some (event, system')) : Next base history event system' := by
  obtain ⟨hshared, hown, hcached, hseen_le, havailable, hfits⟩ := h.consumer
  have hslots := h.slots
  rw [hphase] at hown havailable hfits hslots
  simp only [ConsumerPhase.ahead] at hown havailable hslots
  obtain ⟨hless, hvalue⟩ := List.getElem?_eq_some_iff.mp hfits
  have hpopped : (history.popped ++ [value]).length = history.popped.length + 1 := by simp
  have horder : history.popped ++ [value] <+: history.pushed := by
    rw [List.prefix_iff_eq_take, hpopped, List.take_succ_eq_append_getElem hless, hvalue,
      ← List.prefix_iff_eq_take.mp h.order]
  unfold System.stepConsumer at hstep
  simp only [hphase] at hstep
  obtain ⟨rfl, rfl⟩ := Prod.ext_iff.mp (Option.some.inj hstep)
  obtain ⟨hproducer, hproducerOwn, hproducerCached, hknown, hroom, hproducerFits⟩ := h.producer
  refine ⟨hfits, known, seen, ⟨hproducer, hproducerOwn, hproducerCached, ?_, hroom, ?_⟩,
    ⟨?_, ?_, hcached, hseen_le, ?_, trivial⟩, horder, ?_⟩
  · show known ≤ (history.popped ++ [value]).length
    omega
  · cases hproducerPhase : system.producer.phase with
    | idle | loadHead | writeSlot | storeTail | loadCapacity =>
      rw [hproducerPhase] at hproducerFits
      exact hproducerFits
  · show system.consumer.head = cursor base (history.popped ++ [value]).length
    rw [hpopped, hown]
  · show system.consumer.head = cursor base (history.popped ++ [value]).length
    rw [hpopped, hown]
  · show (history.popped ++ [value]).length ≤ seen
    rw [hpopped]
    exact havailable
  · show Holds base system.queue.slots (history.pushed ++ history.pending.toList)
      (history.popped ++ [value]).length (history.pushed.length + system.producer.phase.ahead)
    rw [hpopped]
    exact hslots

/-- New endpoints know of everything that the old ones did. -/
theorem split (h : Coherent base history system known seen) (hquiet : system.quiet = true) :
    Next base history .silent system.queue.split := by
  unfold System.quiet at hquiet
  split at hquiet
  · next hproducer hconsumer =>
    obtain ⟨hshared, hown, hcached, hknown, hroom, hfits⟩ := h.producer
    have hslots := h.slots
    rw [hproducer] at hroom hfits hslots
    rw [hconsumer] at hslots
    have hroom' : history.pushed.length ≤ history.popped.length + N := hroom.trans (by omega)
    refine ⟨trivial, history.popped.length, history.pushed.length,
      ⟨hshared, hshared, h.consumer.shared, le_rfl, hroom', hfits.1, ?_⟩,
      ⟨h.consumer.shared, h.consumer.shared, hshared, le_rfl, h.popped_le, trivial⟩, h.order, hslots⟩
    intro hpromised
    exact Nat.lt_of_lt_of_le (hfits.2 hpromised) (by omega)
  · simp at hquiet

/-- Every step of either party is one that the bounded queue admits. -/
theorem step (hN : N.isPowerOfTwo) (hlt : N < 2 ^ 64) (h : Coherent base history system known seen)
    {turn : Turn T} (hstep : system.step turn = some (event, system')) :
    Next base history event system' := by
  cases turn with
  | tryPush value => exact h.tryPush hlt hstep
  | hasCapacity => exact h.hasCapacity hlt hstep
  | producer =>
    cases hphase : system.producer.phase with
    | idle =>
      simp only [System.step, System.stepProducer, hphase] at hstep
      nomatch hstep
    | loadHead value => exact h.loadHead hlt hphase hstep
    | writeSlot value => exact h.writeSlot hN hlt hphase hstep
    | storeTail => exact h.storeTail hphase hstep
    | loadCapacity => exact h.loadCapacity hlt hphase hstep
  | tryPop => exact h.tryPop hlt hstep
  | consumer =>
    cases hphase : system.consumer.phase with
    | idle =>
      simp only [System.step, System.stepConsumer, hphase] at hstep
      nomatch hstep
    | loadTail => exact h.loadTail hlt hphase hstep
    | readSlot => exact h.readSlot hN hlt hphase hstep
    | storeHead value => exact h.storeHead hphase hstep
  | split =>
    simp only [System.step] at hstep
    split at hstep
    · next hquiet =>
      obtain ⟨rfl, rfl⟩ := Prod.ext_iff.mp (Option.some.inj hstep)
      exact h.split hquiet
    · simp at hstep

end Coherent

/-! ## Runs -/

theorem Coherent.start (T : Type) (N : ℕ) (base : U64) :
    Coherent base (History.of []) (SpscQueue.startingAt T N base).split 0 0 := by
  have hbase : base = cursor base 0 := (cursor_zero base).symm
  refine ⟨⟨hbase, hbase, hbase, le_rfl, Nat.zero_le _, rfl, fun heq ↦ nomatch heq⟩,
    ⟨hbase, hbase, hbase, le_rfl, le_rfl, trivial⟩, List.prefix_rfl, ⟨?_, ?_⟩⟩
  · intro i _ hlast
    exact absurd hlast (Nat.not_lt_zero i)
  · intro i _ hlast
    have hpos : 0 < N := by
      have : i < N := by simpa [SpscQueue.split, ConsumerPhase.ahead, History.of] using hlast
      omega
    show (Vector.replicate N none)[(base.val + i) % N]? = some none
    rw [Vector.getElem?_replicate, if_pos (Nat.mod_lt _ hpos)]

theorem Reaches.coherent (hN : N.isPowerOfTwo) (hlt : N < 2 ^ 64) {base : U64} {events : List (Event T)}
    {system : System T N} (h : System.Reaches (SpscQueue.startingAt T N base).split events system) :
    ∃ known seen, Coherent base (History.of events) system known seen := by
  induction h with
  | start => exact ⟨0, 0, Coherent.start T N base⟩
  | step _ _ hstep ih =>
    obtain ⟨known, seen, hcoherent⟩ := ih
    rw [History.of_append]
    exact (hcoherent.step hN hlt hstep).2

/-- Draining the live slots yields their values in order. -/
theorem Holds.drain (hN : N.isPowerOfTwo) (hlt : N < 2 ^ 64) {base : U64} {values : List T} (n : ℕ)
    {slots : Vector (Option T) N} {first : ℕ} (hlast : values.length = first + n)
    (hroom : values.length ≤ first + N) (h : Holds base slots values first values.length) :
    SpscQueue.drain slots (cursor base first) (cursor base values.length) = some (values.drop first) := by
  induction n generalizing slots first with
  | zero =>
    rw [SpscQueue.drain, hlast, Nat.add_zero, if_pos rfl, List.drop_eq_nil_of_le (by omega)]
  | succ n ih =>
    have hless : first < values.length := by omega
    have hne : cursor base first ≠ cursor base values.length := by
      rw [ne_eq, cursor_eq_iff base hless.le (by omega)]
      exact hless.ne
    have hlive := h.live first le_rfl hless
    rw [List.getElem?_eq_getElem hless] at hlive
    rw [SpscQueue.drain, if_neg hne, Coherent.cursor_masked hN hlt, hlive]
    simp only [wrappingSucc_cursor]
    rw [ih (by omega) (by omega) (h.pop hless hroom), List.drop_eq_getElem_cons hless]
    rfl

theorem Coherent.intoInner (hN : N.isPowerOfTwo) (hlt : N < 2 ^ 64) {base : U64} {history : History T}
    {system : System T N} {known seen : ℕ} (h : Coherent base history system known seen)
    (hquiet : system.quiet = true) :
    system.queue.intoInner = some (history.pushed.drop history.popped.length) := by
  unfold System.quiet at hquiet
  split at hquiet
  · next hproducer hconsumer =>
    have hslots := h.slots
    have hroom := h.producer.room
    have hknown := h.producer.known_le
    have hfits := h.producer.phase
    rw [hproducer] at hslots hroom hfits
    rw [hconsumer, hfits.1, Option.toList_none, List.append_nil] at hslots
    have hroom' : history.pushed.length ≤ history.popped.length + N := hroom.trans (by omega)
    have hle := h.popped_le
    unfold SpscQueue.intoInner
    rw [h.consumer.shared, h.producer.shared]
    exact hslots.drain hN hlt (history.pushed.length - history.popped.length) (by omega) hroom'
  · simp at hquiet

/-- Everything but the phase and the cached head of the producer is the same. -/
structure System.Unchanged (system system' : System T N) : Prop where
  queue : system'.queue = system.queue
  tail : system'.producer.tail = system.producer.tail
  consumer : system'.consumer = system.consumer

theorem System.unchanged_of_called {system system' : System T N} {turn : Turn T} {value : T}
    (hstep : system.step turn = some (.called value, system')) : system.Unchanged system' := by
  cases turn <;> simp only [System.step, System.tryPush, System.hasCapacity, System.stepProducer,
    System.tryPop, System.stepConsumer] at hstep <;> grind [System.Unchanged]

theorem System.unchanged_of_refused {system system' : System T N} {turn : Turn T} {value : T}
    (hstep : system.step turn = some (.returned (.error value), system')) : system.Unchanged system' := by
  cases turn <;> simp only [System.step, System.tryPush, System.hasCapacity, System.stepProducer,
    System.tryPop, System.stepConsumer] at hstep <;> grind [System.Unchanged]

/-! ## Refinement of the bounded queue -/

/-- The values pushed and not yet popped. -/
def History.contents (history : History T) : List T := history.pushed.drop history.popped.length

/-- What an event does to the contents, by the operations of the bounded queue. -/
def History.Performs (N : ℕ) (history : History T) : Event T → Prop
  | .returned (.ok ()) => ∃ value, history.pending = some value ∧
    BoundedQueue.tryPush N history.contents value = (.ok (), (history.record (.returned (.ok ()))).contents)
  | .returned (.error value) => history.pending = some value ∧
    BoundedQueue.tryPush N history.contents value = (.error value, history.contents)
  | .took result => BoundedQueue.tryPop history.contents = (result, (history.record (.took result)).contents)
  | .capacity free => free = BoundedQueue.hasCapacity N history.contents
  | _ => True

/-- Every return of the ring is a return of the bounded queue. -/
theorem Coherent.performs {base : U64} {history : History T} {system : System T N} {known seen : ℕ}
    {event : Event T} (h : Coherent base history system known seen) (hadmits : history.Admits N event) :
    history.Performs N event := by
  have hle := h.popped_le
  have hlen : history.contents.length = history.pushed.length - history.popped.length :=
    List.length_drop ..
  cases event with
  | returned result =>
    cases result with
    | ok value =>
      obtain ⟨⟨given, hgiven⟩, hroom⟩ := hadmits
      refine ⟨given, hgiven, ?_⟩
      rw [BoundedQueue.tryPush_of_lt given (by omega)]
      simp only [History.contents, History.record, hgiven, Option.toList_some]
      rw [List.drop_append_of_le_length hle]
    | error value =>
      obtain ⟨hgiven, _, _, hfull⟩ := hadmits
      exact ⟨hgiven, BoundedQueue.tryPush_of_le value (by omega)⟩
  | took result =>
    cases result with
    | none =>
      have hempty : history.contents = [] := List.drop_eq_nil_of_le (Nat.le_of_eq hadmits)
      show BoundedQueue.tryPop history.contents = (none, history.contents)
      rw [hempty]
      rfl
    | some value =>
      show _ = (some value, history.pushed.drop (history.popped ++ [value]).length)
      rw [List.length_append, List.length_singleton]
      exact BoundedQueue.tryPop_drop hadmits
  | capacity free =>
    obtain ⟨_, hfree⟩ := hadmits
    show free = decide (history.contents.length < N)
    rw [Bool.eq_iff_iff, hfree, decide_eq_true_iff]
    omega
  | called | wrote | read | silent | panicked => trivial

/-- Under any interleaving the ring answers as the bounded queue does. -/
theorem reaches_performs (hN : N.isPowerOfTwo) (hlt : N < 2 ^ 64) {base : U64} {events : List (Event T)}
    {system system' : System T N} {turn : Turn T} {event : Event T}
    (h : System.Reaches (SpscQueue.startingAt T N base).split events system)
    (hstep : system.step turn = some (event, system')) : (History.of events).Performs N event := by
  obtain ⟨known, seen, hcoherent⟩ := Reaches.coherent hN hlt h
  exact hcoherent.performs (hcoherent.step hN hlt hstep).1

/-- The push of a second value into one slot. -/
theorem refusal_performs_at_overflow :
    (History.of [.called 5, .wrote none, .returned (.ok ()), .called 6]).Performs 1
      (.returned (.error 6)) := by
  have hreaches := ((((System.Reaches.start :
    (SpscQueue.startingAt ℕ 1 (Unsigned.maxValue 64)).split.Reaches [] _).step
      (.tryPush 5) rfl).step .producer rfl).step .producer rfl).step (.tryPush 6) rfl
  exact reaches_performs ⟨0, rfl⟩ (by decide) hreaches (show System.step _ .producer = some _ from rfl)

/-! ## Safety -/

/-- What holds after the events of a run, and of every event that can come next. -/
structure System.Safe (events : List (Event T)) (system : System T N) : Prop where
  /-- The popped values are a prefix of the pushed ones. -/
  order : (History.of events).popped <+: (History.of events).pushed
  bounded : (wrappingSub system.queue.tail system.queue.head).val ≤ N
  /-- The next event is one of a bounded queue: no live slot is written and no vacant one is read. -/
  admits : ∀ turn event system', system.step turn = some (event, system') →
    (History.of events).Admits N event
  called : ∀ turn value system', system.step turn = some (.called value, system') →
    system.Unchanged system'
  /-- A refused value is the one given, and nothing was written since it was given. -/
  refused : ∀ turn value system', system.step turn = some (.returned (.error value), system') →
    (History.of events).pending = some value ∧ (History.of events).written = false ∧
      system.Unchanged system'
  /-- A promise of `has_capacity` is kept by the next push. -/
  promised : ∀ turn result system', system.step turn = some (.returned result, system') →
    (History.of events).promised = true → result = .ok ()
  drained : system.quiet = true → ∃ rest, system.queue.intoInner = some rest ∧
    (History.of events).pushed = (History.of events).popped ++ rest

/-- The ring is safe under any interleaving, for any power of two and any starting cursor. -/
theorem reaches_safe (hN : N.isPowerOfTwo) (hlt : N < 2 ^ 64) {base : U64} {events : List (Event T)}
    {system : System T N} (h : System.Reaches (SpscQueue.startingAt T N base).split events system) :
    system.Safe events := by
  obtain ⟨known, seen, hcoherent⟩ := Reaches.coherent hN hlt h
  have hroom := hcoherent.producer.room
  have hknown := hcoherent.producer.known_le
  have hpopped := hcoherent.popped_le
  have hadmits : ∀ turn event system', system.step turn = some (event, system') →
      (History.of events).Admits N event := fun turn event system' hstep ↦
    (hcoherent.step hN hlt hstep).1
  refine
    { order := hcoherent.order
      bounded := ?_
      admits := hadmits
      called := fun turn value system' hstep ↦ System.unchanged_of_called hstep
      refused := ?_
      promised := ?_
      drained := ?_ }
  · rw [hcoherent.producer.shared, hcoherent.consumer.shared, wrappingSub_cursor base hpopped (by omega)]
    omega
  · intro turn value system' hstep
    obtain ⟨hpending, hwritten, _⟩ := hadmits _ _ _ hstep
    exact ⟨hpending, hwritten, System.unchanged_of_refused hstep⟩
  · intro turn result system' hstep hpromised
    cases result with
    | ok value => rfl
    | error value =>
      obtain ⟨_, _, hnot, _⟩ := hadmits _ _ _ hstep
      exact absurd hpromised (by simp [hnot])
  · intro hquiet
    refine ⟨_, hcoherent.intoInner hN hlt hquiet, ?_⟩
    obtain ⟨rest, hrest⟩ := hcoherent.order
    rw [← hrest, List.drop_left]

/-- A full ring of one slot at the end of the cursor range refuses the second value. -/
theorem refusal_safe_at_overflow : ∃ system : System ℕ 1,
    system.Safe [.called 5, .wrote none, .returned (.ok ()), .called 6, .returned (.error 6)] :=
  ⟨_, reaches_safe ⟨0, rfl⟩ (by decide) (((((
    System.Reaches.start : (SpscQueue.startingAt ℕ 1 (Unsigned.maxValue 64)).split.Reaches [] _).step
      (.tryPush 5) rfl).step .producer rfl).step .producer rfl).step (.tryPush 6) rfl |>.step .producer rfl)⟩

end DeterministicExchange.Spsc
