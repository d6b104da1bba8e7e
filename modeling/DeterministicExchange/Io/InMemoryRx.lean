import DeterministicExchange.Codec.Bytes
import DeterministicExchange.Container.BoundedQueue
import DeterministicExchange.Spsc.Interleaving

/-!
# Frames in memory

The receive queue of `hft-io` is a ring whose cursors wrap at the word size and
are reduced by the remainder of the ring size. It is a bounded queue as long as
the remainder goes on evenly across the wrap: for sizes that divide the word
size always, and for any size before the wrap.
-/

namespace DeterministicExchange.Io

open Machine Codec

inductive QueueError where
  | full
  deriving DecidableEq

structure InMemoryRx (N : ℕ) where
  frames : Vector (Option Bytes) N
  head : U64
  tail : U64
  recycled : U64

namespace InMemoryRx

variable {N : ℕ}

def new (N : ℕ) : InMemoryRx N := ⟨Vector.replicate N none, 0, 0, 0⟩

def push (rx : InMemoryRx N) (bytes : Bytes) : Except QueueError Unit × InMemoryRx N :=
  if (wrappingSub rx.tail rx.head).val = N then (.error .full, rx)
  else if N = 0 then (.error .full, rx)
  else
    (.ok (), { rx with
      frames := rx.frames.setIfInBounds (rx.tail.val % N) (some bytes)
      tail := wrappingSucc rx.tail })

/-- The bytes of the lease. A slot without a frame ends the call before the head moves. -/
def receive (rx : InMemoryRx N) : Option Bytes × InMemoryRx N :=
  if rx.head = rx.tail ∨ N = 0 then (none, rx)
  else
    match rx.frames[rx.head.val % N]? with
    | some (some bytes) =>
      (some bytes, { rx with
        frames := rx.frames.setIfInBounds (rx.head.val % N) none
        head := wrappingSucc rx.head })
    | _ => (none, rx)

/-- The drop of a lease. -/
def recycle (rx : InMemoryRx N) : InMemoryRx N := { rx with recycled := wrappingSucc rx.recycled }

def recycledCount (rx : InMemoryRx N) : U64 := rx.recycled

end InMemoryRx

/-! ## Runs -/

/-- Calls of the owner. The borrow of a lease ends before the next call; it is dropped or forgotten. -/
inductive Call where
  | push (bytes : Bytes)
  | receive (forgotten : Bool)

inductive Answer where
  | pushed (result : Except QueueError Unit)
  | received (frame : Option Bytes)
  deriving DecidableEq

namespace InMemoryRx

variable {N : ℕ}

def step (rx : InMemoryRx N) : Call → Answer × InMemoryRx N
  | .push bytes =>
    let (result, rx) := rx.push bytes
    (.pushed result, rx)
  | .receive forgotten =>
    let (frame, rx) := rx.receive
    (.received frame, if frame.isSome && !forgotten then rx.recycle else rx)

theorem step_push {rx rx' : InMemoryRx N} {bytes : Bytes} {result : Except QueueError Unit}
    (h : rx.push bytes = (result, rx')) : rx.step (.push bytes) = (.pushed result, rx') := by
  simp only [step, h]

theorem step_receive {rx rx' : InMemoryRx N} {frame : Option Bytes} (forgotten : Bool)
    (h : rx.receive = (frame, rx')) :
    rx.step (.receive forgotten) =
      (.received frame, if frame.isSome && !forgotten then rx'.recycle else rx') := by
  simp only [step, h]

/-- The answers of a run, each with the count of recycled frames after it. -/
def answers : InMemoryRx N → List Call → List (Answer × U64)
  | _, [] => []
  | rx, call :: calls =>
    ((rx.step call).1, (rx.step call).2.recycledCount) :: (rx.step call).2.answers calls

end InMemoryRx

/-- The bounded queue that the ring is meant to be, and the number of frames that were given back. -/
structure Frames where
  waiting : List Bytes
  recycled : ℕ

namespace Frames

def step (N : ℕ) (frames : Frames) : Call → Answer × Frames
  | .push bytes =>
    match BoundedQueue.tryPush N frames.waiting bytes with
    | (.ok _, waiting) => (.pushed (.ok ()), { frames with waiting := waiting })
    | (.error _, waiting) => (.pushed (.error .full), { frames with waiting := waiting })
  | .receive forgotten =>
    let (frame, waiting) := BoundedQueue.tryPop frames.waiting
    (.received frame, ⟨waiting, frames.recycled + if frame.isSome && !forgotten then 1 else 0⟩)

def answers (N : ℕ) : Frames → List Call → List (Answer × U64)
  | _, [] => []
  | frames, call :: calls =>
    ((frames.step N call).1, cursor 0 (frames.step N call).2.recycled) ::
      (frames.step N call).2.answers N calls

end Frames

def Call.isPush : Call → Bool
  | .push _ => true
  | .receive _ => false

/-! ## Representation -/

/-- A ring after `pushed`, of which the first `first` frames were received. -/
structure InMemoryRx.Represents {N : ℕ} (rx : InMemoryRx N) (pushed : List Bytes) (first recycled : ℕ) :
    Prop where
  head : rx.head = cursor 0 first
  tail : rx.tail = cursor 0 pushed.length
  recycled : rx.recycled = cursor 0 recycled
  first_le : first ≤ pushed.length
  room : pushed.length ≤ first + N
  slots : Spsc.Holds 0 rx.frames pushed first pushed.length

/-- The remainder of a cursor is the one of its count. -/
def Even (N count : ℕ) : Prop := (cursor (0 : U64) count).val % N = count % N

theorem even_of_dvd {N : ℕ} (h : N ∣ 2 ^ 64) (count : ℕ) : Even N count := by
  unfold Even
  show (0 + count) % 2 ^ 64 % N = count % N
  rw [Nat.zero_add, Nat.mod_mod_of_dvd _ h]

theorem even_of_lt {N count : ℕ} (h : count < 2 ^ 64) : Even N count := by
  unfold Even
  show (0 + count) % 2 ^ 64 % N = count % N
  rw [Nat.zero_add, Nat.mod_eq_of_lt h]

namespace InMemoryRx

variable {N : ℕ} {rx : InMemoryRx N} {pushed : List Bytes} {first recycled : ℕ}

theorem represents_new (N : ℕ) : (new N).Represents [] 0 0 where
  head := (cursor_zero 0).symm
  tail := (cursor_zero 0).symm
  recycled := (cursor_zero 0).symm
  first_le := le_rfl
  room := Nat.zero_le _
  slots := by
    refine ⟨fun i _ hi ↦ absurd hi (Nat.not_lt_zero i), fun i _ hi ↦ ?_⟩
    show (Vector.replicate N none)[_]? = some none
    rw [Vector.getElem?_replicate, if_pos (Nat.mod_lt _ (by omega))]

theorem Represents.push (hN : N < 2 ^ 64) (h : rx.Represents pushed first recycled)
    (heven : Even N pushed.length) (bytes : Bytes) :
    (pushed.length = first + N ∧ rx.push bytes = (.error .full, rx)) ∨
      (pushed.length < first + N ∧ ∃ rx', rx.push bytes = (.ok (), rx') ∧
        rx'.Represents (pushed ++ [bytes]) first recycled) := by
  have hroom := h.room
  have hle := h.first_le
  have hdistance : (wrappingSub rx.tail rx.head).val = pushed.length - first := by
    rw [h.tail, h.head]
    exact wrappingSub_cursor 0 hle (by omega)
  unfold InMemoryRx.push
  rw [hdistance]
  by_cases hfull : pushed.length - first = N
  · rw [if_pos hfull]
    exact .inl ⟨by omega, rfl⟩
  rw [if_neg hfull, if_neg (by omega)]
  refine .inr ⟨by omega, _, rfl, h.head, ?_, h.recycled, ?_, ?_, ?_⟩
  · show wrappingSucc rx.tail = cursor 0 (pushed ++ [bytes]).length
    rw [h.tail, wrappingSucc_cursor, List.length_append, List.length_singleton]
  · rw [List.length_append]
    omega
  · rw [List.length_append, List.length_singleton]
    omega
  · have hkept : Spsc.Holds 0 rx.frames (pushed ++ [bytes]) first pushed.length :=
      h.slots.congr fun i hi ↦ List.getElem?_append_left hi
    have hslots := hkept.push hle (by omega) List.getElem?_concat_length
    have hplace : rx.tail.val % N = ((0 : U64).val + pushed.length) % N := by
      rw [h.tail]
      exact heven.trans (by rw [show (0 : U64).val = 0 from rfl, Nat.zero_add])
    show Spsc.Holds 0 (rx.frames.setIfInBounds (rx.tail.val % N) (some bytes)) (pushed ++ [bytes]) first
      (pushed ++ [bytes]).length
    rw [hplace, List.length_append, List.length_singleton]
    exact hslots

theorem Represents.receive (hN : N < 2 ^ 64) (h : rx.Represents pushed first recycled)
    (heven : first < pushed.length → Even N first) :
    (first = pushed.length ∧ rx.receive = (none, rx)) ∨
      ∃ bytes rx', pushed[first]? = some bytes ∧ rx.receive = (some bytes, rx') ∧
        rx'.Represents pushed (first + 1) recycled := by
  have hroom := h.room
  have hle := h.first_le
  have hempty : rx.head = rx.tail ↔ first = pushed.length := by
    rw [h.head, h.tail]
    exact cursor_eq_iff 0 hle (by omega)
  unfold InMemoryRx.receive
  rcases hle.eq_or_lt with heq | hlt
  · rw [if_pos (.inl (hempty.mpr heq))]
    exact .inl ⟨heq, rfl⟩
  have hplace : rx.head.val % N = ((0 : U64).val + first) % N := by
    rw [h.head]
    exact (heven hlt).trans (by rw [show (0 : U64).val = 0 from rfl, Nat.zero_add])
  have hlive := h.slots.live first le_rfl hlt
  rw [List.getElem?_eq_getElem hlt] at hlive
  rw [if_neg (not_or_intro (fun heq ↦ hlt.ne (hempty.mp heq)) (by omega)), hplace, hlive]
  refine .inr ⟨pushed[first], _, List.getElem?_eq_getElem hlt, rfl, ?_, h.tail, h.recycled, hlt, by omega, ?_⟩
  · show wrappingSucc rx.head = cursor 0 (first + 1)
    rw [h.head, wrappingSucc_cursor]
  · exact h.slots.pop hlt (by omega)

/-- A call on the ring is the call on the bounded queue, as long as the places of its frames are even. -/
theorem Represents.step (hN : N < 2 ^ 64) (h : rx.Represents pushed first recycled) (call : Call)
    (heven : ∀ count, count < pushed.length + [call].countP Call.isPush → Even N count) :
    ∃ pushed' first' recycled', (rx.step call).2.Represents pushed' first' recycled' ∧
      pushed'.length ≤ pushed.length + [call].countP Call.isPush ∧
      Frames.step N ⟨pushed.drop first, recycled⟩ call =
        ((rx.step call).1, ⟨pushed'.drop first', recycled'⟩) := by
  have hle := h.first_le
  cases call with
  | push bytes =>
    rcases h.push hN (heven _ (Nat.lt_succ_self _)) bytes with ⟨hfull, hpush⟩ | ⟨hroom, rx', hpush, hnext⟩
    · have hrefused := BoundedQueue.tryPush_of_le bytes (show N ≤ (pushed.drop first).length by
        rw [List.length_drop]
        omega)
      rw [step_push hpush]
      refine ⟨pushed, first, recycled, h, Nat.le_add_right _ _, ?_⟩
      simp only [Frames.step, hrefused]
    · have haccepted := BoundedQueue.tryPush_of_lt bytes (show (pushed.drop first).length < N by
        rw [List.length_drop]
        omega)
      rw [step_push hpush]
      refine ⟨pushed ++ [bytes], first, recycled, hnext, ?_, ?_⟩
      · rw [List.length_append]
        exact le_rfl
      · simp only [Frames.step, haccepted, List.drop_append_of_le_length hle]
  | receive forgotten =>
    rcases h.receive hN fun hlt ↦ heven _ (Nat.lt_add_right _ hlt) with
      ⟨rfl, hreceive⟩ | ⟨bytes, rx', hget, hreceive, hnext⟩
    · rw [step_receive forgotten hreceive]
      refine ⟨pushed, pushed.length, recycled, h, Nat.le_add_right _ _, ?_⟩
      rw [List.drop_length]
      rfl
    · rw [step_receive forgotten hreceive]
      refine ⟨pushed, first + 1, recycled + if !forgotten then 1 else 0, ?_, Nat.le_add_right _ _, ?_⟩
      · cases forgotten with
        | true => exact hnext
        | false =>
          refine ⟨hnext.head, hnext.tail, ?_, hnext.first_le, hnext.room, hnext.slots⟩
          show wrappingSucc rx'.recycled = cursor 0 (recycled + 1)
          rw [hnext.recycled, wrappingSucc_cursor]
      · simp only [Frames.step, BoundedQueue.tryPop_drop hget]
        rfl

/-- A run of the ring, as long as the places of its frames are even. -/
theorem Represents.answers (hN : N < 2 ^ 64) (h : rx.Represents pushed first recycled) (calls : List Call)
    (heven : ∀ count, count < pushed.length + calls.countP Call.isPush → Even N count) :
    rx.answers calls = Frames.answers N ⟨pushed.drop first, recycled⟩ calls := by
  induction calls generalizing rx pushed first recycled with
  | nil => rfl
  | cons call calls ih =>
    have hsplit : (call :: calls).countP Call.isPush =
        [call].countP Call.isPush + calls.countP Call.isPush := by
      rw [← List.countP_append]
      rfl
    obtain ⟨pushed', first', recycled', hnext, hlength, hstep⟩ :=
      h.step hN call fun count hcount ↦ heven count (by omega)
    rw [InMemoryRx.answers, Frames.answers, hstep, ih hnext fun count hcount ↦ heven count (by omega)]
    unfold InMemoryRx.recycledCount
    rw [hnext.recycled]

/-! ## Sizes that do not divide the word size -/

def after : InMemoryRx N → List Call → InMemoryRx N
  | rx, [] => rx
  | rx, call :: calls => (rx.step call).2.after calls

theorem answers_append (rx : InMemoryRx N) (calls later : List Call) :
    rx.answers (calls ++ later) = rx.answers calls ++ (rx.after calls).answers later := by
  induction calls generalizing rx with
  | nil => rfl
  | cons call calls ih =>
    rw [List.cons_append, answers, answers, ih, List.cons_append]
    rfl

theorem length_answers (rx : InMemoryRx N) (calls : List Call) :
    (rx.answers calls).length = calls.length := by
  induction calls generalizing rx with
  | nil => rfl
  | cons call calls ih => rw [answers, List.length_cons, List.length_cons, ih]

end InMemoryRx

namespace Frames

variable {N : ℕ}

def after (N : ℕ) : Frames → List Call → Frames
  | frames, [] => frames
  | frames, call :: calls => (frames.step N call).2.after N calls

theorem answers_append (frames : Frames) (calls later : List Call) :
    frames.answers N (calls ++ later) = frames.answers N calls ++ (frames.after N calls).answers N later := by
  induction calls generalizing frames with
  | nil => rfl
  | cons call calls ih =>
    rw [List.cons_append, answers, answers, ih, List.cons_append]
    rfl

theorem length_answers (frames : Frames) (calls : List Call) :
    (frames.answers N calls).length = calls.length := by
  induction calls generalizing frames with
  | nil => rfl
  | cons call calls ih => rw [answers, List.length_cons, List.length_cons, ih]

end Frames

/-- Frames that are received one by one, and frames that are not. -/
def passing : ℕ → List Call
  | 0 => []
  | count + 1 => .push [0] :: .receive false :: passing count

def filling : ℕ → List Call
  | 0 => []
  | count + 1 => .push [0] :: filling count

namespace InMemoryRx

variable {N : ℕ} {rx : InMemoryRx N} {pushed : List Bytes} {first recycled : ℕ}

/-- A frame that is pushed before the wrap, into a ring with room. -/
theorem Represents.step_push (hN : N < 2 ^ 64) (h : rx.Represents pushed first recycled)
    (hroom : pushed.length < first + N) (hcount : pushed.length < 2 ^ 64) (bytes : Bytes) :
    (rx.step (.push bytes)).2.Represents (pushed ++ [bytes]) first recycled ∧
      Frames.step N ⟨pushed.drop first, recycled⟩ (.push bytes) =
        (.pushed (.ok ()), ⟨pushed.drop first ++ [bytes], recycled⟩) := by
  have hle := h.first_le
  have haccepted := BoundedQueue.tryPush_of_lt bytes (show (pushed.drop first).length < N by
    rw [List.length_drop]
    omega)
  rcases h.push hN (even_of_lt hcount) bytes with ⟨hfull, _⟩ | ⟨_, rx', hpush, hnext⟩
  · omega
  · rw [InMemoryRx.step_push hpush]
    refine ⟨hnext, ?_⟩
    simp only [Frames.step, haccepted]

theorem Represents.after_passing (hN : N < 2 ^ 64) (hpos : 0 < N) (count : ℕ)
    (h : rx.Represents pushed pushed.length recycled) (hcount : pushed.length + count ≤ 2 ^ 64) :
    (rx.after (passing count)).Represents (pushed ++ List.replicate count [0]) (pushed.length + count)
        (recycled + count) ∧
      (⟨[], recycled⟩ : Frames).after N (passing count) = ⟨[], recycled + count⟩ := by
  induction count generalizing rx pushed recycled with
  | zero =>
    rw [List.replicate_zero, List.append_nil]
    exact ⟨h, rfl⟩
  | succ count ih =>
    obtain ⟨hpushed, hframes⟩ := h.step_push hN (by omega) (by omega) [0]
    rw [List.drop_length] at hframes
    have hlength : (pushed ++ [[0]]).length = pushed.length + 1 := by
      rw [List.length_append, List.length_singleton]
    rcases hpushed.receive hN fun _ ↦ even_of_lt (by omega) with
      ⟨hempty, _⟩ | ⟨bytes, rx', _, hreceive, hreceived⟩
    · omega
    have hrecycled : rx'.recycle.Represents (pushed ++ [[0]]) (pushed ++ [[0]]).length (recycled + 1) := by
      rw [hlength]
      refine ⟨hreceived.head, hreceived.tail, ?_, hreceived.first_le, hreceived.room, hreceived.slots⟩
      show wrappingSucc rx'.recycled = cursor 0 (recycled + 1)
      rw [hreceived.recycled, wrappingSucc_cursor]
    obtain ⟨hafter, hframes'⟩ := ih hrecycled (by omega)
    rw [hlength] at hafter
    constructor
    · show (((rx.step (.push [0])).2.step (.receive false)).2.after (passing count)).Represents _ _ _
      rw [step_receive false hreceive, List.replicate_succ, ← List.singleton_append,
        ← List.append_assoc, show pushed.length + (count + 1) = pushed.length + 1 + count by omega,
        show recycled + (count + 1) = recycled + 1 + count by omega]
      exact hafter
    · show ((Frames.step N ((⟨[], recycled⟩ : Frames).step N (.push [0])).2 (.receive false)).2.after N
        (passing count)) = _
      rw [hframes, show recycled + (count + 1) = recycled + 1 + count by omega]
      exact hframes'

theorem Represents.after_filling (hN : N < 2 ^ 64) (count : ℕ)
    (h : rx.Represents pushed first recycled) (hroom : pushed.length + count ≤ first + N)
    (hcount : pushed.length + count ≤ 2 ^ 64) :
    (rx.after (filling count)).Represents (pushed ++ List.replicate count [0]) first recycled ∧
      (⟨pushed.drop first, recycled⟩ : Frames).after N (filling count) =
        ⟨pushed.drop first ++ List.replicate count [0], recycled⟩ := by
  induction count generalizing rx pushed with
  | zero =>
    rw [List.replicate_zero, List.append_nil, List.append_nil]
    exact ⟨h, rfl⟩
  | succ count ih =>
    obtain ⟨hpushed, hframes⟩ := h.step_push hN (by omega) (by omega) [0]
    have hlength : (pushed ++ [[0]]).length = pushed.length + 1 := by
      rw [List.length_append, List.length_singleton]
    obtain ⟨hafter, hframes'⟩ := ih hpushed (by omega) (by omega)
    rw [List.replicate_succ, ← List.singleton_append, ← List.append_assoc, ← List.append_assoc]
    refine ⟨hafter, ?_⟩
    rw [List.drop_append_of_le_length h.first_le] at hframes'
    rw [← hframes']
    show ((⟨pushed.drop first, recycled⟩ : Frames).step N (.push [0])).2.after N (filling count) = _
    rw [hframes]

/-- Where the cursor wraps, the next frame takes the place of one that is waiting. -/
theorem Represents.overwrites (hN : N < 2 ^ 64) (h : rx.Represents pushed first recycled)
    (hlength : pushed.length = 2 ^ 64) (hfirst : first < pushed.length) (hroom : pushed.length < first + N)
    (heven : first % N = 0) (bytes : Bytes) :
    ((rx.step (.push bytes)).2.step (.receive true)).1 = .received (some bytes) := by
  have hhead : rx.head.val = first := by
    rw [h.head]
    show (0 + first) % 2 ^ 64 = first
    rw [Nat.zero_add, Nat.mod_eq_of_lt (by omega)]
  have htail : rx.tail.val = 0 := by
    rw [h.tail, hlength]
    rfl
  have hdistance : (wrappingSub rx.tail rx.head).val ≠ N := by
    rw [h.tail, h.head, wrappingSub_cursor 0 h.first_le (by omega)]
    omega
  have hpush : rx.push bytes = (.ok (), { rx with
      frames := rx.frames.setIfInBounds 0 (some bytes)
      tail := wrappingSucc rx.tail }) := by
    unfold InMemoryRx.push
    rw [if_neg hdistance, if_neg (by omega), htail, Nat.zero_mod]
  have hne : rx.head ≠ wrappingSucc rx.tail := by
    rw [h.tail, h.head, wrappingSucc_cursor, ne_eq, cursor_eq_iff 0 (by omega) (by omega)]
    omega
  rw [InMemoryRx.step_push hpush]
  have hreceive : ∃ rx', InMemoryRx.receive { rx with
      frames := rx.frames.setIfInBounds 0 (some bytes)
      tail := wrappingSucc rx.tail } = (some bytes, rx') := by
    unfold InMemoryRx.receive
    dsimp only
    rw [if_neg (not_or_intro hne (by omega)), hhead, heven,
      Vector.getElem?_setIfInBounds_self_of_lt (by omega)]
    exact ⟨_, rfl⟩
  obtain ⟨rx', hreceive⟩ := hreceive
  rw [step_receive true hreceive]

theorem step_of_zero (call : Call) :
    (new 0).step call = (match call with
      | .push _ => .pushed (.error .full)
      | .receive _ => .received none, new 0) := by
  cases call with
  | push bytes => rfl
  | receive forgotten => rfl

theorem answers_of_zero (calls : List Call) : (new 0).answers calls = Frames.answers 0 ⟨[], 0⟩ calls := by
  induction calls with
  | nil => rfl
  | cons call calls ih =>
    rw [answers, Frames.answers, step_of_zero, ih]
    cases call with
    | push bytes => rfl
    | receive forgotten => rfl

end InMemoryRx

/-- The ring is a bounded queue over all runs exactly if its size divides the word size, and over runs that do
not push more frames than the word size whatever its size. -/
theorem inMemoryRx_refines_iff {N : ℕ} (hN : N < 2 ^ 64) :
    ((∀ calls, (InMemoryRx.new N).answers calls = Frames.answers N ⟨[], 0⟩ calls) ↔ N = 0 ∨ N ∣ 2 ^ 64) ∧
    ∀ calls, calls.countP Call.isPush ≤ 2 ^ 64 →
      (InMemoryRx.new N).answers calls = Frames.answers N ⟨[], 0⟩ calls := by
  refine ⟨⟨fun hall ↦ ?_, ?_⟩, fun calls hcalls ↦ ?_⟩
  · by_contra hnot
    obtain ⟨hzero, hdvd⟩ := not_or.mp hnot
    have hpos : 0 < N := Nat.pos_of_ne_zero hzero
    obtain ⟨rest, hrest⟩ : ∃ rest, rest = 2 ^ 64 % N := ⟨_, rfl⟩
    obtain ⟨count, hcount⟩ : ∃ count, count = 2 ^ 64 - rest := ⟨_, rfl⟩
    have hrestPos : 0 < rest := by
      rw [hrest]
      exact Nat.pos_of_ne_zero fun h ↦ hdvd (Nat.dvd_of_mod_eq_zero h)
    have hrestLt : rest < N := by
      rw [hrest]
      exact Nat.mod_lt _ hpos
    have hcountMod : count % N = 0 := by
      rw [hcount, hrest]
      exact Nat.sub_mod_eq_zero_of_mod_eq (Nat.mod_mod _ _).symm
    have hsum : count + rest = 2 ^ 64 := by
      have hle := Nat.mod_le (2 ^ 64) N
      omega
    obtain ⟨hpassed, hframes⟩ := (InMemoryRx.represents_new N).after_passing hN hpos count (by
      rw [List.length_nil]
      omega)
    rw [List.nil_append, List.length_nil, Nat.zero_add] at hpassed
    rw [Nat.zero_add] at hframes
    obtain ⟨hfilled, hframes'⟩ := hpassed.after_filling hN rest (by rw [List.length_replicate]; omega)
      (by rw [List.length_replicate]; omega)
    rw [List.drop_eq_nil_of_le (by rw [List.length_replicate]), List.nil_append, ← hframes] at hframes'
    have hring := hfilled.overwrites hN (by
        rw [List.length_append, List.length_replicate, List.length_replicate]
        exact hsum) (by
        rw [List.length_append, List.length_replicate, List.length_replicate]
        omega) (by
        rw [List.length_append, List.length_replicate, List.length_replicate]
        omega) hcountMod [1]
    have hlast := hall (passing count ++ (filling rest ++ [.push [1], .receive true]))
    rw [InMemoryRx.answers_append, InMemoryRx.answers_append, Frames.answers_append, Frames.answers_append]
      at hlast
    have hlast' := (List.append_inj (List.append_inj hlast (by
      rw [InMemoryRx.length_answers, Frames.length_answers])).2 (by
      rw [InMemoryRx.length_answers, Frames.length_answers])).2
    rw [hframes'] at hlast'
    have hanswer : some (Answer.received (some [1])) =
        some ((Frames.step N ((⟨List.replicate rest [0], count⟩ : Frames).step N (.push [1])).2
          (.receive true)).1) := by
      rw [← hring]
      exact congrArg (fun answers ↦ answers[1]?.map Prod.fst) hlast'
    have hpush := BoundedQueue.tryPush_of_lt [1] (show (List.replicate rest ([0] : Bytes)).length < N by
      rw [List.length_replicate]
      exact hrestLt)
    obtain ⟨more, rfl⟩ := Nat.exists_eq_add_of_lt hrestPos
    simp only [Frames.step, hpush] at hanswer
    rw [Nat.zero_add, List.replicate_succ] at hanswer
    cases hanswer
  · rintro (rfl | hdvd)
    · exact InMemoryRx.answers_of_zero
    · intro calls
      exact (InMemoryRx.represents_new N).answers hN calls fun count _ ↦ even_of_dvd hdvd count
  · apply (InMemoryRx.represents_new N).answers hN calls
    intro count hcount
    apply even_of_lt
    rw [List.length_nil, Nat.zero_add] at hcount
    omega

theorem inMemoryRx_refines_three :
    (∃ calls, (InMemoryRx.new 3).answers calls ≠ Frames.answers 3 ⟨[], 0⟩ calls) ∧
      ∀ bytes, (InMemoryRx.new 3).answers [.push bytes, .receive false] =
        Frames.answers 3 ⟨[], 0⟩ [.push bytes, .receive false] := by
  obtain ⟨hiff, hbounded⟩ := inMemoryRx_refines_iff (show 3 < 2 ^ 64 by decide)
  constructor
  · by_contra hnot
    push Not at hnot
    rcases hiff.mp hnot with hzero | hdvd
    · cases hzero
    · exact absurd hdvd (by decide)
  · intro bytes
    exact hbounded _ (show 1 ≤ 2 ^ 64 by decide)

end DeterministicExchange.Io
