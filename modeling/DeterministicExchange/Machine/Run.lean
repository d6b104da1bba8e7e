import DeterministicExchange.Machine.Integer

/-!
# Computations that may panic

A computation of the modelled program either returns or faults. A fault records
which kind of panic was reached; a loop whose iteration bound is exhausted is
the fault `diverged`. Recoverable errors are ordinary return values, so the
state reached at an error return is still visible to the caller.
-/

namespace DeterministicExchange.Machine

inductive Fault where
  /-- An `expect` on an absent value, with its message. -/
  | expect (message : String)
  /-- An `unreachable!` arm. -/
  | unreachable (message : String)
  /-- An index or a range outside its array. -/
  | index
  /-- Unsigned subtraction below zero or an overflowing addition. -/
  | arithmetic
  /-- A failed `debug_assert!`. -/
  | debugAssert
  /-- A loop that never reaches its exit. -/
  | diverged
  deriving DecidableEq, Repr

abbrev Run := Except Fault

namespace Run

variable {α β : Type} {n : ℕ}

def expect (message : String) : Option α → Run α
  | some a => .ok a
  | none => .error (.expect message)

def debugAssert (condition : Bool) : Run Unit :=
  if condition then .ok () else .error .debugAssert

/-- Unsigned subtraction, which panics below zero. -/
def sub (a b : ℕ) : Run ℕ := if b ≤ a then .ok (a - b) else .error .arithmetic

/-- Addition in `w` bits, which panics on overflow. -/
def add (w a b : ℕ) : Run ℕ := if a + b < 2 ^ w then .ok (a + b) else .error .arithmetic

/-- Word subtraction, which panics below zero. -/
def subWord {w : ℕ} (a b : Unsigned w) : Run (Unsigned w) :=
  if b.val ≤ a.val then .ok (Unsigned.monus a b) else .error .arithmetic

/-- Word addition, which panics on overflow. -/
def addWord {w : ℕ} (a b : Unsigned w) : Run (Unsigned w) :=
  match Unsigned.checkedAdd a b with
  | some c => .ok c
  | none => .error .arithmetic

/-- Bounds-checked read `array[i]`. -/
def read (array : Vector α n) (i : ℕ) : Run α :=
  match array[i]? with
  | some a => .ok a
  | none => .error .index

/-- Bounds-checked assignment `array[i] = a`. -/
def write (array : Vector α n) (i : ℕ) (a : α) : Run (Vector α n) :=
  if i < n then .ok (array.setIfInBounds i a) else .error .index

@[simp] theorem expect_some (message : String) (a : α) : expect message (some a) = .ok a := rfl

@[simp] theorem debugAssert_true : debugAssert true = .ok () := rfl

theorem sub_of_le {a b : ℕ} (h : b ≤ a) : sub a b = .ok (a - b) := by simp [sub, h]

theorem add_of_lt {w a b : ℕ} (h : a + b < 2 ^ w) : add w a b = .ok (a + b) := by simp [add, h]

theorem subWord_of_le {w : ℕ} {a b : Unsigned w} (h : b.val ≤ a.val) :
    subWord a b = .ok (Unsigned.monus a b) := by simp [subWord, h]

theorem addWord_of_lt {w : ℕ} {a b : Unsigned w} (h : a.val + b.val < 2 ^ w) :
    ∃ c, addWord a b = .ok c ∧ c.val = a.val + b.val := by
  obtain ⟨c, hadd, hval⟩ := Unsigned.checkedAdd_of_lt h
  refine ⟨c, ?_, hval⟩
  unfold addWord
  rw [hadd]

theorem read_eq_ok {array : Vector α n} {i : ℕ} {a : α} :
    read array i = .ok a ↔ array[i]? = some a := by
  unfold read
  split <;> simp_all

theorem write_of_lt (array : Vector α n) {i : ℕ} (a : α) (h : i < n) :
    write array i a = .ok (array.setIfInBounds i a) := by simp [write, h]

theorem write_eq_ok {array array' : Vector α n} {i : ℕ} {a : α} :
    write array i a = .ok array' ↔ i < n ∧ array.setIfInBounds i a = array' := by
  unfold write
  split <;> simp_all

@[simp] theorem pure_eq_ok (a : α) : (pure a : Run α) = .ok a := rfl

@[simp] theorem ok_bind (a : α) (f : α → Run β) : ((Except.ok a : Run α) >>= f) = f a := rfl

@[simp] theorem error_bind (e : Fault) (f : α → Run β) :
    ((Except.error e : Run α) >>= f) = .error e := rfl

/-- The computation returns: it is refused because of `obstacle`, or builds a value with `post`. -/
def Builds {ε : Type} (obstacle : Prop) (x : Run (Except ε α)) (post : α → Prop) : Prop :=
  (∃ error, x = .ok (.error error) ∧ obstacle) ∨ ∃ a, x = .ok (.ok a) ∧ post a

/-- Without the obstacle the value is built. -/
theorem Builds.of_not {ε : Type} {obstacle : Prop} {x : Run (Except ε α)} {post : α → Prop}
    (h : Builds obstacle x post) (hno : ¬ obstacle) : ∃ a, x = .ok (.ok a) ∧ post a :=
  h.resolve_left fun ⟨_, _, hobstacle⟩ ↦ hno hobstacle

/-- A computation that is known to return, and its value. -/
theorem eq_ok_get {x : Run α} (h : x.toOption.isSome = true) : x = .ok (x.toOption.get h) := by
  cases x with
  | error e => simp [Except.toOption] at h
  | ok a => rfl

/-- A computation that is known to return and to accept, and its value. -/
theorem eq_ok_ok_get {ε : Type} {x : Run (Except ε α)}
    (h : (x.toOption.bind Except.toOption).isSome = true) :
    x = .ok (.ok ((x.toOption.bind Except.toOption).get h)) := by
  cases x with
  | error e => simp [Except.toOption] at h
  | ok result =>
    cases result with
    | error e => simp [Except.toOption] at h
    | ok a => rfl

/-- A computation whose first component is known. -/
theorem exists_eq_ok {x : Run (α × β)} {a : α} (h : x.map Prod.fst = .ok a) : ∃ b, x = .ok (a, b) := by
  cases x with
  | error e => simp [Except.map] at h
  | ok pair => exact ⟨pair.2, by rw [← Except.ok.inj h]⟩

theorem bind_eq_ok {x : Run α} {f : α → Run β} {b : β} :
    (x >>= f) = .ok b ↔ ∃ a, x = .ok a ∧ f a = .ok b :=
  except_bind_eq_ok

/-- A check that passes on every element passes on the list. -/
theorem forM_eq_ok {l : List α} {f : α → Run Unit} (h : ∀ a ∈ l, f a = .ok ()) :
    l.forM f = .ok () := by
  induction l with
  | nil => rfl
  | cons a l ih =>
    rw [List.forM, h a List.mem_cons_self, ok_bind]
    exact ih fun b hb ↦ h b (List.mem_cons_of_mem a hb)

end Run

end DeterministicExchange.Machine
