import Mathlib.Tactic

/-!
# Fixed-width machine integers

Unsigned words of width `w` are `Fin (2 ^ w)`; signed words are the integers of
the two's-complement range. Checked operations return `none` exactly when the
mathematical result leaves the range. Arithmetic side conditions are stated on
the underlying numbers, so that linear arithmetic closes them.
-/

namespace DeterministicExchange.Machine

/-- The value of an option, or the given error. -/
def okOr {ε α : Type} (error : ε) : Option α → Except ε α
  | some a => .ok a
  | none => .error error

theorem okOr_eq_ok {ε α : Type} {error : ε} {o : Option α} {a : α} :
    okOr error o = .ok a ↔ o = some a := by
  cases o <;> simp [okOr]

theorem except_ok_bind {ε α β : Type} (a : α) (f : α → Except ε β) :
    ((Except.ok a : Except ε α) >>= f) = f a :=
  rfl

theorem except_bind_eq_ok {ε α β : Type} {x : Except ε α} {f : α → Except ε β} {b : β} :
    (x >>= f) = .ok b ↔ ∃ a, x = .ok a ∧ f a = .ok b := by
  cases x with
  | error e => simp [bind, Except.bind]
  | ok a => simp [bind, Except.bind]

abbrev Unsigned (w : ℕ) := Fin (2 ^ w)

/-- Numerals are words, reduced modulo `2 ^ w`. -/
instance instOfNatUnsigned (w n : ℕ) : OfNat (Unsigned w) n := ⟨Fin.ofNat (2 ^ w) n⟩

/-- Two's-complement integers of width `w`. -/
abbrev Signed (w : ℕ) := {x : ℤ // -2 ^ (w - 1) ≤ x ∧ x < 2 ^ (w - 1)}

abbrev U8 := Unsigned 8
abbrev U16 := Unsigned 16
abbrev U32 := Unsigned 32
abbrev U64 := Unsigned 64
abbrev U128 := Unsigned 128
abbrev I64 := Signed 64
abbrev I128 := Signed 128

namespace Unsigned

variable {w v : ℕ}

/-- The checked conversion of a number into a word. -/
def ofNat? (w n : ℕ) : Option (Unsigned w) :=
  if h : n < 2 ^ w then some ⟨n, h⟩ else none

def checkedAdd (a b : Unsigned w) : Option (Unsigned w) := ofNat? w (a.val + b.val)

/-- Subtraction that stops at zero. -/
def monus (a b : Unsigned w) : Unsigned w := ⟨a.val - b.val, (Nat.sub_le _ _).trans_lt a.isLt⟩

def checkedSub (a b : Unsigned w) : Option (Unsigned w) :=
  if b.val ≤ a.val then some (monus a b) else none

def checkedMul (a b : Unsigned w) : Option (Unsigned w) := ofNat? w (a.val * b.val)

def maxValue (w : ℕ) : Unsigned w := ⟨2 ^ w - 1, Nat.sub_lt (by positivity) Nat.one_pos⟩

/-- Lossless widening. -/
def widen (h : w ≤ v) (a : Unsigned w) : Unsigned v :=
  ⟨a.val, a.isLt.trans_le (Nat.pow_le_pow_right (by norm_num) h)⟩

@[simp] theorem monus_val (a b : Unsigned w) : (monus a b).val = a.val - b.val := rfl

theorem ofNat?_eq_some {n : ℕ} {a : Unsigned w} : ofNat? w n = some a ↔ n = a.val := by
  unfold ofNat?
  split
  · simp [Fin.ext_iff]
  · have := a.isLt
    simp only [reduceCtorEq, false_iff]
    omega

theorem ofNat?_eq_none {n : ℕ} : ofNat? w n = none ↔ 2 ^ w ≤ n := by
  unfold ofNat?
  split <;> simp <;> omega

theorem ofNat?_of_lt {n : ℕ} (h : n < 2 ^ w) : ofNat? w n = some ⟨n, h⟩ := by
  simp [ofNat?, h]

theorem checkedAdd_eq_some {a b c : Unsigned w} :
    checkedAdd a b = some c ↔ a.val + b.val = c.val := ofNat?_eq_some

theorem checkedAdd_eq_none {a b : Unsigned w} :
    checkedAdd a b = none ↔ 2 ^ w ≤ a.val + b.val := ofNat?_eq_none

theorem checkedMul_eq_some {a b c : Unsigned w} :
    checkedMul a b = some c ↔ a.val * b.val = c.val := ofNat?_eq_some

theorem checkedSub_eq_some {a b c : Unsigned w} :
    checkedSub a b = some c ↔ a.val = c.val + b.val := by
  unfold checkedSub
  split
  · simp only [Option.some.injEq, Fin.ext_iff, monus_val]
    omega
  · simp only [reduceCtorEq, false_iff]
    omega

theorem checkedSub_eq_none {a b : Unsigned w} : checkedSub a b = none ↔ a.val < b.val := by
  unfold checkedSub
  split
  · simp only [reduceCtorEq, false_iff]
    omega
  · simp only [true_iff]
    omega

theorem checkedSub_of_le {a b : Unsigned w} (h : b.val ≤ a.val) :
    checkedSub a b = some (monus a b) := if_pos h

theorem checkedAdd_of_lt {a b : Unsigned w} (h : a.val + b.val < 2 ^ w) :
    ∃ c, checkedAdd a b = some c ∧ c.val = a.val + b.val :=
  ⟨⟨a.val + b.val, h⟩, checkedAdd_eq_some.mpr rfl, rfl⟩

end Unsigned

namespace Signed

variable {w : ℕ}

def zero (w : ℕ) : Signed w := ⟨0, by constructor <;> simp⟩

/-- The checked conversion of an integer into a signed word. -/
def ofInt? (w : ℕ) (x : ℤ) : Option (Signed w) :=
  if h : -2 ^ (w - 1) ≤ x ∧ x < 2 ^ (w - 1) then some ⟨x, h⟩ else none

def checkedAdd (a b : Signed w) : Option (Signed w) := ofInt? w (a.val + b.val)

def checkedSub (a b : Signed w) : Option (Signed w) := ofInt? w (a.val - b.val)

def checkedAbs (a : Signed w) : Option (Signed w) := ofInt? w |a.val|

/-- The checked conversion into an unsigned word. -/
def toUnsigned? (v : ℕ) (a : Signed w) : Option (Unsigned v) :=
  if 0 ≤ a.val then Unsigned.ofNat? v a.val.toNat else none

/-- The checked conversion from an unsigned word. -/
def ofUnsigned? {v : ℕ} (w : ℕ) (a : Unsigned v) : Option (Signed w) := ofInt? w a.val

theorem ofInt?_eq_some {x : ℤ} {a : Signed w} : ofInt? w x = some a ↔ x = a.val := by
  unfold ofInt?
  split
  · simp [Subtype.ext_iff]
  · have := a.property
    simp only [reduceCtorEq, false_iff]
    grind

theorem ofInt?_of_mem {x : ℤ} (h : -2 ^ (w - 1) ≤ x ∧ x < 2 ^ (w - 1)) :
    ofInt? w x = some ⟨x, h⟩ := by
  simp [ofInt?, h]

end Signed

/-- Word addition of machine-sized indices, which wraps modulo `2 ^ 64`. -/
def wrappingAdd (a b : ℕ) : ℕ := (a + b) % 2 ^ 64

theorem wrappingAdd_of_lt {a b : ℕ} (h : a + b < 2 ^ 64) : wrappingAdd a b = a + b :=
  Nat.mod_eq_of_lt h

/-- Positions that fit 32 bits are addressable: an array has at most `2 ^ 63` bytes. -/
theorem addressable {n : ℕ} (h : n ≤ 2 ^ 32) : n ≤ 2 ^ 63 := h.trans (by norm_num)

end DeterministicExchange.Machine
