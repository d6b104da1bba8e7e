import DeterministicExchange.Machine.Integer

/-!
# Wrapping cursors

A cursor counts from an arbitrary word and wraps at the word size. Two cursors
whose counts are less than a full turn apart can be compared and subtracted as
if they did not wrap, and a power of two divides the turn, so that masked
cursors index a ring across the wrap.
-/

namespace DeterministicExchange.Machine

variable {w : ℕ}

/-- The cursor that has counted `n` steps from `base`. -/
def cursor (base : Unsigned w) (n : ℕ) : Unsigned w :=
  ⟨(base.val + n) % 2 ^ w, Nat.mod_lt _ (Nat.two_pow_pos w)⟩

@[simp] theorem cursor_zero (base : Unsigned w) : cursor base 0 = base :=
  Fin.ext (Nat.mod_eq_of_lt base.isLt)

/-- `wrapping_sub`. -/
def wrappingSub (a b : Unsigned w) : Unsigned w :=
  ⟨(a.val + (2 ^ w - b.val)) % 2 ^ w, Nat.mod_lt _ (Nat.two_pow_pos w)⟩

/-- `wrapping_add`. -/
def Unsigned.wrappingAdd (a b : Unsigned w) : Unsigned w :=
  ⟨(a.val + b.val) % 2 ^ w, Nat.mod_lt _ (Nat.two_pow_pos w)⟩

theorem Unsigned.wrappingAdd_of_lt {a b : Unsigned w} (h : a.val + b.val < 2 ^ w) :
    (Unsigned.wrappingAdd a b).val = a.val + b.val := Nat.mod_eq_of_lt h

/-- `wrapping_add` of one. -/
def wrappingSucc (a : Unsigned w) : Unsigned w :=
  ⟨(a.val + 1) % 2 ^ w, Nat.mod_lt _ (Nat.two_pow_pos w)⟩

theorem wrappingSucc_cursor (base : Unsigned w) (n : ℕ) :
    wrappingSucc (cursor base n) = cursor base (n + 1) := by
  apply Fin.ext
  show ((base.val + n) % 2 ^ w + 1) % 2 ^ w = (base.val + (n + 1)) % 2 ^ w
  rw [Nat.mod_add_mod, Nat.add_assoc]

/-- The distance of two cursors that are less than a turn apart. -/
theorem wrappingSub_cursor (base : Unsigned w) {a b : ℕ} (hle : b ≤ a) (hlt : a - b < 2 ^ w) :
    (wrappingSub (cursor base a) (cursor base b)).val = a - b := by
  show ((base.val + a) % 2 ^ w + (2 ^ w - (base.val + b) % 2 ^ w)) % 2 ^ w = a - b
  have hturn : (base.val + b) % 2 ^ w < 2 ^ w := Nat.mod_lt _ (Nat.two_pow_pos w)
  have hsplit := Nat.mod_add_div (base.val + b) (2 ^ w)
  have hsum : base.val + a + (2 ^ w - (base.val + b) % 2 ^ w) =
      (a - b) + 2 ^ w * ((base.val + b) / 2 ^ w + 1) := by
    rw [Nat.mul_add, Nat.mul_one]
    omega
  rw [Nat.mod_add_mod, hsum, Nat.add_mul_mod_self_left, Nat.mod_eq_of_lt hlt]

theorem cursor_eq_iff (base : Unsigned w) {a b : ℕ} (hle : b ≤ a) (hlt : a - b < 2 ^ w) :
    cursor base b = cursor base a ↔ b = a := by
  constructor
  · intro heq
    have hdistance := wrappingSub_cursor base hle hlt
    rw [← heq, wrappingSub_cursor base le_rfl (by simp)] at hdistance
    omega
  · exact congrArg (cursor base)

/-- A masked cursor walks around a ring whose size is a power of two. -/
theorem cursor_and (base : Unsigned w) (n : ℕ) {k : ℕ} (hk : k ≤ w) :
    (cursor base n).val &&& (2 ^ k - 1) = (base.val + n) % 2 ^ k := by
  rw [Nat.and_two_pow_sub_one_eq_mod]
  exact Nat.mod_mod_of_dvd _ (Nat.pow_dvd_pow 2 hk)

/-- The distance to another cursor shrinks with every step. -/
theorem wrappingSub_wrappingSucc_lt {a b : Unsigned w} (hne : b ≠ a) :
    (wrappingSub a (wrappingSucc b)).val < (wrappingSub a b).val := by
  set n := (wrappingSub a b).val with hn
  have hcursor : a = cursor b n := by
    apply Fin.ext
    show a.val = (b.val + (a.val + (2 ^ w - b.val)) % 2 ^ w) % 2 ^ w
    have hb := b.isLt
    rw [Nat.add_mod_mod, show b.val + (a.val + (2 ^ w - b.val)) = a.val + 2 ^ w by omega,
      Nat.add_mod_right, Nat.mod_eq_of_lt a.isLt]
  have hpos : 1 ≤ n := by
    by_contra hzero
    rw [show n = 0 by omega, cursor_zero] at hcursor
    exact hne hcursor.symm
  have hsucc : wrappingSucc b = cursor b 1 := by
    conv_lhs => rw [← cursor_zero b]
    exact wrappingSucc_cursor b 0
  have hlt : n < 2 ^ w := (wrappingSub a b).isLt
  rw [hcursor, hsucc, wrappingSub_cursor b hpos (by omega)]
  omega

end DeterministicExchange.Machine
