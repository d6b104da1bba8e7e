import DeterministicExchange.Machine.Integer
import DeterministicExchange.Machine.Run

/-!
# Big-endian fields

Words are written as big-endian bytes and read back from fixed positions of a
byte string. Encoding and decoding are inverse to each other, for unsigned
words and for two's-complement ones.
-/

namespace DeterministicExchange.Codec

open Machine

abbrev Bytes := List U8

/-- The low `k` bytes of `n`, most significant byte first. -/
def beBytes : ℕ → ℕ → Bytes
  | 0, _ => []
  | k + 1, n => Fin.ofNat (2 ^ 8) (n / 256 ^ k) :: beBytes k n

def beValue : Bytes → ℕ
  | [] => 0
  | byte :: bytes => byte.val * 256 ^ bytes.length + beValue bytes

/-- The `len` bytes at `offset`. -/
def slice (bytes : Bytes) (offset len : ℕ) : Bytes := (bytes.drop offset).take len

/-- Bounds-checked read `bytes[i]`. -/
def byteAt (bytes : Bytes) (i : ℕ) : Run U8 :=
  match bytes[i]? with
  | some byte => .ok byte
  | none => .error .index

/-- Bounds-checked range `bytes[offset..offset + len]`. -/
def range (bytes : Bytes) (offset len : ℕ) : Run Bytes :=
  if offset + len ≤ bytes.length then .ok (slice bytes offset len) else .error .index

def encodeUnsigned {w : ℕ} (a : Unsigned w) : Bytes := beBytes (w / 8) a.val

def decodeUnsigned (w : ℕ) (bytes : Bytes) : Unsigned w :=
  ⟨beValue bytes % 2 ^ w, Nat.mod_lt _ (Nat.two_pow_pos w)⟩

/-- The two's-complement representation of a signed word. -/
def encodeSigned {w : ℕ} (a : Signed w) : Bytes := beBytes (w / 8) (a.val % 2 ^ w).toNat

/-- The signed word represented by an unsigned one. -/
def Signed.reinterpret (w : ℕ) (hw : 0 < w) (a : Unsigned w) : Signed w :=
  if h : a.val < 2 ^ (w - 1) then ⟨a.val, by
    constructor
    · have : (0 : ℤ) < 2 ^ (w - 1) := by positivity
      omega
    · exact_mod_cast h⟩
  else ⟨a.val - 2 ^ w, by
    have hpow : (2 : ℤ) ^ w = 2 * 2 ^ (w - 1) := by
      rw [← pow_succ', Nat.sub_add_cancel hw]
    have hlt : (a.val : ℤ) < 2 ^ w := by exact_mod_cast a.isLt
    have hge : (2 : ℤ) ^ (w - 1) ≤ a.val := by exact_mod_cast Nat.le_of_not_lt h
    constructor <;> omega⟩

def decodeI64 (bytes : Bytes) : I64 := Signed.reinterpret 64 (by decide) (decodeUnsigned 64 bytes)

def decodeI128 (bytes : Bytes) : I128 := Signed.reinterpret 128 (by decide) (decodeUnsigned 128 bytes)

/-! ## Unsigned words -/

@[simp] theorem length_beBytes (k n : ℕ) : (beBytes k n).length = k := by
  induction k with
  | zero => rfl
  | succ k ih => rw [beBytes, List.length_cons, ih]

theorem beValue_lt (bytes : Bytes) : beValue bytes < 256 ^ bytes.length := by
  induction bytes with
  | nil => simp [beValue]
  | cons byte bytes ih =>
    have hbyte := byte.isLt
    rw [beValue, List.length_cons, pow_succ' 256]
    have hle : byte.val * 256 ^ bytes.length ≤ 255 * 256 ^ bytes.length :=
      Nat.mul_le_mul_right _ (by omega)
    omega

theorem beValue_beBytes (k n : ℕ) : beValue (beBytes k n) = n % 256 ^ k := by
  induction k with
  | zero => simp [beBytes, beValue, Nat.mod_one]
  | succ k ih =>
    rw [beBytes, beValue, length_beBytes, ih]
    have hbyte : (Fin.ofNat (2 ^ 8) (n / 256 ^ k)).val = n / 256 ^ k % 256 := rfl
    rw [hbyte, pow_succ, Nat.mod_mul, Nat.mul_comm, Nat.add_comm]

theorem beBytes_mod (k n m : ℕ) (h : n % 256 ^ k = m % 256 ^ k) : beBytes k n = beBytes k m := by
  induction k with
  | zero => rfl
  | succ k ih =>
    have hlow : n % 256 ^ k = m % 256 ^ k := by
      have hn := Nat.mod_mul_right_mod n (256 ^ k) 256
      have hm := Nat.mod_mul_right_mod m (256 ^ k) 256
      rw [← pow_succ] at hn hm
      rw [← hn, ← hm, h]
    have hhigh : n / 256 ^ k % 256 = m / 256 ^ k % 256 := by
      have hn := Nat.mod_mul_right_div_self n (256 ^ k) 256
      have hm := Nat.mod_mul_right_div_self m (256 ^ k) 256
      rw [← pow_succ] at hn hm
      rw [← hn, ← hm, h]
    rw [beBytes, beBytes, ih hlow]
    congr 1
    exact Fin.ext hhigh

theorem beBytes_beValue (bytes : Bytes) : beBytes bytes.length (beValue bytes) = bytes := by
  induction bytes with
  | nil => rfl
  | cons byte bytes ih =>
    rw [List.length_cons, beBytes, beValue]
    have hlt := beValue_lt bytes
    have hpos : 0 < 256 ^ bytes.length := by positivity
    have hdiv : (byte.val * 256 ^ bytes.length + beValue bytes) / 256 ^ bytes.length = byte.val := by
      rw [Nat.mul_comm, Nat.mul_add_div hpos, Nat.div_eq_of_lt hlt, Nat.add_zero]
    have hrest : beBytes bytes.length (byte.val * 256 ^ bytes.length + beValue bytes) = bytes := by
      rw [beBytes_mod _ _ (beValue bytes) (by rw [Nat.mul_comm, Nat.mul_add_mod]), ih]
    rw [hdiv, hrest]
    congr 1
    exact Fin.ext (Nat.mod_eq_of_lt byte.isLt)

theorem pow_eq {w : ℕ} (hw : 8 ∣ w) : 256 ^ (w / 8) = 2 ^ w := by
  obtain ⟨k, rfl⟩ := hw
  rw [Nat.mul_div_cancel_left k (by norm_num), show (256 : ℕ) = 2 ^ 8 by norm_num, ← pow_mul]

theorem decodeUnsigned_encodeUnsigned {w : ℕ} (hw : 8 ∣ w) (a : Unsigned w) :
    decodeUnsigned w (encodeUnsigned a) = a := by
  apply Fin.ext
  show beValue (beBytes (w / 8) a.val) % 2 ^ w = a.val
  rw [beValue_beBytes, pow_eq hw, Nat.mod_mod, Nat.mod_eq_of_lt a.isLt]

theorem encodeUnsigned_decodeUnsigned {w : ℕ} (hw : 8 ∣ w) {bytes : Bytes}
    (hlen : bytes.length = w / 8) : encodeUnsigned (decodeUnsigned w bytes) = bytes := by
  have hlt := beValue_lt bytes
  rw [hlen, pow_eq hw] at hlt
  have hval : (decodeUnsigned w bytes).val = beValue bytes := Nat.mod_eq_of_lt hlt
  unfold encodeUnsigned
  rw [hval, ← hlen, beBytes_beValue]

@[simp] theorem length_encodeUnsigned {w : ℕ} (a : Unsigned w) :
    (encodeUnsigned a).length = w / 8 := length_beBytes _ _

@[simp] theorem length_encodeSigned {w : ℕ} (a : Signed w) :
    (encodeSigned a).length = w / 8 := length_beBytes _ _

theorem decodeUnsigned_byte (byte : U8) : decodeUnsigned 8 [byte] = byte := by
  apply Fin.ext
  have hbyte := byte.isLt
  show (byte.val * 256 ^ 0 + 0) % 2 ^ 8 = byte.val
  omega

theorem encodeUnsigned_byte {bytes : Bytes} (h : bytes.length = 1) :
    bytes = [decodeUnsigned 8 bytes] := by
  obtain ⟨byte, rfl⟩ := List.length_eq_one_iff.mp h
  rw [decodeUnsigned_byte]

/-! ## Signed words -/

theorem reinterpret_mod {w : ℕ} (hw : 0 < w) (a : Unsigned w) :
    ((Signed.reinterpret w hw a).val % 2 ^ w).toNat = a.val := by
  have hlt : (a.val : ℤ) < 2 ^ w := by exact_mod_cast a.isLt
  unfold Signed.reinterpret
  split
  · rw [Int.emod_eq_of_lt (by positivity) hlt]
    rfl
  · rw [Int.sub_emod_right, Int.emod_eq_of_lt (by positivity) hlt]
    rfl

theorem reinterpret_of_mod {w : ℕ} (hw : 0 < w) (a : Signed w) (b : Unsigned w)
    (hb : (b.val : ℤ) = a.val % 2 ^ w) : Signed.reinterpret w hw b = a := by
  have hpow : (2 : ℤ) ^ w = 2 * 2 ^ (w - 1) := by
    rw [← pow_succ', Nat.sub_add_cancel hw]
  obtain ⟨hlow, hhigh⟩ := a.property
  have hcast : ((2 ^ (w - 1) : ℕ) : ℤ) = 2 ^ (w - 1) := by push_cast; rfl
  apply Subtype.ext
  unfold Signed.reinterpret
  by_cases hneg : a.val < 0
  · have hmod : a.val % 2 ^ w = a.val + 2 ^ w := by
      rw [← Int.add_emod_right, Int.emod_eq_of_lt (by omega) (by omega)]
    have hnot : ¬ b.val < 2 ^ (w - 1) := by omega
    rw [dif_neg hnot]
    show (b.val : ℤ) - 2 ^ w = a.val
    omega
  · have hmod : a.val % 2 ^ w = a.val := Int.emod_eq_of_lt (by omega) (by omega)
    have hlt : b.val < 2 ^ (w - 1) := by omega
    rw [dif_pos hlt]
    show (b.val : ℤ) = a.val
    omega

theorem decode_encodeSigned {w : ℕ} (hw : 8 ∣ w) (hpos : 0 < w) (a : Signed w) :
    Signed.reinterpret w hpos (decodeUnsigned w (encodeSigned a)) = a := by
  apply reinterpret_of_mod
  have hnonneg : 0 ≤ a.val % 2 ^ w := Int.emod_nonneg _ (by positivity)
  have hlt : (a.val % 2 ^ w).toNat < 2 ^ w := by
    have hmod : a.val % 2 ^ w < 2 ^ w := Int.emod_lt_of_pos _ (by positivity)
    have hcast : ((2 ^ w : ℕ) : ℤ) = 2 ^ w := by push_cast; rfl
    omega
  have hval : (decodeUnsigned w (encodeSigned a)).val = (a.val % 2 ^ w).toNat := by
    show beValue (beBytes (w / 8) _) % 2 ^ w = _
    rw [beValue_beBytes, pow_eq hw, Nat.mod_mod, Nat.mod_eq_of_lt hlt]
  rw [hval, Int.toNat_of_nonneg hnonneg]

theorem encodeSigned_reinterpret {w : ℕ} (hw : 8 ∣ w) (hpos : 0 < w) {bytes : Bytes}
    (hlen : bytes.length = w / 8) :
    encodeSigned (Signed.reinterpret w hpos (decodeUnsigned w bytes)) = bytes := by
  unfold encodeSigned
  rw [reinterpret_mod]
  exact encodeUnsigned_decodeUnsigned hw hlen

theorem decodeI64_encodeSigned (a : I64) : decodeI64 (encodeSigned a) = a :=
  decode_encodeSigned (by decide) (by decide) a

theorem decodeI128_encodeSigned (a : I128) : decodeI128 (encodeSigned a) = a :=
  decode_encodeSigned (by decide) (by decide) a

theorem encodeSigned_decodeI64 {bytes : Bytes} (hlen : bytes.length = 8) :
    encodeSigned (decodeI64 bytes) = bytes := encodeSigned_reinterpret (by decide) (by decide) hlen

theorem encodeSigned_decodeI128 {bytes : Bytes} (hlen : bytes.length = 16) :
    encodeSigned (decodeI128 bytes) = bytes := encodeSigned_reinterpret (by decide) (by decide) hlen

/-! ## Slices -/

theorem slice_append_right (pre post : Bytes) (offset len : ℕ) :
    slice (pre ++ post) (pre.length + offset) len = slice post offset len := by
  unfold slice
  rw [List.drop_length_add_append]

theorem slice_full (bytes : Bytes) : slice bytes 0 bytes.length = bytes := by
  simp [slice]

theorem length_slice {bytes : Bytes} {offset len : ℕ} (h : offset + len ≤ bytes.length) :
    (slice bytes offset len).length = len := by
  unfold slice
  rw [List.length_take, List.length_drop]
  omega

theorem slice_skip {pre rest : Bytes} {offset len : ℕ} (h : pre.length ≤ offset) :
    slice (pre ++ rest) offset len = slice rest (offset - pre.length) len := by
  obtain ⟨k, rfl⟩ := Nat.exists_eq_add_of_le h
  rw [slice_append_right, Nat.add_sub_cancel_left]

theorem slice_head {field rest : Bytes} {len : ℕ} (h : field.length = len) :
    slice (field ++ rest) 0 len = field := by
  subst h
  unfold slice
  rw [List.drop_zero, List.take_left]

theorem slice_cons_succ (byte : U8) (rest : Bytes) (offset len : ℕ) :
    slice (byte :: rest) (offset + 1) len = slice rest offset len := rfl

theorem slice_cons_one (byte : U8) (rest : Bytes) : slice (byte :: rest) 0 1 = [byte] := rfl

theorem slice_self {field : Bytes} {len : ℕ} (h : field.length = len) : slice field 0 len = field := by
  rw [← h, slice_full]

theorem byteAt_skip {pre rest : Bytes} {i : ℕ} (h : pre.length ≤ i) :
    byteAt (pre ++ rest) i = byteAt rest (i - pre.length) := by
  unfold byteAt
  rw [List.getElem?_append_right h]

theorem byteAt_of_lt {bytes : Bytes} {i : ℕ} (h : i < bytes.length) :
    byteAt bytes i = .ok bytes[i] := by
  unfold byteAt
  rw [List.getElem?_eq_getElem h]

theorem byteAt_eq_ok {bytes : Bytes} {i : ℕ} {byte : U8} :
    byteAt bytes i = .ok byte ↔ bytes[i]? = some byte := by
  unfold byteAt
  split <;> simp_all

theorem range_of_le {bytes : Bytes} {offset len : ℕ} (h : offset + len ≤ bytes.length) :
    range bytes offset len = .ok (slice bytes offset len) := if_pos h

theorem slice_one {bytes : Bytes} {i : ℕ} {byte : U8} (h : bytes[i]? = some byte) :
    slice bytes i 1 = [byte] := by
  unfold slice
  obtain ⟨hi, rfl⟩ := List.getElem?_eq_some_iff.mp h
  rw [List.drop_eq_getElem_cons hi, List.take_succ_cons, List.take_zero]

theorem slice_append_slice (bytes : Bytes) (offset len len' : ℕ) :
    slice bytes offset len ++ slice bytes (offset + len) len' = slice bytes offset (len + len') := by
  unfold slice
  rw [← List.drop_drop, List.take_add]

theorem slice_zero_append (bytes : Bytes) (len len' : ℕ) :
    slice bytes 0 len ++ slice bytes len len' = slice bytes 0 (len + len') := by
  rw [← slice_append_slice, Nat.zero_add]

theorem slice_join (bytes : Bytes) {offset len next len' : ℕ} (h : next = offset + len) :
    slice bytes offset len ++ slice bytes next len' = slice bytes offset (len + len') := by
  rw [h, slice_append_slice]

end DeterministicExchange.Codec
