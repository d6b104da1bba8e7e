import DeterministicExchange.Codec.Bytes

/-!
# Decimal text

Text as UTF-8 bytes, split into lines and into words, with decimal numbers as words.
Lines end with a line feed, which a carriage return may precede; words are separated by
white space. A number may be written with a plus sign or with leading zeros, so that
parsing undoes formatting but not the other way round.
-/

namespace DeterministicExchange.Codec

open Machine

abbrev Text := List Char

/-! ## UTF-8 -/

def toUtf8 (text : Text) : Bytes := (text.flatMap String.utf8EncodeChar).map UInt8.toFin

def fromUtf8 (bytes : Bytes) : Option Text :=
  (ByteArray.mk (bytes.map UInt8.ofFin).toArray).utf8Decode?.map Array.toList

theorem fromUtf8_toUtf8 (text : Text) : fromUtf8 (toUtf8 text) = some text := by
  have hbytes : ByteArray.mk ((toUtf8 text).map UInt8.ofFin).toArray = text.utf8Encode := by
    have hid : UInt8.ofFin ∘ UInt8.toFin = id := by
      funext byte
      rfl
    rw [toUtf8, List.map_map, hid, List.map_id, List.utf8Encode]
    apply ByteArray.ext
    rw [List.data_toByteArray]
  unfold fromUtf8
  rw [hbytes, List.utf8Decode?_utf8Encode]
  rfl

/-! ## Lines -/

/-- A line, kept in reverse, without the carriage return before its line feed. -/
def dropCarriageReturn : Text → Text
  | '\r' :: line => line
  | line => line

/-- The lines of a text after the part `line` of its first line, kept in reverse. -/
def linesFrom (line : Text) : Text → List Text
  | [] => if line = [] then [] else [line.reverse]
  | c :: text =>
    if c = '\n' then (dropCarriageReturn line).reverse :: linesFrom [] text
    else linesFrom (c :: line) text

def lines (text : Text) : List Text := linesFrom [] text

/-- A line without a line feed or a carriage return in it. -/
def Unbroken (line : Text) : Prop := ∀ c ∈ line, c ≠ '\n' ∧ c ≠ '\r'

theorem Unbroken.dropCarriageReturn {line : Text} (h : Unbroken line) : dropCarriageReturn line = line := by
  unfold Codec.dropCarriageReturn
  split
  · exact absurd rfl (h '\r' List.mem_cons_self).2
  · rfl

theorem linesFrom_unbroken {line rest : Text} (h : Unbroken line) (start : Text) :
    linesFrom start (line ++ '\n' :: rest) =
      (dropCarriageReturn (line.reverse ++ start)).reverse :: lines rest := by
  induction line generalizing start with
  | nil => rw [List.nil_append, linesFrom, if_pos rfl, List.reverse_nil, List.nil_append, lines]
  | cons c line ih =>
    have hrest : Unbroken line := fun d hd ↦ h d (List.mem_cons_of_mem _ hd)
    rw [List.cons_append, linesFrom, if_neg (h c List.mem_cons_self).1, ih hrest, List.reverse_cons,
      List.append_assoc, List.singleton_append]

/-- The first line of a text is what stands before its first line feed. -/
theorem lines_cons {line : Text} (h : Unbroken line) (rest : Text) :
    lines (line ++ '\n' :: rest) = line :: lines rest := by
  have hreverse : Unbroken line.reverse := fun c hc ↦ h c (List.mem_reverse.mp hc)
  rw [lines, linesFrom_unbroken h, List.append_nil, hreverse.dropCarriageReturn, List.reverse_reverse]

/-- Each of the lines with its line feed. -/
def unlines (texts : List Text) : Text := texts.flatMap fun line ↦ line ++ ['\n']

theorem lines_unlines {texts : List Text} (h : ∀ line ∈ texts, Unbroken line) :
    lines (unlines texts) = texts := by
  induction texts with
  | nil => rfl
  | cons line texts ih =>
    have hunlines : unlines (line :: texts) = line ++ '\n' :: unlines texts := by simp [unlines]
    rw [hunlines, lines_cons (h line List.mem_cons_self), ih fun l hl ↦ h l (List.mem_cons_of_mem _ hl)]

/-! ## Words -/

/-- The characters with the property `White_Space`. -/
def isWhitespace (c : Char) : Bool :=
  decide (9 ≤ c.toNat ∧ c.toNat ≤ 13 ∨ c.toNat = 0x20 ∨ c.toNat = 0x85 ∨ c.toNat = 0xA0 ∨
    c.toNat = 0x1680 ∨ 0x2000 ≤ c.toNat ∧ c.toNat ≤ 0x200A ∨ c.toNat = 0x2028 ∨ c.toNat = 0x2029 ∨
    c.toNat = 0x202F ∨ c.toNat = 0x205F ∨ c.toNat = 0x3000)

/-- The words of a text after the part `word` of its first word, kept in reverse. -/
def wordsFrom (word : Text) : Text → List Text
  | [] => if word = [] then [] else [word.reverse]
  | c :: text =>
    if isWhitespace c then
      if word = [] then wordsFrom [] text else word.reverse :: wordsFrom [] text
    else wordsFrom (c :: word) text

def splitWhitespace (text : Text) : List Text := wordsFrom [] text

structure Word (word : Text) : Prop where
  nonempty : word ≠ []
  solid : ∀ c ∈ word, isWhitespace c = false

theorem wordsFrom_solid {word : Text} (h : ∀ c ∈ word, isWhitespace c = false) (start rest : Text) :
    wordsFrom start (word ++ rest) = wordsFrom (word.reverse ++ start) rest := by
  induction word generalizing start with
  | nil => rfl
  | cons c word ih =>
    have hc : isWhitespace c = false := h c List.mem_cons_self
    rw [List.cons_append, wordsFrom, hc, if_neg Bool.false_ne_true,
      ih fun d hd ↦ h d (List.mem_cons_of_mem _ hd), List.reverse_cons, List.append_assoc,
      List.singleton_append]

/-- Words with one space between every two of them. -/
def spaced (words : List Text) : Text := List.intercalate [' '] words

theorem spaced_cons (word : Text) {words : List Text} (hwords : words ≠ []) :
    spaced (word :: words) = word ++ ' ' :: spaced words := by
  cases words with
  | nil => exact absurd rfl hwords
  | cons next words => rfl

theorem splitWhitespace_spaced {words : List Text} (h : ∀ word ∈ words, Word word) :
    splitWhitespace (spaced words) = words := by
  induction words with
  | nil => rfl
  | cons word words ih =>
    have hword := h word List.mem_cons_self
    have hreverse : word.reverse ++ [] ≠ [] := by simpa using hword.nonempty
    cases words with
    | nil =>
      have hspaced : spaced [word] = word ++ [] := by simp [spaced, List.intercalate]
      rw [splitWhitespace, hspaced, wordsFrom_solid hword.solid, wordsFrom, if_neg hreverse,
        List.append_nil, List.reverse_reverse]
    | cons next words =>
      have hspace : isWhitespace ' ' = true := by decide
      rw [spaced_cons word (List.cons_ne_nil _ _), splitWhitespace, wordsFrom_solid hword.solid, wordsFrom,
        if_pos hspace, if_neg hreverse, List.append_nil, List.reverse_reverse]
      exact congrArg (word :: ·) (ih fun w hw ↦ h w (List.mem_cons_of_mem _ hw))

theorem mem_spaced {words : List Text} {c : Char} (h : c ∈ spaced words) :
    c = ' ' ∨ ∃ word ∈ words, c ∈ word := by
  induction words with
  | nil => simp [spaced, List.intercalate] at h
  | cons word words ih =>
    cases words with
    | nil =>
      refine .inr ⟨word, List.mem_cons_self, ?_⟩
      simpa [spaced, List.intercalate] using h
    | cons next words =>
      rw [spaced_cons word (List.cons_ne_nil _ _)] at h
      rcases List.mem_append.mp h with h | h
      · exact .inr ⟨word, List.mem_cons_self, h⟩
      · rcases List.mem_cons.mp h with rfl | h
        · exact .inl rfl
        · rcases ih h with rfl | ⟨w, hw, hc⟩
          · exact .inl rfl
          · exact .inr ⟨w, List.mem_cons_of_mem _ hw, hc⟩

/-! ## Numbers -/

def natText (n : ℕ) : Text := Nat.toDigits 10 n

def intText (n : ℤ) : Text := if n < 0 then '-' :: natText n.natAbs else natText n.natAbs

def digitsValue : ℕ → Text → Option ℕ
  | value, [] => some value
  | value, c :: text => if c.isDigit then digitsValue (10 * value + (c.toNat - '0'.toNat)) text else none

/-- The value of at least one digit. -/
def parseDigits (text : Text) : Option ℕ := if text = [] then none else digitsValue 0 text

def parseUnsigned (w : ℕ) (text : Text) : Option (Unsigned w) :=
  match text with
  | '+' :: digits => (parseDigits digits).bind (Unsigned.ofNat? w)
  | digits => (parseDigits digits).bind (Unsigned.ofNat? w)

def parseSigned (w : ℕ) (text : Text) : Option (Signed w) :=
  match text with
  | '-' :: digits => (parseDigits digits).bind fun value ↦ Signed.ofInt? w (-value)
  | '+' :: digits => (parseDigits digits).bind fun value ↦ Signed.ofInt? w value
  | digits => (parseDigits digits).bind fun value ↦ Signed.ofInt? w value

theorem isDigit_natText {n : ℕ} {c : Char} (h : c ∈ natText n) : c.isDigit = true :=
  Nat.isDigit_of_mem_toDigits (by decide) (by decide) h

theorem natText_ne_nil (n : ℕ) : natText n ≠ [] := Nat.toDigits_ne_nil

theorem digitsValue_of_digits {text : Text} (h : ∀ c ∈ text, c.isDigit = true) (value : ℕ) :
    digitsValue value text = some (Nat.ofDigitChars 10 text value) := by
  induction text generalizing value with
  | nil => rw [digitsValue, Nat.ofDigitChars_nil]
  | cons c text ih =>
    rw [digitsValue, if_pos (h c List.mem_cons_self), ih fun d hd ↦ h d (List.mem_cons_of_mem _ hd),
      Nat.ofDigitChars_cons]

theorem parseDigits_natText (n : ℕ) : parseDigits (natText n) = some n := by
  rw [parseDigits, if_neg (natText_ne_nil n), digitsValue_of_digits fun _ hc ↦ isDigit_natText hc]
  exact congrArg some Nat.ofDigitChars_ten_toDigits

/-- The first character of a formatted number is a digit, hence no sign. -/
theorem natText_eq_cons (n : ℕ) : ∃ c text, natText n = c :: text ∧ c.isDigit = true := by
  obtain ⟨c, text, hcons⟩ := List.exists_cons_of_ne_nil (natText_ne_nil n)
  exact ⟨c, text, hcons, isDigit_natText (hcons ▸ List.mem_cons_self)⟩

theorem parseUnsigned_natText {w : ℕ} (a : Unsigned w) : parseUnsigned w (natText a.val) = some a := by
  have hvalue := parseDigits_natText a.val
  obtain ⟨c, text, hcons, hdigit⟩ := natText_eq_cons a.val
  rw [hcons] at hvalue ⊢
  have hplus : c ≠ '+' := by
    rintro rfl
    exact absurd hdigit (by decide)
  unfold parseUnsigned
  split
  · next heq => exact absurd (List.cons.inj heq).1 hplus
  · rw [hvalue]
    exact Unsigned.ofNat?_eq_some.mpr rfl

theorem parseSigned_intText {w : ℕ} (a : Signed w) : parseSigned w (intText a.val) = some a := by
  have hvalue := parseDigits_natText a.val.natAbs
  unfold intText
  by_cases hneg : a.val < 0
  · rw [if_pos hneg]
    show (parseDigits (natText a.val.natAbs)).bind _ = _
    rw [hvalue]
    exact Signed.ofInt?_eq_some.mpr (by omega)
  · rw [if_neg hneg]
    obtain ⟨c, text, hcons, hdigit⟩ := natText_eq_cons a.val.natAbs
    rw [hcons] at hvalue ⊢
    have hminus : c ≠ '-' := by
      rintro rfl
      exact absurd hdigit (by decide)
    have hplus : c ≠ '+' := by
      rintro rfl
      exact absurd hdigit (by decide)
    unfold parseSigned
    split
    · next heq => exact absurd (List.cons.inj heq).1 hminus
    · next heq => exact absurd (List.cons.inj heq).1 hplus
    · rw [hvalue]
      exact Signed.ofInt?_eq_some.mpr (by omega)

/-! ## Formatted numbers as words -/

theorem isWhitespace_of_isDigit {c : Char} (h : c.isDigit = true) : isWhitespace c = false := by
  have hrange : 48 ≤ c.toNat ∧ c.toNat ≤ 57 := by
    rw [Char.isDigit, Bool.and_eq_true, decide_eq_true_eq, decide_eq_true_eq] at h
    exact ⟨h.1, h.2⟩
  rw [isWhitespace, decide_eq_false_iff_not]
  omega

theorem word_natText (n : ℕ) : Word (natText n) :=
  ⟨natText_ne_nil n, fun _ hc ↦ isWhitespace_of_isDigit (isDigit_natText hc)⟩

theorem word_intText (n : ℤ) : Word (intText n) := by
  unfold intText
  split
  · refine ⟨List.cons_ne_nil _ _, ?_⟩
    intro c hc
    rcases List.mem_cons.mp hc with rfl | hc
    · decide
    · exact (word_natText _).solid c hc
  · exact word_natText _

/-- Words with single spaces between them stay on one line. -/
theorem unbroken_spaced {words : List Text} (h : ∀ word ∈ words, Word word) : Unbroken (spaced words) := by
  intro c hc
  rcases mem_spaced hc with rfl | ⟨word, hword, hmem⟩
  · decide
  · have hsolid := (h word hword).solid c hmem
    constructor <;>
    · rintro rfl
      exact absurd hsolid (by decide)

end DeterministicExchange.Codec
