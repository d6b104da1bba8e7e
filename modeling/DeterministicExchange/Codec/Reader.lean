import DeterministicExchange.Codec.Bytes

/-!
# Canonical readers

A reader consumes bytes from the front of its input. It is canonical for a
writer when it reads back exactly what the writer has put there: every valid
value is read from its own bytes, whatever follows, and nothing else is
accepted. Sequencing, conditions and repetition keep this.
-/

namespace DeterministicExchange.Codec

open Machine

abbrev Reader (ε α : Type) := StateT Bytes (Except ε) α

namespace Reader

variable {ε α β : Type}

/-- The next `len` bytes. -/
def take (truncated : ε) (len : ℕ) : Reader ε Bytes := fun input ↦
  if len ≤ input.length then .ok (input.take len, input.drop len) else .error truncated

/-- Reads `n` values in turn. -/
def times (reader : Reader ε α) : ℕ → Reader ε (List α)
  | 0 => pure []
  | n + 1 => do
    let a ← reader
    let as ← times reader n
    return a :: as

theorem run_bind_eq_ok {reader : Reader ε α} {f : α → Reader ε β} {input rest : Bytes} {b : β} :
    (reader >>= f).run input = .ok (b, rest) ↔
      ∃ a middle, reader.run input = .ok (a, middle) ∧ (f a).run middle = .ok (b, rest) := by
  rw [StateT.run_bind]
  cases reader.run input with
  | error e => simp [bind, Except.bind]
  | ok pair => simp [bind, Except.bind, Prod.ext_iff]

@[simp] theorem ok_bind (a : α) (f : α → Except ε β) : ((Except.ok a : Except ε α) >>= f) = f a := rfl

@[simp] theorem pure_eq_ok (a : α) : (pure a : Except ε α) = .ok a := rfl

@[simp] theorem run_pure (a : α) (input : Bytes) : (pure a : Reader ε α).run input = .ok (a, input) := rfl

theorem run_pure_eq_ok {a b : α} {input rest : Bytes} :
    (pure a : Reader ε α).run input = .ok (b, rest) ↔ a = b ∧ input = rest := by
  show Except.ok (a, input) = Except.ok (b, rest) ↔ _
  simp

theorem run_throw_ne_ok {error : ε} {input rest : Bytes} {a : α} :
    ¬ (throw error : Reader ε α).run input = .ok (a, rest) := by
  rw [StateT.run_throw]
  simp [bind, Except.bind, throw, throwThe, MonadExceptOf.throw]

theorem run_bind_of_ok {reader : Reader ε α} {input middle : Bytes} {a : α}
    (h : reader.run input = .ok (a, middle)) (f : α → Reader ε β) :
    (reader >>= f).run input = (f a).run middle := by
  rw [StateT.run_bind, h]
  rfl

theorem run_take_append (truncated : ε) {bytes : Bytes} {len : ℕ} (h : bytes.length = len) (rest : Bytes) :
    (take truncated len).run (bytes ++ rest) = .ok (bytes, rest) := by
  subst h
  show (if bytes.length ≤ (bytes ++ rest).length then _ else _) = _
  rw [if_pos (by simp), List.take_left, List.drop_left]

theorem run_take_eq_ok {truncated : ε} {len : ℕ} {input bytes rest : Bytes} :
    (take truncated len).run input = .ok (bytes, rest) ↔ bytes.length = len ∧ input = bytes ++ rest := by
  constructor
  · intro h
    have hrun : (if len ≤ input.length then Except.ok (input.take len, input.drop len)
        else .error truncated) = Except.ok (bytes, rest) := h
    split at hrun
    · next hle =>
      obtain ⟨rfl, rfl⟩ := Prod.ext_iff.mp (Except.ok.inj hrun)
      exact ⟨by simp [hle], (List.take_append_drop len input).symm⟩
    · simp at hrun
  · rintro ⟨hlen, rfl⟩
    exact run_take_append truncated hlen rest

/-! ## Canonical readers -/

/-- The reader accepts exactly the bytes of valid values. -/
structure Canonical (reader : Reader ε α) (write : α → Bytes) (valid : α → Prop) : Prop where
  complete : ∀ a rest, valid a → reader.run (write a ++ rest) = .ok (a, rest)
  sound : ∀ input a rest, reader.run input = .ok (a, rest) → valid a ∧ input = write a ++ rest

namespace Canonical

variable {reader : Reader ε α} {write : α → Bytes} {valid : α → Prop}

theorem run_eq_ok (h : Canonical reader write valid) {input rest : Bytes} {a : α} :
    reader.run input = .ok (a, rest) ↔ valid a ∧ input = write a ++ rest := by
  refine ⟨h.sound input a rest, ?_⟩
  rintro ⟨ha, rfl⟩
  exact h.complete a rest ha

theorem run_bind (h : Canonical reader write valid) {a : α} (ha : valid a) (rest : Bytes)
    (f : α → Reader ε β) : (reader >>= f).run (write a ++ rest) = (f a).run rest :=
  run_bind_of_ok (h.complete a rest ha) f

/-- Bytes of valid values determine the value and what follows. -/
theorem injective (h : Canonical reader write valid) {a b : α} {rest rest' : Bytes} (ha : valid a)
    (hb : valid b) (heq : write a ++ rest = write b ++ rest') : a = b ∧ rest = rest' := by
  have hread := h.complete a rest ha
  rw [heq, h.complete b rest' hb] at hread
  obtain ⟨rfl, rfl⟩ := Prod.ext_iff.mp (Except.ok.inj hread)
  exact ⟨rfl, rfl⟩

/-- A field of fixed length that is written and read by inverse functions. -/
theorem field (truncated : ε) {len : ℕ} {decode : Bytes → α} (hlen : ∀ a, (write a).length = len)
    (hdecode : ∀ a, decode (write a) = a)
    (hencode : ∀ bytes, bytes.length = len → write (decode bytes) = bytes) :
    Canonical (decode <$> take truncated len) write fun _ ↦ True where
  complete a rest _ := by
    rw [StateT.run_map, run_take_append truncated (hlen a)]
    show Except.ok (decode (write a), rest) = _
    rw [hdecode]
  sound input a rest h := by
    rw [map_eq_pure_bind, run_bind_eq_ok] at h
    obtain ⟨bytes, middle, htake, hpure⟩ := h
    obtain ⟨hbytes, rfl⟩ := run_take_eq_ok.mp htake
    obtain ⟨rfl, rfl⟩ := run_pure_eq_ok.mp hpure
    exact ⟨trivial, by rw [hencode bytes hbytes]⟩

theorem unsigned (truncated : ε) {w : ℕ} (hw : 8 ∣ w) :
    Canonical (decodeUnsigned w <$> take truncated (w / 8)) encodeUnsigned fun _ ↦ True :=
  .field truncated length_encodeUnsigned (decodeUnsigned_encodeUnsigned hw)
    fun _ ↦ encodeUnsigned_decodeUnsigned hw

/-- Repetition writes the values one after the other. -/
theorem times (h : Canonical reader write valid) (n : ℕ) :
    Canonical (reader.times n) (List.flatMap write) fun as ↦ as.length = n ∧ ∀ a ∈ as, valid a where
  complete as rest := by
    rintro ⟨rfl, hvalid⟩
    induction as with
    | nil => rfl
    | cons a as ih =>
      obtain ⟨ha, has⟩ := List.forall_mem_cons.mp hvalid
      rw [List.flatMap_cons, List.append_assoc, List.length_cons, Reader.times,
        run_bind_of_ok (h.complete a _ ha), run_bind_of_ok (ih has)]
      rfl
  sound input as rest hread := by
    induction n generalizing input as with
    | zero =>
      obtain ⟨rfl, rfl⟩ := run_pure_eq_ok.mp hread
      simp
    | succ n ih =>
      obtain ⟨a, middle, hhead, htail⟩ := run_bind_eq_ok.mp hread
      obtain ⟨as', middle', htimes, hpure⟩ := run_bind_eq_ok.mp htail
      obtain ⟨rfl, rfl⟩ := run_pure_eq_ok.mp hpure
      obtain ⟨ha, rfl⟩ := h.sound _ _ _ hhead
      obtain ⟨⟨rfl, has⟩, rfl⟩ := ih _ _ htimes
      exact ⟨⟨rfl, List.forall_mem_cons.mpr ⟨ha, has⟩⟩, by simp⟩

end Canonical

end Reader

end DeterministicExchange.Codec
