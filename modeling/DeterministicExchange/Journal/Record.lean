import DeterministicExchange.Codec.Bytes
import DeterministicExchange.Types

/-!
# Journal records

The fixed 64-byte record of `hft-journal`: a header with a checksum over the
rest of the record, and a zero-padded payload. The checksum function is a
parameter; nothing depends on what it computes.
-/

namespace DeterministicExchange.Journal

open Machine Codec

def maxPayload : ℕ := 46
def recordSize : ℕ := 64
def formatVersion : U8 := 1
def magic : U16 := 0x4a52
def checksumOffset : ℕ := 14
def payloadOffset : ℕ := 18

inductive JournalError where
  | saturated
  | sequenceOverflow
  | payloadTooLarge (len : ℕ)
  deriving DecidableEq, Repr

inductive DecodeError where
  | malformed
  | badMagic (found : U16)
  | unsupportedVersion (found : U8)
  | unsupportedFlags (found : U8)
  | payloadLength (found : U16)
  | checksumMismatch (sequence : SequenceNumber)
  deriving DecidableEq, Repr

structure JournalRecord where
  sequence : SequenceNumber
  checksum : U32
  len : U16
  magic : U16
  payload : {bytes : Bytes // bytes.length = maxPayload}
  version : U8
  flags : U8
  deriving DecidableEq

/-- One complete record on disk. -/
abbrev RecordBytes := {bytes : Bytes // bytes.length = recordSize}

/-- A payload filled up with zero bytes; a longer one is cut. -/
def padded (payload : Bytes) : {bytes : Bytes // bytes.length = maxPayload} :=
  ⟨payload.take maxPayload ++ List.replicate (maxPayload - payload.length) 0, by
    rw [List.length_append, List.length_take, List.length_replicate]
    omega⟩

namespace JournalRecord

/-- The record with `checksum` in the place of its checksum. -/
def layout (record : JournalRecord) (checksum : U32) : RecordBytes :=
  ⟨encodeUnsigned record.magic ++ [record.version, record.flags] ++ encodeUnsigned record.sequence ++
    encodeUnsigned record.len ++ encodeUnsigned checksum ++ record.payload.val, by
    have hpayload := record.payload.property
    simp only [List.length_append, length_encodeUnsigned, hpayload, List.length_cons, List.length_nil]
    decide⟩

def bytesWithoutChecksum (record : JournalRecord) : RecordBytes := record.layout 0

def encode (record : JournalRecord) : RecordBytes := record.layout record.checksum

/-- The payload without its padding. -/
def slice (record : JournalRecord) : Option Bytes :=
  if record.len.val ≤ record.payload.val.length then some (record.payload.val.take record.len.val) else none

variable (crc32c : Bytes → U32)

def new (sequence : SequenceNumber) (payload : Bytes) : Except JournalError JournalRecord :=
  if maxPayload < payload.length then .error (.payloadTooLarge payload.length)
  else do
    let len ← okOr (.payloadTooLarge payload.length) (Unsigned.ofNat? 16 payload.length)
    let record : JournalRecord :=
      { sequence
        checksum := 0
        len
        magic := Journal.magic
        payload := padded payload
        version := formatVersion
        flags := 0 }
    return { record with checksum := crc32c record.bytesWithoutChecksum.val }

def verify (record : JournalRecord) : Bool :=
  record.magic = Journal.magic && record.version = formatVersion && record.flags = 0 &&
    record.slice.isSome && record.checksum = crc32c record.bytesWithoutChecksum.val

def decode (bytes : RecordBytes) : Except DecodeError JournalRecord :=
  let magic := decodeUnsigned 16 (Codec.slice bytes.val 0 2)
  let version := decodeUnsigned 8 (Codec.slice bytes.val 2 1)
  let flags := decodeUnsigned 8 (Codec.slice bytes.val 3 1)
  let sequence := decodeUnsigned 64 (Codec.slice bytes.val 4 8)
  let len := decodeUnsigned 16 (Codec.slice bytes.val 12 2)
  if magic ≠ Journal.magic then .error (.badMagic magic)
  else if version ≠ formatVersion then .error (.unsupportedVersion version)
  else if flags ≠ 0 then .error (.unsupportedFlags flags)
  else if maxPayload < len.val then .error (.payloadLength len)
  else
    let record : JournalRecord :=
      { sequence
        checksum := decodeUnsigned 32 (Codec.slice bytes.val checksumOffset 4)
        len
        magic
        payload := ⟨Codec.slice bytes.val payloadOffset maxPayload, length_slice (by
          rw [bytes.property]
          decide)⟩
        version
        flags }
    if record.verify crc32c then .ok record else .error (.checksumMismatch sequence)

variable {crc32c}

theorem verify_eq_true {record : JournalRecord} :
    record.verify crc32c = true ↔ record.magic = Journal.magic ∧ record.version = formatVersion ∧
      record.flags = 0 ∧ record.len.val ≤ maxPayload ∧
      record.checksum = crc32c record.bytesWithoutChecksum.val := by
  have hslice : record.slice.isSome = true ↔ record.len.val ≤ maxPayload := by
    unfold slice
    rw [record.payload.property]
    split <;> simp_all
  unfold verify
  simp only [Bool.and_eq_true, decide_eq_true_eq, hslice, and_assoc]

theorem take_padded {payload : Bytes} (h : payload.length ≤ maxPayload) :
    (padded payload).val.take payload.length = payload := by
  unfold padded
  simp only [List.take_of_length_le h, List.take_left]

/-- A payload that fits is recorded whole. -/
theorem new_of_le (crc32c : Bytes → U32) (sequence : SequenceNumber) {payload : Bytes}
    (h : payload.length ≤ maxPayload) :
    ∃ record, new crc32c sequence payload = .ok record ∧ record.sequence = sequence ∧
      record.slice = some payload ∧ record.verify crc32c = true := by
  have hlen : payload.length < 2 ^ 16 := h.trans_lt (by decide)
  unfold new
  rw [if_neg (Nat.not_lt.mpr h), Unsigned.ofNat?_of_lt hlen]
  refine ⟨_, rfl, rfl, ?_, ?_⟩
  · unfold slice
    simp only [(padded payload).property, h, if_true, take_padded h]
  · rw [verify_eq_true]
    exact ⟨rfl, rfl, rfl, h, rfl⟩

theorem new_of_lt (crc32c : Bytes → U32) (sequence : SequenceNumber) {payload : Bytes}
    (h : maxPayload < payload.length) :
    new crc32c sequence payload = .error (.payloadTooLarge payload.length) := if_pos h

/-! ## Encoding and decoding -/

theorem slices_layout (record : JournalRecord) (checksum : U32) :
    Codec.slice (record.layout checksum).val 0 2 = encodeUnsigned record.magic ∧
      Codec.slice (record.layout checksum).val 2 1 = [record.version] ∧
      Codec.slice (record.layout checksum).val 3 1 = [record.flags] ∧
      Codec.slice (record.layout checksum).val 4 8 = encodeUnsigned record.sequence ∧
      Codec.slice (record.layout checksum).val 12 2 = encodeUnsigned record.len ∧
      Codec.slice (record.layout checksum).val checksumOffset 4 = encodeUnsigned checksum ∧
      Codec.slice (record.layout checksum).val payloadOffset maxPayload = record.payload.val := by
  have hpayload := record.payload.property
  unfold layout checksumOffset payloadOffset
  simp [slice_skip, slice_head, slice_self hpayload, slice_cons_succ, slice_cons_one]

theorem decode_encode {record : JournalRecord} (h : record.verify crc32c = true) :
    decode crc32c record.encode = .ok record := by
  obtain ⟨hmagic, hversion, hflags, hlen, _⟩ := verify_eq_true.mp h
  obtain ⟨smagic, sversion, sflags, ssequence, slen, schecksum, spayload⟩ :=
    slices_layout record record.checksum
  unfold decode encode
  simp only [smagic, sversion, sflags, ssequence, slen, schecksum, spayload,
    decodeUnsigned_encodeUnsigned (by decide : 8 ∣ 16),
    decodeUnsigned_encodeUnsigned (by decide : 8 ∣ 64), decodeUnsigned_encodeUnsigned (by decide : 8 ∣ 32),
    decodeUnsigned_byte]
  rw [if_neg (not_not.mpr hmagic), if_neg (not_not.mpr hversion), if_neg (not_not.mpr hflags),
    if_neg (Nat.not_lt.mpr hlen), if_pos h]

/-- A decoded record is verified, and no other bytes encode it. -/
theorem decode_eq_ok {bytes : RecordBytes} {record : JournalRecord}
    (h : decode crc32c bytes = .ok record) : record.verify crc32c = true ∧ record.encode = bytes := by
  obtain ⟨b, hlen⟩ := bytes
  have hlen' : b.length = 64 := hlen
  unfold decode at h
  simp only at h
  split at h
  · simp at h
  split at h
  · simp at h
  split at h
  · simp at h
  split at h
  · simp at h
  split at h
  · next hverify =>
    obtain rfl := Except.ok.inj h
    refine ⟨hverify, Subtype.ext ?_⟩
    have hword (w offset : ℕ) (hw : 8 ∣ w) (hin : offset + w / 8 ≤ 64) :
        encodeUnsigned (decodeUnsigned w (Codec.slice b offset (w / 8))) = Codec.slice b offset (w / 8) :=
      encodeUnsigned_decodeUnsigned hw (length_slice (by omega))
    have hbyte (offset : ℕ) (hin : offset + 1 ≤ 64) :
        [decodeUnsigned 8 (Codec.slice b offset 1)] = Codec.slice b offset 1 :=
      (encodeUnsigned_byte (length_slice (by omega))).symm
    have hversion := hbyte 2 (by decide)
    have hflags := hbyte 3 (by decide)
    show encodeUnsigned (decodeUnsigned 16 (Codec.slice b 0 2)) ++
      ([decodeUnsigned 8 (Codec.slice b 2 1)] ++ [decodeUnsigned 8 (Codec.slice b 3 1)]) ++
      encodeUnsigned (decodeUnsigned 64 (Codec.slice b 4 8)) ++
      encodeUnsigned (decodeUnsigned 16 (Codec.slice b 12 2)) ++
      encodeUnsigned (decodeUnsigned 32 (Codec.slice b 14 4)) ++ Codec.slice b 18 46 = b
    rw [hversion, hflags, hword 16 0 (by decide) (by decide), hword 64 4 (by decide) (by decide),
      hword 16 12 (by decide) (by decide), hword 32 14 (by decide) (by decide)]
    simp only [← List.append_assoc, Nat.reduceDiv, slice_zero_append, Nat.reduceAdd]
    exact (congrArg (Codec.slice b 0) hlen'.symm).trans (slice_full b)
  · simp at h

end JournalRecord

end DeterministicExchange.Journal
