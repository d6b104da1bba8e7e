import DeterministicExchange.Journal.Durability

/-!
# Journal scan

The streaming scan of `hft-journal`. A reader hands out its bytes in pieces of
its own choice and may be interrupted; the scan refills a buffer for one record
until the input ends. What it returns depends on the bytes only.
-/

namespace DeterministicExchange.Journal.Scan

open Machine Codec

/-- What one `read` returns: the bytes it has written, none at the end of the input, or an error. -/
inductive ReadOutcome where
  | bytes (chunk : Bytes)
  | interrupted
  | failed
  deriving DecidableEq

inductive RecoveryError where
  | io
  | truncated (bytes : ℕ)
  | decode (offset : U64) (source : DecodeError)
  | sequence (expected received : SequenceNumber)
  | sequenceOverflow
  deriving DecidableEq

structure Recovery where
  records : U64
  nextSequence : U64
  deriving DecidableEq

/-- Where the refill of the buffer ends. -/
inductive Filled where
  | endOfInput
  | failed (error : RecoveryError)
  | record (bytes : Bytes)
  deriving DecidableEq

def saturatingMul (a b : U64) : U64 := (Unsigned.checkedMul a b).getD (Unsigned.maxValue 64)

section Scan

variable {R : Type} (read : R → ℕ → ReadOutcome × R)

/-- Reads until the buffer holds a record; `filled` is the part that has been read. -/
def fill : ℕ → R → Bytes → Run (Filled × R)
  | 0, _, _ => .error .diverged
  | fuel + 1, reader, filled =>
    if filled.length < recordSize then
      match read reader (recordSize - filled.length) with
      | (.bytes [], reader) =>
        if filled = [] then .ok (.endOfInput, reader) else .ok (.failed (.truncated filled.length), reader)
      | (.bytes chunk, reader) => fill fuel reader (filled ++ chunk)
      | (.interrupted, reader) => fill fuel reader filled
      | (.failed, reader) => .ok (.failed .io, reader)
    else .ok (.record filled, reader)

variable (crc32c : Bytes → U32)

/-- The record in the buffer, and the sequence and the count after it. -/
def acceptRecord (bytes : RecordBytes) (expected records : U64) : Except RecoveryError (U64 × U64) :=
  match JournalRecord.decode crc32c bytes with
  | .error source => .error (.decode (saturatingMul records (Fin.ofNat _ recordSize)) source)
  | .ok record =>
    if record.sequence ≠ expected then .error (.sequence expected record.sequence)
    else
      match Unsigned.checkedAdd expected 1, Unsigned.checkedAdd records 1 with
      | some expected, some records => .ok (expected, records)
      | _, _ => .error .sequenceOverflow

/-- The loop over the records. -/
def recoverLoop : ℕ → R → U64 → U64 → Run (Except RecoveryError Recovery)
  | 0, _, _, _ => .error .diverged
  | fuel + 1, reader, expected, records => do
    match ← fill read fuel reader [] with
    | (.endOfInput, _) => return .ok ⟨records, expected⟩
    | (.failed error, _) => return .error error
    | (.record bytes, reader) =>
      if hlen : bytes.length = recordSize then
        match acceptRecord crc32c ⟨bytes, hlen⟩ expected records with
        | .error error => return .error error
        | .ok (expected, records) => recoverLoop fuel reader expected records
      else .error .index

/-- Scans a journal; `fuel` bounds its reads. -/
def recover (fuel : ℕ) (reader : R) (firstSequence : U64) : Run (Except RecoveryError Recovery) :=
  recoverLoop read crc32c fuel reader firstSequence 0

end Scan

/-- The reader hands out the bytes in order, in pieces that fit and are not empty before the end, after any
number of interruptions. -/
inductive Delivers {R : Type} (read : R → ℕ → ReadOutcome × R) : R → Bytes → Prop where
  | intro {reader : R} {bytes : Bytes}
      (hfits : ∀ space chunk reader', 0 < space → read reader space = (.bytes chunk, reader') →
        chunk.length ≤ space ∧ chunk <+: bytes ∧ (chunk = [] → bytes = []))
      (hrest : ∀ space chunk rest reader', 0 < space → read reader space = (.bytes chunk, reader') →
        chunk ≠ [] → bytes = chunk ++ rest → Delivers read reader' rest)
      (hinterrupted : ∀ space reader', 0 < space → read reader space = (.interrupted, reader') →
        Delivers read reader' bytes)
      (hfailed : ∀ space, 0 < space → (read reader space).1 ≠ .failed) :
      Delivers read reader bytes

/-- What every scan of the bytes returns, given enough reads. -/
def Recovers (crc32c : Bytes → U32) (bytes : Bytes) (firstSequence : U64)
    (result : Except RecoveryError Recovery) : Prop :=
  ∀ (R : Type) (read : R → ℕ → ReadOutcome × R) (reader : R), Delivers read reader bytes →
    ∃ fuel, ∀ more, fuel ≤ more → recover read crc32c more reader firstSequence = .ok result

/-- The reader of a byte string in memory. -/
def readSlice (bytes : Bytes) (space : ℕ) : ReadOutcome × Bytes :=
  (.bytes (bytes.take space), bytes.drop space)

theorem delivers_readSlice (bytes : Bytes) : Delivers readSlice bytes bytes := by
  induction hlen : bytes.length using Nat.strong_induction_on generalizing bytes with
  | _ n ih =>
    refine .intro ?_ ?_ ?_ ?_
    · intro space chunk reader' hspace hread
      obtain ⟨hchunk, _⟩ := Prod.mk.inj hread
      obtain rfl := ReadOutcome.bytes.inj hchunk
      refine ⟨List.length_take_le _ _, List.take_prefix _ _, fun hempty ↦ ?_⟩
      rw [List.take_eq_nil_iff] at hempty
      exact hempty.resolve_left hspace.ne'
    · intro space chunk rest reader' _ hread hne hsplit
      obtain ⟨hchunk, rfl⟩ := Prod.mk.inj hread
      obtain rfl := ReadOutcome.bytes.inj hchunk
      obtain rfl : bytes.drop space = rest :=
        List.append_cancel_left ((List.take_append_drop space bytes).trans hsplit)
      refine ih _ ?_ _ rfl
      have hpos := List.length_pos_iff.mpr hne
      rw [List.length_take] at hpos
      rw [List.length_drop]
      omega
    · intro space reader' _ hread
      simp [readSlice] at hread
    · intro space _
      simp [readSlice]

/-! ## One record -/

section Fill

variable {R : Type} {read : R → ℕ → ReadOutcome × R}

theorem fill_succ_of_interrupted {fuel : ℕ} {reader reader' : R} {filled : Bytes}
    (hlt : filled.length < recordSize)
    (hread : read reader (recordSize - filled.length) = (.interrupted, reader')) :
    fill read (fuel + 1) reader filled = fill read fuel reader' filled := by
  rw [fill, if_pos hlt, hread]

theorem fill_succ_of_bytes {fuel : ℕ} {reader reader' : R} {filled chunk : Bytes}
    (hlt : filled.length < recordSize)
    (hread : read reader (recordSize - filled.length) = (.bytes chunk, reader')) (hne : chunk ≠ []) :
    fill read (fuel + 1) reader filled = fill read fuel reader' (filled ++ chunk) := by
  obtain ⟨byte, chunk, rfl⟩ := List.exists_cons_of_ne_nil hne
  rw [fill, if_pos hlt, hread]

theorem fill_succ_of_end {fuel : ℕ} {reader reader' : R} {filled : Bytes} (hlt : filled.length < recordSize)
    (hread : read reader (recordSize - filled.length) = (.bytes [], reader')) :
    fill read (fuel + 1) reader filled =
      .ok (if filled = [] then .endOfInput else .failed (.truncated filled.length), reader') := by
  rw [fill, if_pos hlt, hread]
  by_cases hempty : filled = []
  · simp only [if_pos hempty]
  · simp only [if_neg hempty]

theorem fill_succ_of_full {fuel : ℕ} {reader : R} {filled : Bytes} (hfull : filled.length = recordSize) :
    fill read (fuel + 1) reader filled = .ok (.record filled, reader) := by
  rw [fill, if_neg (by omega)]

/-- How a refill ends with `bytes` to come: with a whole record, or at the end of the input. -/
def FillEnds (read : R → ℕ → ReadOutcome × R) (filled bytes : Bytes) (outcome : Filled × R) : Prop :=
  if recordSize ≤ (filled ++ bytes).length then
    outcome.1 = .record ((filled ++ bytes).take recordSize) ∧
      Delivers read outcome.2 ((filled ++ bytes).drop recordSize)
  else if filled ++ bytes = [] then outcome.1 = .endOfInput
  else outcome.1 = .failed (.truncated (filled ++ bytes).length)

/-- A refill collects the bytes that the reader has to deliver, whatever its pieces are. -/
theorem fill_of_delivers {reader : R} {bytes : Bytes} (h : Delivers read reader bytes) (filled : Bytes)
    (hle : filled.length ≤ recordSize) :
    ∃ outcome fuel, (∀ more, fuel ≤ more → fill read more reader filled = .ok outcome) ∧
      FillEnds read filled bytes outcome := by
  induction h generalizing filled with
  | @intro reader bytes hfits hrest hinterrupted hfailed ihrest ihinterrupted =>
    obtain hfull | hlt := hle.eq_or_lt
    · refine ⟨(.record filled, reader), 1, fun more hmore ↦ ?_, ?_⟩
      · obtain ⟨more, rfl⟩ := Nat.exists_eq_add_of_le' hmore
        exact fill_succ_of_full hfull
      · unfold FillEnds
        rw [if_pos (by rw [List.length_append]; omega), List.take_left' hfull, List.drop_left' hfull]
        exact ⟨rfl, .intro hfits hrest hinterrupted hfailed⟩
    have hspace : 0 < recordSize - filled.length := by omega
    rcases hread : read reader (recordSize - filled.length) with ⟨answer, reader'⟩
    cases answer with
    | failed => exact absurd (congrArg Prod.fst hread) (hfailed _ hspace)
    | interrupted =>
      obtain ⟨outcome, fuel, hfill, hends⟩ := ihinterrupted _ _ hspace hread filled hle
      refine ⟨outcome, fuel + 1, fun more hmore ↦ ?_, hends⟩
      obtain ⟨more, rfl⟩ := Nat.exists_eq_add_of_le' (Nat.le_of_add_left_le hmore)
      rw [fill_succ_of_interrupted hlt hread]
      exact hfill more (Nat.le_of_add_le_add_right hmore)
    | bytes chunk =>
      obtain ⟨hchunk, ⟨rest, rfl⟩, hend⟩ := hfits _ _ _ hspace hread
      by_cases hne : chunk = []
      · subst hne
        obtain rfl : rest = [] := hend rfl
        refine ⟨(if filled = [] then .endOfInput else .failed (.truncated filled.length), reader'), 1,
          fun more hmore ↦ ?_, ?_⟩
        · obtain ⟨more, rfl⟩ := Nat.exists_eq_add_of_le' hmore
          exact fill_succ_of_end hlt hread
        · unfold FillEnds
          rw [List.append_nil, List.append_nil, if_neg (not_le.mpr hlt)]
          split <;> rfl
      · have hlength : (filled ++ chunk).length ≤ recordSize := by
          rw [List.length_append]
          omega
        obtain ⟨outcome, fuel, hfill, hends⟩ := ihrest _ _ _ _ hspace hread hne rfl _ hlength
        refine ⟨outcome, fuel + 1, fun more hmore ↦ ?_, ?_⟩
        · obtain ⟨more, rfl⟩ := Nat.exists_eq_add_of_le' (Nat.le_of_add_left_le hmore)
          rw [fill_succ_of_bytes hlt hread hne]
          exact hfill more (Nat.le_of_add_le_add_right hmore)
        · rwa [FillEnds, List.append_assoc] at hends

end Fill

/-! ## The whole scan -/

/-- The scan of a byte string with `count` whole records. -/
def scanBytes (crc32c : Bytes → U32) : ℕ → Bytes → U64 → U64 → Except RecoveryError Recovery
  | 0, bytes, expected, records =>
    if bytes = [] then .ok ⟨records, expected⟩ else .error (.truncated bytes.length)
  | count + 1, bytes, expected, records =>
    if hlen : (bytes.take recordSize).length = recordSize then
      match acceptRecord crc32c ⟨bytes.take recordSize, hlen⟩ expected records with
      | .error error => .error error
      | .ok (expected, records) => scanBytes crc32c count (bytes.drop recordSize) expected records
    else .error (.truncated bytes.length)

section Loop

variable {crc32c : Bytes → U32} {R : Type} {read : R → ℕ → ReadOutcome × R}

/-- The streaming scan returns what the scan of the byte string does. -/
theorem recoverLoop_of_delivers {count : ℕ} {reader : R} {bytes : Bytes} (h : Delivers read reader bytes)
    (hcount : bytes.length / recordSize = count) (expected records : U64) :
    ∃ fuel, ∀ more, fuel ≤ more →
      recoverLoop read crc32c more reader expected records =
        .ok (scanBytes crc32c count bytes expected records) := by
  have hsize : 0 < recordSize := by decide
  induction count generalizing reader bytes expected records with
  | zero =>
    obtain ⟨⟨filled, reader'⟩, fuel, hfill, hends⟩ := fill_of_delivers h [] (Nat.zero_le _)
    rw [FillEnds, List.nil_append] at hends
    have hshort : bytes.length < recordSize := by
      rcases Nat.div_eq_zero_iff.mp hcount with hzero | hlt
      · exact absurd hzero hsize.ne'
      · exact hlt
    rw [if_neg (not_le.mpr hshort)] at hends
    refine ⟨fuel + 1, fun more hmore ↦ ?_⟩
    obtain ⟨more, rfl⟩ := Nat.exists_eq_add_of_le' (Nat.le_of_add_left_le hmore)
    rw [recoverLoop, hfill more (Nat.le_of_add_le_add_right hmore), scanBytes]
    by_cases hempty : bytes = []
    · rw [if_pos hempty] at hends ⊢
      obtain rfl : filled = .endOfInput := hends
      rfl
    · rw [if_neg hempty] at hends ⊢
      obtain rfl : filled = .failed (.truncated bytes.length) := hends
      rfl
  | succ count ih =>
    obtain ⟨⟨filled, reader'⟩, fuel, hfill, hends⟩ := fill_of_delivers h [] (Nat.zero_le _)
    rw [FillEnds, List.nil_append] at hends
    have hlong : recordSize ≤ bytes.length := by
      by_contra hshort
      rw [Nat.div_eq_of_lt (not_le.mp hshort)] at hcount
      cases hcount
    have hlen : (bytes.take recordSize).length = recordSize := by
      rw [List.length_take]
      exact Nat.min_eq_left hlong
    rw [if_pos hlong] at hends
    obtain ⟨rfl, hdelivers⟩ : filled = .record (bytes.take recordSize) ∧ _ := hends
    have hstep (more : ℕ) (hmore : fuel ≤ more) : recoverLoop read crc32c (more + 1) reader expected records =
        match acceptRecord crc32c ⟨bytes.take recordSize, hlen⟩ expected records with
        | .error error => .ok (.error error)
        | .ok (expected, records) => recoverLoop read crc32c more reader' expected records := by
      rw [recoverLoop, hfill more hmore]
      simp only [Run.ok_bind, hlen, dite_true]
      rfl
    have hscan : scanBytes crc32c (count + 1) bytes expected records =
        match acceptRecord crc32c ⟨bytes.take recordSize, hlen⟩ expected records with
        | .error error => .error error
        | .ok (expected, records) => scanBytes crc32c count (bytes.drop recordSize) expected records := by
      rw [scanBytes, dif_pos hlen]
    rw [hscan]
    cases haccept : acceptRecord crc32c ⟨bytes.take recordSize, hlen⟩ expected records with
    | error error =>
      refine ⟨fuel + 1, fun more hmore ↦ ?_⟩
      obtain ⟨more, rfl⟩ := Nat.exists_eq_add_of_le' (Nat.le_of_add_left_le hmore)
      rw [hstep more (Nat.le_of_add_le_add_right hmore), haccept]
    | ok next =>
      obtain ⟨expected', records'⟩ := next
      have hcount' : (bytes.drop recordSize).length / recordSize = count := by
        rw [Nat.div_eq_sub_div hsize hlong] at hcount
        rw [List.length_drop, Nat.add_right_cancel hcount]
      obtain ⟨more', hloop⟩ := ih hdelivers hcount' expected' records'
      refine ⟨max fuel more' + 1, fun more hmore ↦ ?_⟩
      obtain ⟨more, rfl⟩ := Nat.exists_eq_add_of_le' (Nat.le_of_add_left_le hmore)
      have hmax : max fuel more' ≤ more := Nat.le_of_add_le_add_right hmore
      rw [hstep more ((Nat.le_max_left _ _).trans hmax), haccept]
      exact hloop more ((Nat.le_max_right _ _).trans hmax)

end Loop

/-! ## Contiguous journals -/

/-- Records that decode and are numbered from `first` on. -/
structure Contiguous (crc32c : Bytes → U32) (records : List JournalRecord) (first : ℕ) : Prop where
  decodes : ∀ record ∈ records, JournalRecord.decode crc32c record.encode = .ok record
  numbered : records.map (fun record ↦ record.sequence.val) = List.range' first records.length

section Journals

variable {crc32c : Bytes → U32} {records : List JournalRecord} {record : JournalRecord} {first : ℕ}

theorem contiguous_cons : Contiguous crc32c (record :: records) first ↔
    JournalRecord.decode crc32c record.encode = .ok record ∧ record.sequence.val = first ∧
      Contiguous crc32c records (first + 1) := by
  constructor
  · rintro ⟨hdecodes, hnumbered⟩
    obtain ⟨hrecord, hrecords⟩ := List.forall_mem_cons.mp hdecodes
    rw [List.map_cons, List.length_cons, List.range'_succ] at hnumbered
    obtain ⟨hfirst, hrest⟩ := List.cons.inj hnumbered
    exact ⟨hrecord, hfirst, hrecords, hrest⟩
  · rintro ⟨hrecord, hfirst, hrecords, hrest⟩
    refine ⟨List.forall_mem_cons.mpr ⟨hrecord, hrecords⟩, ?_⟩
    rw [List.map_cons, List.length_cons, List.range'_succ, hfirst, hrest]

theorem Contiguous.take (h : Contiguous crc32c records first) (n : ℕ) :
    Contiguous crc32c (records.take n) first := by
  refine ⟨fun record hmem ↦ h.decodes record (List.mem_of_mem_take hmem), ?_⟩
  rw [List.map_take, h.numbered, List.length_take]
  apply List.ext_getElem <;> simp

theorem acceptRecord_eq_ok {bytes : RecordBytes} {expected counted expected' counted' : U64} :
    acceptRecord crc32c bytes expected counted = .ok (expected', counted') ↔
      ∃ record, JournalRecord.decode crc32c bytes = .ok record ∧ record.sequence = expected ∧
        expected.val + 1 = expected'.val ∧ counted.val + 1 = counted'.val := by
  unfold acceptRecord
  cases hdecode : JournalRecord.decode crc32c bytes with
  | error source => simp
  | ok record =>
    by_cases hsequence : record.sequence = expected
    · simp only [ne_eq, hsequence, not_true_eq_false, if_false]
      cases hexpected : Unsigned.checkedAdd expected 1 with
      | none =>
        have hoverflow := Unsigned.checkedAdd_eq_none.mp hexpected
        simp only [reduceCtorEq, false_iff]
        rintro ⟨_, _, _, hnext, _⟩
        exact absurd (hnext ▸ expected'.isLt) (not_lt.mpr hoverflow)
      | some next =>
        have hnext := Unsigned.checkedAdd_eq_some.mp hexpected
        cases hcounted : Unsigned.checkedAdd counted 1 with
        | none =>
          have hoverflow := Unsigned.checkedAdd_eq_none.mp hcounted
          simp only [reduceCtorEq, false_iff]
          rintro ⟨_, _, _, _, hmore⟩
          exact absurd (hmore ▸ counted'.isLt) (not_lt.mpr hoverflow)
        | some more =>
          have hmore := Unsigned.checkedAdd_eq_some.mp hcounted
          simp only [Except.ok.injEq, Prod.mk.injEq]
          constructor
          · rintro ⟨rfl, rfl⟩
            exact ⟨record, rfl, hsequence, hnext, hmore⟩
          · rintro ⟨_, _, _, hnext', hmore'⟩
            exact ⟨Fin.ext (hnext.symm.trans hnext'), Fin.ext (hmore.symm.trans hmore')⟩
    · simp only [ne_eq, hsequence, not_false_eq_true, if_true, reduceCtorEq, false_iff]
      rintro ⟨other, hother, rfl, _⟩
      exact hsequence (congrArg _ (Except.ok.inj hother))

/-- A contiguous journal is accepted, up to the bytes that are no whole record. -/
theorem scanBytes_journalBytes {tail : Bytes} {expected counted : U64}
    (h : Contiguous crc32c records expected.val) (hexpected : expected.val + records.length < 2 ^ 64)
    (hcounted : counted.val + records.length < 2 ^ 64) :
    ∃ recovery : Recovery, recovery.records.val = counted.val + records.length ∧
      recovery.nextSequence.val = expected.val + records.length ∧
      scanBytes crc32c records.length (journalBytes records ++ tail) expected counted =
        if tail = [] then .ok recovery else .error (.truncated tail.length) := by
  induction records generalizing expected counted with
  | nil => exact ⟨⟨counted, expected⟩, rfl, rfl, rfl⟩
  | cons record records ih =>
    obtain ⟨hdecode, hsequence, hrest⟩ := contiguous_cons.mp h
    rw [List.length_cons] at hexpected hcounted ⊢
    obtain ⟨next, hnext⟩ : ∃ next : U64, expected.val + 1 = next.val := ⟨⟨expected.val + 1, by omega⟩, rfl⟩
    obtain ⟨more, hmore⟩ : ∃ more : U64, counted.val + 1 = more.val := ⟨⟨counted.val + 1, by omega⟩, rfl⟩
    rw [hnext] at hrest
    have hcounted' : more.val + records.length < 2 ^ 64 := by omega
    obtain ⟨recovery, hrecords, hlast, hscan⟩ := ih hrest (by omega) hcounted'
    refine ⟨recovery, by omega, by omega, ?_⟩
    have hbytes : journalBytes (record :: records) ++ tail =
        record.encode.val ++ (journalBytes records ++ tail) := by
      rw [← List.append_assoc]
      rfl
    have htake : (journalBytes (record :: records) ++ tail).take recordSize = record.encode.val := by
      rw [hbytes, List.take_left' record.encode.property]
    have hdrop : (journalBytes (record :: records) ++ tail).drop recordSize =
        journalBytes records ++ tail := by
      rw [hbytes, List.drop_left' record.encode.property]
    have haccept := acceptRecord_eq_ok.mpr ⟨record, hdecode, Fin.ext hsequence, hnext, hmore⟩
    simp only [scanBytes, htake, hdrop, record.encode.property, dite_true, Subtype.coe_eta, haccept]
    exact hscan

/-- What is accepted is a contiguous journal. -/
theorem of_scanBytes_eq_ok {count : ℕ} {bytes : Bytes} {expected counted : U64} {recovery : Recovery}
    (h : scanBytes crc32c count bytes expected counted = .ok recovery) :
    ∃ records, records.length = count ∧ bytes = journalBytes records ∧
      Contiguous crc32c records expected.val ∧ recovery.records.val = counted.val + count ∧
        recovery.nextSequence.val = expected.val + count := by
  induction count generalizing bytes expected counted with
  | zero =>
    rw [scanBytes] at h
    split at h
    · next hempty =>
      obtain rfl := Except.ok.inj h
      exact ⟨[], rfl, hempty, ⟨by simp, rfl⟩, rfl, rfl⟩
    · cases h
  | succ count ih =>
    rw [scanBytes] at h
    split at h
    · next hlen =>
      split at h
      · cases h
      next expected' counted' haccept =>
      obtain ⟨record, hdecode, hsequence, hnext, hmore⟩ := acceptRecord_eq_ok.mp haccept
      obtain ⟨records, hlength, hrest, hcontiguous, hrecords, hlast⟩ := ih h
      obtain ⟨hverify, hencode⟩ := JournalRecord.decode_eq_ok hdecode
      refine ⟨record :: records, congrArg (· + 1) hlength, ?_, ?_, by omega, by omega⟩
      · have hbytes : journalBytes (record :: records) = record.encode.val ++ journalBytes records := rfl
        rw [hbytes, ← hrest, hencode, List.take_append_drop]
      · rw [contiguous_cons, hnext]
        exact ⟨JournalRecord.decode_encode hverify, congrArg Fin.val hsequence, hcontiguous⟩
    · cases h

end Journals

section Recovers

variable {crc32c : Bytes → U32} {bytes : Bytes} {firstSequence : U64} {result : Except RecoveryError Recovery}

/-- All scans of a byte string return the same result. -/
theorem recovers_iff : Recovers crc32c bytes firstSequence result ↔
    result = scanBytes crc32c (bytes.length / recordSize) bytes firstSequence 0 := by
  constructor
  · intro h
    obtain ⟨fuel, hrecover⟩ := h _ readSlice bytes (delivers_readSlice bytes)
    obtain ⟨fuel', hloop⟩ := recoverLoop_of_delivers (delivers_readSlice bytes) rfl firstSequence 0
    exact Except.ok.inj ((hrecover _ (Nat.le_max_left fuel fuel')).symm.trans
      (hloop _ (Nat.le_max_right fuel fuel')))
  · rintro rfl R read reader hdelivers
    exact recoverLoop_of_delivers hdelivers rfl firstSequence 0

theorem recovers_ok_iff (n : ℕ) :
    (∃ recovery : Recovery, Recovers crc32c bytes firstSequence (.ok recovery) ∧ recovery.records.val = n ∧
      recovery.nextSequence.val = firstSequence.val + n) ↔
    ∃ records : List JournalRecord, records.length = n ∧ bytes = journalBytes records ∧
      Contiguous crc32c records firstSequence.val ∧ firstSequence.val + n < 2 ^ 64 := by
  constructor
  · rintro ⟨recovery, hrecovers, hcount, hnext⟩
    obtain ⟨records, hlength, hbytes, hcontiguous, hrecords, _⟩ :=
      of_scanBytes_eq_ok (recovers_iff.mp hrecovers).symm
    have hzero : (0 : U64).val = 0 := rfl
    exact ⟨records, by omega, hbytes, hcontiguous, hnext ▸ recovery.nextSequence.isLt⟩
  · rintro ⟨records, rfl, rfl, hcontiguous, hlt⟩
    have hzero : (0 : U64).val = 0 := rfl
    obtain ⟨recovery, hcount, hnext, hscan⟩ :=
      scanBytes_journalBytes hcontiguous hlt (show (0 : U64).val + records.length < 2 ^ 64 by omega)
    rw [List.append_nil, if_pos rfl] at hscan
    refine ⟨recovery, recovers_iff.mpr ?_, by omega, hnext⟩
    rw [length_journalBytes, Nat.mul_div_cancel_left _ (by decide), hscan]

theorem take_journalBytes (records : List JournalRecord) {n : ℕ} (h : n ≤ records.length) :
    (journalBytes records).take (recordSize * n) = journalBytes (records.take n) := by
  have hlen : (journalBytes (records.take n)).length = recordSize * n := by
    rw [length_journalBytes, List.length_take_of_le h]
  conv_lhs => rw [← List.take_append_drop n records, journalBytes_append]
  exact List.take_left' hlen

/-- A journal that is cut off is accepted up to the cut, or refused for the bytes behind its last whole
record. -/
theorem recovers_take {records : List JournalRecord} (h : Contiguous crc32c records firstSequence.val)
    (hlt : firstSequence.val + records.length < 2 ^ 64) {p : ℕ} (hp : p ≤ (journalBytes records).length) :
    (p % recordSize = 0 → ∃ recovery : Recovery,
      Recovers crc32c ((journalBytes records).take p) firstSequence (.ok recovery) ∧
        recovery.records.val = p / recordSize) ∧
    (p % recordSize ≠ 0 →
      Recovers crc32c ((journalBytes records).take p) firstSequence
        (.error (.truncated (p % recordSize)))) := by
  have hsplit : recordSize * (p / recordSize) + p % recordSize = p := Nat.div_add_mod p recordSize
  have hcut : p / recordSize ≤ records.length := by
    rw [length_journalBytes] at hp
    exact Nat.div_le_of_le_mul hp
  have htaken : (records.take (p / recordSize)).length = p / recordSize := List.length_take_of_le hcut
  have hbytes : (journalBytes records).take p = journalBytes (records.take (p / recordSize)) ++
      ((journalBytes records).drop (recordSize * (p / recordSize))).take (p % recordSize) := by
    rw [← take_journalBytes records hcut, ← List.take_add, hsplit]
  have htail : (((journalBytes records).drop (recordSize * (p / recordSize))).take (p % recordSize)).length =
      p % recordSize := by
    rw [List.length_take, List.length_drop]
    omega
  have hcount : ((journalBytes records).take p).length / recordSize =
      (records.take (p / recordSize)).length := by
    rw [List.length_take_of_le hp, htaken]
  have hzero : (0 : U64).val = 0 := rfl
  have hfits : firstSequence.val + (records.take (p / recordSize)).length < 2 ^ 64 := by omega
  have hcounted : (0 : U64).val + (records.take (p / recordSize)).length < 2 ^ 64 := by omega
  obtain ⟨recovery, hrecords, _, hscan⟩ := scanBytes_journalBytes (h.take _) hfits hcounted
  rw [← hbytes, ← hcount, htail] at hscan
  constructor
  · intro hwhole
    rw [if_pos (List.length_eq_zero_iff.mp (htail.trans hwhole))] at hscan
    exact ⟨recovery, recovers_iff.mpr hscan.symm, by omega⟩
  · intro hpart
    rw [if_neg fun hempty ↦ hpart (htail.symm.trans (congrArg List.length hempty))] at hscan
    exact recovers_iff.mpr hscan.symm

end Recovers

end DeterministicExchange.Journal.Scan
