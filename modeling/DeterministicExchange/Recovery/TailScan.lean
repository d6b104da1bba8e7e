import DeterministicExchange.Journal.Scan
import DeterministicExchange.Recovery.Replay

/-!
# Two scanners of a journal

The streaming scan accepts exactly the contiguous journals, however its reader
cuts them up. It accepts every tail that the recovery from a snapshot accepts.
-/

namespace DeterministicExchange.Recovery

open Machine Codec Journal

variable {crc32c : Bytes → U32} {sha256 : Bytes → Digest}
  {ACCOUNTS RISK_ORDERS LEVELS ORDERS_PER_LEVEL REPORTS : ℕ}

theorem length_chunksExact (len count : ℕ) (bytes : Bytes) :
    (chunksExact len count bytes).length = count := by
  induction count generalizing bytes with
  | zero => rfl
  | succ count ih => rw [chunksExact, List.length_cons, ih]

/-- After every record that is replayed there is a next sequence. -/
theorem fits_of_replay {index : ℕ} {expected : U64} {chunks : List Bytes}
    {gateway gateway' : Gateway ACCOUNTS RISK_ORDERS LEVELS ORDERS_PER_LEVEL} {reports : ReportBuffer REPORTS}
    (h : replay crc32c index expected chunks gateway reports = .ok (.ok gateway')) :
    expected.val + chunks.length < 2 ^ 64 := by
  induction chunks generalizing index expected gateway reports with
  | nil => exact expected.isLt
  | cons chunk chunks ih =>
    unfold replay at h
    split at h
    · simp at h
    obtain ⟨_, _, h⟩ := Run.bind_eq_ok.mp h
    split at h
    · simp at h
    split at h
    · simp at h
    next successor hsuccessor =>
    have hrest := ih h
    have hnext : expected.val + 1 = successor.val := Unsigned.checkedAdd_eq_some.mp hsuccessor
    rw [List.length_cons]
    omega

/-- A tail that is replayed is a contiguous journal with a next sequence. -/
theorem contiguous_of_recover {snapshot tail : Bytes}
    {gateway : Gateway ACCOUNTS RISK_ORDERS LEVELS ORDERS_PER_LEVEL}
    (h : recoverSnapshotAndTail crc32c sha256 REPORTS snapshot tail = .ok (.ok gateway)) :
    ∃ (decoded : DecodedSnapshot ACCOUNTS RISK_ORDERS LEVELS ORDERS_PER_LEVEL) (records : List JournalRecord)
      (commands : List Command),
      decodeSnapshot sha256 snapshot = .ok (.ok decoded) ∧ tail = journalBytes records ∧
      commands.length = records.length ∧ Gateway.History REPORTS decoded.gateway commands gateway ∧
      Scan.Contiguous crc32c records (decoded.appliedSequence.val + 1) ∧
      decoded.appliedSequence.val + 1 + records.length < 2 ^ 64 := by
  obtain ⟨decoded, records, commands, hdecode, rfl, hcarries, hnumbers, hhistory⟩ :=
    exists_history_of_recover h
  refine ⟨decoded, records, commands, hdecode, rfl, hcarries.length_eq.symm, hhistory, ⟨?_, hnumbers⟩, ?_⟩
  · have hdecodes : (∀ record ∈ records, JournalRecord.decode crc32c record.encode = .ok record) ∧ _ :=
      (List.forall₂_and_left records commands).mp
        (hcarries.imp fun _ _ hcarried ↦ ⟨JournalRecord.decode_encode hcarried.verified, hcarried⟩)
    exact hdecodes.1
  · unfold recoverSnapshotAndTail at h
    rw [hdecode] at h
    simp only [Run.ok_bind] at h
    split at h
    · simp at h
    split at h
    · simp at h
    next expected hadd =>
    have hfits := fits_of_replay h
    have hexpected : decoded.appliedSequence.val + 1 = expected.val := Unsigned.checkedAdd_eq_some.mp hadd
    rw [length_chunksExact, length_journalBytes, Nat.mul_div_cancel_left _ (by decide)] at hfits
    omega

/-- Records survive their encoding, and the streaming scan accepts exactly the contiguous journals: whole, cut
at a record, or as the tail of a snapshot. -/
theorem journal_scan (crc32c : Bytes → U32) (sha256 : Bytes → Digest)
    (ACCOUNTS RISK_ORDERS LEVELS ORDERS_PER_LEVEL REPORTS : ℕ) :
    (∀ sequence payload record, JournalRecord.new crc32c sequence payload = .ok record →
      JournalRecord.decode crc32c record.encode = .ok record) ∧
    (∀ bytes record, JournalRecord.decode crc32c bytes = .ok record →
      record.encode = bytes ∧ record.slice.isSome = true) ∧
    (∀ bytes firstSequence, ∃! result, Scan.Recovers crc32c bytes firstSequence result) ∧
    (∀ bytes firstSequence n, (∃ recovery : Scan.Recovery,
        Scan.Recovers crc32c bytes firstSequence (.ok recovery) ∧ recovery.records.val = n ∧
          recovery.nextSequence.val = firstSequence.val + n) ↔
      ∃ records : List JournalRecord, records.length = n ∧ bytes = journalBytes records ∧
        Scan.Contiguous crc32c records firstSequence.val ∧ firstSequence.val + n < 2 ^ 64) ∧
    (∀ records (firstSequence : U64), Scan.Contiguous crc32c records firstSequence.val →
      firstSequence.val + records.length < 2 ^ 64 → ∀ p ≤ (journalBytes records).length,
        (p % recordSize = 0 → ∃ recovery : Scan.Recovery,
          Scan.Recovers crc32c ((journalBytes records).take p) firstSequence (.ok recovery) ∧
            recovery.records.val = p / recordSize) ∧
        (p % recordSize ≠ 0 → Scan.Recovers crc32c ((journalBytes records).take p) firstSequence
          (.error (.truncated (p % recordSize))))) ∧
    ∀ snapshot tail (gateway : Gateway ACCOUNTS RISK_ORDERS LEVELS ORDERS_PER_LEVEL),
      recoverSnapshotAndTail crc32c sha256 REPORTS snapshot tail = .ok (.ok gateway) →
      ∃ (decoded : DecodedSnapshot ACCOUNTS RISK_ORDERS LEVELS ORDERS_PER_LEVEL) (firstSequence : U64)
        (commands : List Command) (recovery : Scan.Recovery),
        decodeSnapshot sha256 snapshot = .ok (.ok decoded) ∧
        firstSequence.val = decoded.appliedSequence.val + 1 ∧
        Gateway.History REPORTS decoded.gateway commands gateway ∧
        Scan.Recovers crc32c tail firstSequence (.ok recovery) ∧ recovery.records.val = commands.length := by
  refine ⟨?_, ?_, ?_, fun bytes firstSequence n ↦ Scan.recovers_ok_iff n, ?_, ?_⟩
  · intro sequence payload record hnew
    by_cases hlength : payload.length ≤ maxPayload
    · obtain ⟨record', hnew', _, _, hverify⟩ := JournalRecord.new_of_le crc32c sequence hlength
      obtain rfl := Except.ok.inj (hnew.symm.trans hnew')
      exact JournalRecord.decode_encode hverify
    · rw [JournalRecord.new_of_lt crc32c sequence (not_le.mp hlength)] at hnew
      cases hnew
  · intro bytes record hdecode
    obtain ⟨hverify, hencode⟩ := JournalRecord.decode_eq_ok hdecode
    refine ⟨hencode, ?_⟩
    unfold JournalRecord.slice
    rw [record.payload.property, if_pos (JournalRecord.verify_eq_true.mp hverify).2.2.2.1]
    rfl
  · intro bytes firstSequence
    exact ⟨_, Scan.recovers_iff.mpr rfl, fun result h ↦ Scan.recovers_iff.mp h⟩
  · intro records firstSequence hcontiguous hlt p hp
    exact Scan.recovers_take hcontiguous hlt hp
  · intro snapshot tail gateway h
    obtain ⟨decoded, records, commands, hdecode, rfl, hlength, hhistory, hcontiguous, hlt⟩ :=
      contiguous_of_recover h
    obtain ⟨firstSequence, hfirst⟩ : ∃ firstSequence : U64,
        firstSequence.val = decoded.appliedSequence.val + 1 := ⟨⟨_, by omega⟩, rfl⟩
    rw [← hfirst] at hcontiguous hlt
    obtain ⟨recovery, hrecovers, hcount, _⟩ :=
      (Scan.recovers_ok_iff records.length).mpr ⟨records, rfl, rfl, hcontiguous, hlt⟩
    exact ⟨decoded, firstSequence, commands, recovery, hdecode, hfirst, hhistory, hrecovers,
      hcount.trans hlength.symm⟩

end DeterministicExchange.Recovery
