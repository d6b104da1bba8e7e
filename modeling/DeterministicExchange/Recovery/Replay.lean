import DeterministicExchange.Gateway.Frame
import DeterministicExchange.Gateway.History
import DeterministicExchange.Journal.Durability
import DeterministicExchange.Recovery.RoundTrip

/-!
# Recovery from a snapshot and a journal tail

The replay loop of `hft-recovery`. It takes the records of the tail in turn,
checks their numbers against the snapshot and against their payloads, and
processes each payload as a frame. Business rejections are part of the history.
-/

namespace DeterministicExchange.Recovery

open Machine Codec Wire Journal Book

inductive RecoveryError where
  | snapshot (error : SnapshotError)
  | truncatedJournal (bytes : ℕ)
  | journalDecode (offset : ℕ) (source : DecodeError)
  | journalSequence (expected received : U64)
  | payloadSequence (journal payload : U64)
  | payloadParse (error : ParseError)
  | gateway (error : GatewayError)
  | sequenceOverflow
  deriving DecidableEq

/-- The first `count` chunks of `len` bytes. -/
def chunksExact (len : ℕ) : ℕ → Bytes → List Bytes
  | 0, _ => []
  | count + 1, bytes => bytes.take len :: chunksExact len count (bytes.drop len)

section Replay

variable (crc32c : Bytes → U32) {ACCOUNTS RISK_ORDERS LEVELS ORDERS_PER_LEVEL REPORTS : ℕ}

/-- The record in a chunk, if it has the expected sequence. -/
def readRecord (index : ℕ) (expected : U64) (chunk : Bytes) : Except RecoveryError (JournalRecord × Bytes) :=
  if hlen : chunk.length = recordSize then
    match JournalRecord.decode crc32c ⟨chunk, hlen⟩ with
    | .error source => .error (.journalDecode (index * recordSize) source)
    | .ok record =>
      if record.sequence ≠ expected then .error (.journalSequence expected record.sequence)
      else
        match record.slice with
        | none => .error (.journalDecode (index * recordSize) (.payloadLength (Unsigned.maxValue 16)))
        | some payload => .ok (record, payload)
  else .error (.truncatedJournal chunk.length)

/-- Processes the payload of a record. Only errors beyond business stop the recovery. -/
def applyPayload (gateway : Gateway ACCOUNTS RISK_ORDERS LEVELS ORDERS_PER_LEVEL)
    (reports : ReportBuffer REPORTS) (record : JournalRecord) (payload : Bytes) :
    Run (Except RecoveryError (Gateway ACCOUNTS RISK_ORDERS LEVELS ORDERS_PER_LEVEL ×
      ReportBuffer REPORTS)) := do
  match ← parseMessage payload with
  | .error error => return .error (.payloadParse error)
  | .ok message =>
    let sequence ← message.sequence
    if sequence ≠ record.sequence then return .error (.payloadSequence record.sequence sequence)
    else
      match ← gateway.processFrame payload reports with
      | (.ok _, gateway, reports) | (.error (.risk _), gateway,
        reports) | (.error (.book _), gateway, reports) =>
        return .ok (gateway, reports)
      | (.error error, _, _) => return .error (.gateway error)

/-- The loop over the chunks of the tail. -/
def replay : ℕ → U64 → List Bytes → Gateway ACCOUNTS RISK_ORDERS LEVELS ORDERS_PER_LEVEL →
    ReportBuffer REPORTS → Run (Except RecoveryError (Gateway ACCOUNTS RISK_ORDERS LEVELS ORDERS_PER_LEVEL))
  | _, _, [], gateway, _ => .ok (.ok gateway)
  | index, expected, chunk :: chunks, gateway, reports =>
    match readRecord crc32c index expected chunk with
    | .error error => .ok (.error error)
    | .ok (record, payload) => do
      match ← applyPayload gateway reports record payload with
      | .error error => return .error error
      | .ok (gateway, reports) =>
        match Unsigned.checkedAdd expected 1 with
        | none => return .error .sequenceOverflow
        | some expected => replay (index + 1) expected chunks gateway reports

/-- Restores a snapshot and applies the records of the tail. -/
def recoverSnapshotAndTail (sha256 : Bytes → Digest) (REPORTS : ℕ) (snapshot tail : Bytes) :
    Run (Except RecoveryError (Gateway ACCOUNTS RISK_ORDERS LEVELS ORDERS_PER_LEVEL)) := do
  match ← decodeSnapshot sha256 snapshot with
  | .error error => return .error (.snapshot error)
  | .ok decoded =>
    if tail.length % recordSize ≠ 0 then return .error (.truncatedJournal (tail.length % recordSize))
    else
      match Unsigned.checkedAdd decoded.appliedSequence 1 with
      | none => return .error .sequenceOverflow
      | some expected =>
        replay crc32c 0 expected (chunksExact recordSize (tail.length / recordSize) tail) decoded.gateway
          (ReportBuffer.new REPORTS)

end Replay

/-! ## Chunks -/

theorem chunksExact_journalBytes (records : List JournalRecord) :
    chunksExact recordSize records.length (journalBytes records) = records.map fun record ↦
      record.encode.val := by
  induction records with
  | nil => rfl
  | cons record records ih =>
    have hbytes : journalBytes (record :: records) = record.encode.val ++ journalBytes records :=
      List.flatten_cons
    have hlen : recordSize = record.encode.val.length := record.encode.property.symm
    have htake : (record.encode.val ++ journalBytes records).take recordSize = record.encode.val :=
      List.take_left' hlen.symm
    have hdrop : (record.encode.val ++ journalBytes records).drop recordSize = journalBytes records :=
      List.drop_left' hlen.symm
    rw [List.length_cons, chunksExact, hbytes, htake, hdrop, ih, List.map_cons]

/-- Bytes of a whole number of records are their chunks put together. -/
theorem flatten_chunksExact {len : ℕ} (count : ℕ) {bytes : Bytes} (h : bytes.length = len * count) :
    (chunksExact len count bytes).flatten = bytes := by
  induction count generalizing bytes with
  | zero =>
    rw [Nat.mul_zero, List.length_eq_zero_iff] at h
    rw [h]
    rfl
  | succ count ih =>
    have hdrop : (bytes.drop len).length = len * count := by
      rw [List.length_drop, h, Nat.mul_succ, Nat.add_sub_cancel]
    rw [chunksExact, List.flatten_cons, ih hdrop, List.take_append_drop]

/-! ## One record -/

section Record

variable {crc32c : Bytes → U32} {ACCOUNTS RISK_ORDERS LEVELS ORDERS_PER_LEVEL REPORTS : ℕ}
  {gateway : Gateway ACCOUNTS RISK_ORDERS LEVELS ORDERS_PER_LEVEL}

theorem readRecord_eq_ok {index : ℕ} {expected : U64} {chunk payload : Bytes} {record : JournalRecord} :
    readRecord crc32c index expected chunk = .ok (record, payload) ↔
      record.encode.val = chunk ∧ record.verify crc32c = true ∧ record.sequence = expected ∧
        record.slice = some payload := by
  unfold readRecord
  constructor
  · intro h
    split at h
    · split at h
      · simp at h
      next found hdecode =>
      obtain ⟨hverify, hencode⟩ := JournalRecord.decode_eq_ok hdecode
      split at h
      · simp at h
      next hsequence =>
      split at h
      · simp at h
      next bytes hslice =>
      simp only [Except.ok.injEq, Prod.mk.injEq] at h
      obtain ⟨rfl, rfl⟩ := h
      exact ⟨congrArg Subtype.val hencode, hverify, not_not.mp hsequence, hslice⟩
    · simp at h
  · rintro ⟨rfl, hverify, rfl, hslice⟩
    rw [dif_pos record.encode.property]
    simp only [Subtype.coe_eta, JournalRecord.decode_encode hverify, ne_eq,
      not_true_eq_false, if_false, hslice]

/-- A payload is applied exactly when it is the encoding of a command with the number of its record,
and the command ends as business does. -/
theorem applyPayload_eq_ok {reports reports' : ReportBuffer REPORTS} {record : JournalRecord}
    {payload : Bytes}
    {gateway' : Gateway ACCOUNTS RISK_ORDERS LEVELS ORDERS_PER_LEVEL} :
    applyPayload gateway reports record payload = .ok (.ok (gateway', reports')) ↔
      ∃ command result, encodeCommand command = payload ∧ command.sequence = record.sequence ∧
        gateway.processCommand command reports = .ok (result, gateway', reports') ∧
        Logical.Gateway.Business result := by
  unfold applyPayload
  obtain ⟨error, herror⟩ | ⟨message, command, hparse, hcommand, rfl⟩ := parseMessage_cases payload
  · simp only [herror, Run.ok_bind, Run.pure_eq_ok, Except.ok.injEq, reduceCtorEq, false_iff]
    rintro ⟨command, _, rfl, _⟩
    rw [parseMessage_encodeCommand] at herror
    cases herror
  · have hrun := gateway.processFrame_of_parse reports hparse hcommand
    simp only [hparse, sequence_of_toCommand hcommand, hrun, Run.ok_bind, Run.pure_eq_ok]
    constructor
    · intro h
      split at h
      · simp at h
      next hsequence =>
      obtain ⟨⟨result, next, buffer⟩, hprocess, h⟩ := Run.bind_eq_ok.mp h
      refine ⟨command, result, rfl, not_not.mp hsequence, ?_⟩
      split at h <;> simp_all [Logical.Gateway.Business]
    · rintro ⟨other, result, hencode, hsequence, hprocess, hbusiness⟩
      rw [encodeCommand_injective hencode] at hsequence hprocess
      rw [if_neg (not_not_intro hsequence), hprocess]
      match result, hbusiness with
      | .ok _, _ | .error (.risk _), _ | .error (.book _), _ => rfl

end Record

/-! ## Journals of commands -/

section Carries

variable (crc32c : Bytes → U32)

/-- The record holds the command and has its sequence. -/
structure Carries (record : JournalRecord) (command : Command) : Prop where
  verified : record.verify crc32c = true
  payload : record.slice = some (encodeCommand command)
  sequence : command.sequence = record.sequence

/-- The records written for commands, each under the sequence of its command. -/
def Journaled (records : List JournalRecord) (commands : List Command) : Prop :=
  List.Forall₂ (fun record command ↦
    JournalRecord.new crc32c command.sequence (encodeCommand command) = .ok record) records commands

variable {crc32c}

theorem length_encodeCommand_le (command : Command) : (encodeCommand command).length ≤ maxPayload := by
  cases command with
  | newOrder order => exact (length_encodeNewOrder order).trans_le (by decide)
  | cancelOrder cancel => exact (length_encodeCancelOrder cancel).trans_le (by decide)
  | replaceOrder replace => exact (length_encodeReplaceOrder replace).trans_le (by decide)

theorem exists_journaled (crc32c : Bytes → U32) (commands : List Command) :
    ∃ records, Journaled crc32c records commands := by
  induction commands with
  | nil => exact ⟨[], .nil⟩
  | cons command commands ih =>
    obtain ⟨records, hrecords⟩ := ih
    obtain ⟨record, hrecord, _⟩ :=
      JournalRecord.new_of_le crc32c command.sequence (length_encodeCommand_le command)
    exact ⟨record :: records, .cons hrecord hrecords⟩

theorem Journaled.carries {records : List JournalRecord} {commands : List Command}
    (h : Journaled crc32c records commands) : List.Forall₂ (Carries crc32c) records commands := by
  refine h.imp fun record command hnew ↦ ?_
  obtain ⟨written, hwritten, hsequence, hslice, hverify⟩ :=
    JournalRecord.new_of_le crc32c command.sequence (length_encodeCommand_le command)
  rw [hnew] at hwritten
  obtain rfl := Except.ok.inj hwritten
  exact ⟨hverify, hslice, hsequence.symm⟩

end Carries

/-! ## The replay loop -/

section Loop

variable {crc32c : Bytes → U32} {ACCOUNTS RISK_ORDERS LEVELS ORDERS_PER_LEVEL REPORTS : ℕ}
  {gateway gateway' : Gateway ACCOUNTS RISK_ORDERS LEVELS ORDERS_PER_LEVEL}

/-- A command that ended as business does was accepted. -/
theorem accepts_of_business {command : Command} {reports reports' : ReportBuffer REPORTS}
    {result : Except GatewayError GatewayOutcome}
    (hrun : gateway.processCommand command reports = .ok (result, gateway', reports'))
    (hbusiness : Logical.Gateway.Business result) : gateway.Accepts command := by
  unfold Gateway.Accepts
  obtain ⟨_, hcheck⟩ | ⟨_, _, hcheck⟩ | ⟨next, _, _, hcheck⟩ :=
    Logical.Gateway.checkSequence_cases gateway.expectedSequence command.sequence
  · rw [Gateway.processCommand_of_not_admitted hcheck] at hrun
    cases hrun
    exact hbusiness.elim
  · rw [Gateway.processCommand_of_not_admitted hcheck] at hrun
    cases hrun
    exact hbusiness.elim
  · exact ⟨next, hcheck⟩

/-- A replay that succeeds went through records of a history of commands. -/
theorem exists_history_of_replay {index : ℕ} {expected : U64} {chunks : List Bytes}
    {reports : ReportBuffer REPORTS}
    (h : replay crc32c index expected chunks gateway reports = .ok (.ok gateway')) :
    ∃ records commands, chunks = records.map (fun record ↦ record.encode.val) ∧
      List.Forall₂ (Carries crc32c) records commands ∧
      records.map (fun record ↦ record.sequence.val) = List.range' expected.val records.length ∧
      Gateway.History REPORTS gateway commands gateway' := by
  induction chunks generalizing index expected gateway reports with
  | nil =>
    obtain rfl := Except.ok.inj (Except.ok.inj h)
    exact ⟨[], [], rfl, .nil, rfl, .nil⟩
  | cons chunk chunks ih =>
    unfold replay at h
    split at h
    · simp at h
    next record payload hread =>
    obtain ⟨rfl, hverify, hsequence, hslice⟩ := readRecord_eq_ok.mp hread
    obtain ⟨applied, happly, hrest⟩ := Run.bind_eq_ok.mp h
    split at hrest
    · simp at hrest
    next next reports' =>
    split at hrest
    · simp at hrest
    next successor hsuccessor =>
    obtain ⟨command, result, rfl, hcommand, hrun, hbusiness⟩ := applyPayload_eq_ok.mp happly
    obtain ⟨records, commands, rfl, hcarries, hnumbers, hhistory⟩ := ih hrest
    refine ⟨record :: records, command :: commands, rfl, .cons ⟨hverify, hslice, hcommand⟩ hcarries, ?_,
      .cons (accepts_of_business hrun hbusiness) hrun hhistory⟩
    have hnext : expected.val + 1 = successor.val := Unsigned.checkedAdd_eq_some.mp hsuccessor
    rw [List.map_cons, hnumbers, List.length_cons, List.range'_succ, hnext, hsequence]

/-- The records of a history are replayed on every gateway alike to its first one. -/
theorem replay_of_history (crc32c : Bytes → U32)
    (hc : Capacities ACCOUNTS RISK_ORDERS LEVELS ORDERS_PER_LEVEL)
    {commands : List Command} (hhistory : Gateway.History REPORTS gateway commands gateway')
    {logical : Logical.Gateway} (h : gateway.Represents logical)
    (hinvariant : logical.Invariant LEVELS ORDERS_PER_LEVEL) :
    ∃ logical' : Logical.Gateway, gateway'.Represents logical' ∧
      logical'.Invariant LEVELS ORDERS_PER_LEVEL ∧
      ∀ twin : Gateway ACCOUNTS RISK_ORDERS LEVELS ORDERS_PER_LEVEL, twin.Represents logical →
        ∀ records, List.Forall₂ (Carries crc32c) records commands →
          ∀ (index : ℕ) (reports : ReportBuffer REPORTS), ∃ twin',
            replay crc32c index logical.expectedSequence (records.map fun record ↦ record.encode.val) twin
              reports = .ok (.ok twin') ∧ twin'.Represents logical' := by
  induction hhistory generalizing logical with
  | nil =>
    refine ⟨logical, h, hinvariant, ?_⟩
    intro twin htwin records hcarries index reports
    cases hcarries
    exact ⟨twin, rfl, htwin⟩
  | cons haccepts hrun _ ih =>
    obtain ⟨hsequence, hbusiness, logical₁, hrep₁, hinvariant₁, hnext, htwins⟩ :=
      h.accepted hc hinvariant haccepts hrun
    obtain ⟨logical', hrep', hinvariant', hrest⟩ := ih hrep₁ hinvariant₁
    refine ⟨logical', hrep', hinvariant', ?_⟩
    intro twin htwin records hcarries index reports
    obtain _ | ⟨hcarried, hcarries⟩ := hcarries
    next record records =>
    obtain ⟨twin₁, reports₁, hrun₁, htwin₁⟩ := htwins twin htwin reports
    obtain ⟨twin', hreplay, htwin'⟩ := hrest twin₁ htwin₁ records hcarries (index + 1) reports₁
    refine ⟨twin', ?_, htwin'⟩
    have hread : readRecord crc32c index logical.expectedSequence record.encode.val =
        .ok (record, encodeCommand _) :=
      readRecord_eq_ok.mpr ⟨rfl, hcarried.verified, hcarried.sequence.symm.trans hsequence, hcarried.payload⟩
    have happly := applyPayload_eq_ok.mpr ⟨_, _, rfl, hcarried.sequence, hrun₁, hbusiness⟩
    have hsuccessor : Unsigned.checkedAdd logical.expectedSequence 1 = some logical₁.expectedSequence :=
      Unsigned.checkedAdd_eq_some.mpr hnext.symm
    rw [List.map_cons, replay, hread]
    simp only [happly, hsuccessor, Run.ok_bind]
    exact hreplay

end Loop

/-! ## Recovery -/

section Recover

variable {crc32c : Bytes → U32} {sha256 : Bytes → Digest}
  {ACCOUNTS RISK_ORDERS LEVELS ORDERS_PER_LEVEL REPORTS : ℕ}

/-- Recovery replays the records of the tail on the gateway of the snapshot. -/
theorem recoverSnapshotAndTail_journalBytes {snapshot : Bytes} {expected : U64}
    {decoded : DecodedSnapshot ACCOUNTS RISK_ORDERS LEVELS ORDERS_PER_LEVEL}
    (hdecode : decodeSnapshot sha256 snapshot = .ok (.ok decoded))
    (hexpected : decoded.appliedSequence.val + 1 = expected.val) (records : List JournalRecord) :
    recoverSnapshotAndTail crc32c sha256 REPORTS snapshot (journalBytes records) =
      replay crc32c 0 expected (records.map fun record ↦ record.encode.val) decoded.gateway
        (ReportBuffer.new REPORTS) := by
  have hlen := length_journalBytes records
  have hwhole : (journalBytes records).length % recordSize = 0 := by
    rw [hlen, Nat.mul_mod_right]
  have hcount : (journalBytes records).length / recordSize = records.length := by
    rw [hlen, Nat.mul_div_cancel_left _ (by decide)]
  have hadd : Unsigned.checkedAdd decoded.appliedSequence 1 = some expected :=
    Unsigned.checkedAdd_eq_some.mpr hexpected
  unfold recoverSnapshotAndTail
  simp only [hdecode, hwhole, hadd, hcount, chunksExact_journalBytes, Run.ok_bind, ne_eq, not_true_eq_false,
    if_false]

/-- A recovery that succeeds decoded its snapshot and went through whole records of a history. -/
theorem exists_history_of_recover {snapshot tail : Bytes}
    {gateway : Gateway ACCOUNTS RISK_ORDERS LEVELS ORDERS_PER_LEVEL}
    (h : recoverSnapshotAndTail crc32c sha256 REPORTS snapshot tail = .ok (.ok gateway)) :
    ∃ (decoded : DecodedSnapshot ACCOUNTS RISK_ORDERS LEVELS ORDERS_PER_LEVEL) (records : List JournalRecord)
      (commands : List Command),
      decodeSnapshot sha256 snapshot = .ok (.ok decoded) ∧ tail = journalBytes records ∧
      List.Forall₂ (Carries crc32c) records commands ∧
      records.map (fun record ↦ record.sequence.val) =
        List.range' (decoded.appliedSequence.val + 1) records.length ∧
      Gateway.History REPORTS decoded.gateway commands gateway := by
  unfold recoverSnapshotAndTail at h
  obtain ⟨result, hdecode, hrest⟩ := Run.bind_eq_ok.mp h
  split at hrest
  · simp at hrest
  next decoded =>
  split at hrest
  · simp at hrest
  next hwhole =>
  split at hrest
  · simp at hrest
  next expected hadd =>
  obtain ⟨records, commands, hchunks, hcarries, hnumbers, hhistory⟩ := exists_history_of_replay hrest
  refine ⟨decoded, records, commands, hdecode, ?_, hcarries, ?_, hhistory⟩
  · have hlen : tail.length = recordSize * (tail.length / recordSize) :=
      (Nat.mul_div_cancel' (Nat.dvd_of_mod_eq_zero (not_not.mp hwhole))).symm
    rw [← flatten_chunksExact _ hlen, hchunks]
    rfl
  · have hnext : decoded.appliedSequence.val + 1 = expected.val := Unsigned.checkedAdd_eq_some.mp hadd
    rw [hnext, hnumbers]

/-- A snapshot in the middle of a history and the journal of the rest recover the last gateway. -/
theorem recover_of_history (crc32c : Bytes → U32) (sha256 : Bytes → Digest)
    (hc : Capacities ACCOUNTS RISK_ORDERS LEVELS ORDERS_PER_LEVEL) (horders : ORDERS_PER_LEVEL < 2 ^ 32)
    {first cut last : Gateway ACCOUNTS RISK_ORDERS LEVELS ORDERS_PER_LEVEL} (hfirst : first.Started)
    {before after : List Command} (hbefore : Gateway.History REPORTS first before cut)
    (hafter : Gateway.History REPORTS cut after last) (hlimits : cut.WithinLimits)
    {records : List JournalRecord} (hrecords : List.Forall₂ (Carries crc32c) records after) :
    ∃ (applied : U64) (snapshot : Snapshot) (state : GatewayState LEVELS ORDERS_PER_LEVEL)
      (gateway : Gateway ACCOUNTS RISK_ORDERS LEVELS ORDERS_PER_LEVEL),
      applied.val = before.length ∧ encodeSnapshot sha256 cut applied = .ok (.ok snapshot) ∧
      recoverSnapshotAndTail crc32c sha256 REPORTS snapshot.bytes (journalBytes records) = .ok (.ok gateway) ∧
      gateway.exportState = .ok state ∧ last.exportState = .ok state := by
  obtain ⟨risk, instrument, hunused, hrep⟩ := hfirst.represents hc
  have hinvariant := hunused.invariant LEVELS ORDERS_PER_LEVEL instrument
  obtain ⟨logical, hrepCut, hinvariantCut, hexpected, _⟩ := hrep.history hc hbefore hinvariant
  obtain ⟨logical', hrepLast, _, hreplay⟩ := replay_of_history crc32c hc hafter hrepCut hinvariantCut
  have hrestorable : logical.Restorable ACCOUNTS RISK_ORDERS LEVELS ORDERS_PER_LEVEL :=
    ⟨hinvariantCut, hrepCut.withinLimits_iff.mp hlimits, hrepCut.risk.length_le.1, hrepCut.risk.length_le.2⟩
  have hstart : (Logical.Gateway.new risk instrument).expectedSequence.val = 1 := rfl
  have hlt := logical.expectedSequence.isLt
  obtain ⟨applied, happlied⟩ : ∃ applied : U64, applied.val = before.length := ⟨⟨_, by omega⟩, rfl⟩
  have hnext : applied.val + 1 = logical.expectedSequence.val := by omega
  have hlevels : LEVELS < 2 ^ 32 := by
    have hbook := hc.book
    have hpos := hc.orders
    unfold indexCapacity orderIndexPlanes at hbook
    have hle := Nat.le_mul_of_pos_right LEVELS hpos
    omega
  obtain ⟨snapshot, restored, hsnapshot, _, hrestored, hdecode⟩ := decodeSnapshot_encodeSnapshot
    hc.index hlevels horders hrestorable (hrepCut.exportState hc.index.addressable) hnext
  obtain ⟨gateway, hrun, hrepGateway⟩ :=
    hreplay restored hrestored records hrecords 0 (ReportBuffer.new REPORTS)
  refine ⟨applied, snapshot, _, gateway, happlied, hsnapshot, ?_,
    hrepGateway.exportState hc.index.addressable,
    hrepLast.exportState hc.index.addressable⟩
  rw [recoverSnapshotAndTail_journalBytes hdecode hnext]
  exact hrun

/-- Snapshot and tail stand for the uninterrupted history, and nothing else is recovered from. -/
theorem recovery_is_replay (crc32c : Bytes → U32) (sha256 : Bytes → Digest) :
    (Capacities ACCOUNTS RISK_ORDERS LEVELS ORDERS_PER_LEVEL → ORDERS_PER_LEVEL < 2 ^ 32 →
      ∀ (first cut last : Gateway ACCOUNTS RISK_ORDERS LEVELS ORDERS_PER_LEVEL) (before after : List Command),
      first.Started → Gateway.History REPORTS first before cut → Gateway.History REPORTS cut after last →
      cut.WithinLimits →
      (before ++ after).map (fun command ↦ command.sequence.val) = List.range' 1 (before ++ after).length ∧
      (∃ records, Journaled crc32c records after) ∧
      ∃ (applied : U64) (snapshot : Snapshot) (state : GatewayState LEVELS ORDERS_PER_LEVEL),
        applied.val = before.length ∧ encodeSnapshot sha256 cut applied = .ok (.ok snapshot) ∧
        last.exportState = .ok state ∧
        ∀ records, Journaled crc32c records after →
          ∃ gateway : Gateway ACCOUNTS RISK_ORDERS LEVELS ORDERS_PER_LEVEL,
            recoverSnapshotAndTail crc32c sha256 REPORTS snapshot.bytes (journalBytes records) =
              .ok (.ok gateway) ∧ gateway.exportState = .ok state) ∧
    ∀ (snapshot tail : Bytes) (gateway : Gateway ACCOUNTS RISK_ORDERS LEVELS ORDERS_PER_LEVEL),
      recoverSnapshotAndTail crc32c sha256 REPORTS snapshot tail = .ok (.ok gateway) →
      ∃ (decoded : DecodedSnapshot ACCOUNTS RISK_ORDERS LEVELS ORDERS_PER_LEVEL)
        (records : List JournalRecord) (commands : List Command),
        decodeSnapshot sha256 snapshot = .ok (.ok decoded) ∧ tail = journalBytes records ∧
        (∀ record ∈ records, JournalRecord.decode crc32c record.encode = .ok record) ∧
        records.map (fun record ↦ record.sequence.val) =
          List.range' (decoded.appliedSequence.val + 1) records.length ∧
        List.Forall₂ (Carries crc32c) records commands ∧
        Gateway.History REPORTS decoded.gateway commands gateway := by
  constructor
  · intro hc horders first cut last before after hfirst hbefore hafter hlimits
    obtain ⟨records, hrecords⟩ := exists_journaled crc32c after
    obtain ⟨applied, snapshot, state, gateway, happlied, hsnapshot, _, _, hstate⟩ :=
      recover_of_history crc32c sha256 hc horders hfirst hbefore hafter hlimits hrecords.carries
    refine ⟨?_, ⟨records, hrecords⟩, applied, snapshot, state, happlied, hsnapshot, hstate, ?_⟩
    · obtain ⟨risk, instrument, hunused, hrep⟩ := hfirst.represents hc
      exact hrep.history_sequences hc (hbefore.append hafter)
        (hunused.invariant LEVELS ORDERS_PER_LEVEL instrument)
    · intro records' hrecords'
      obtain ⟨applied', snapshot', state', gateway', happlied', hsnapshot', hrun, hexport, hstate'⟩ :=
        recover_of_history crc32c sha256 hc horders hfirst hbefore hafter hlimits hrecords'.carries
      obtain rfl : applied' = applied := Fin.ext (happlied'.trans happlied.symm)
      obtain rfl : snapshot' = snapshot :=
        Except.ok.inj (Except.ok.inj (hsnapshot'.symm.trans hsnapshot))
      obtain rfl : state' = state := Except.ok.inj (hstate'.symm.trans hstate)
      exact ⟨gateway', hrun, hexport⟩
  · intro snapshot tail gateway hrun
    obtain ⟨decoded, records, commands, hdecode, htail, hcarries, hnumbers, hhistory⟩ :=
      exists_history_of_recover hrun
    have hdecodes : (∀ record ∈ records, JournalRecord.decode crc32c record.encode = .ok record) ∧ _ :=
      (List.forall₂_and_left records commands).mp
        (hcarries.imp fun _ _ hcarried ↦ ⟨JournalRecord.decode_encode hcarried.verified, hcarried⟩)
    exact ⟨decoded, records, commands, hdecode, htail, hdecodes.1, hnumbers, hcarries, hhistory⟩

/-- The sample order is in the snapshot; its cancel, and a cancel that risk rejects, are in the tail. -/
theorem recovery_is_replay_of_rejection :
    ∃ (last gateway : Gateway 1 1 1 1) (snapshot : Snapshot) (records : List JournalRecord)
      (state : GatewayState 1 1),
      Gateway.History 1 Gateway.sampleGateway [Gateway.sampleCancel 2, Gateway.sampleCancel 3] last ∧
      records.length = 2 ∧
      recoverSnapshotAndTail (fun _ ↦ 0) (fun _ ↦ ⟨List.replicate 32 0, rfl⟩) 1 snapshot.bytes
        (journalBytes records) = .ok (.ok gateway) ∧
      gateway.exportState = .ok state ∧ last.exportState = .ok state ∧
      ∃ (decoded : DecodedSnapshot 1 1 1 1) (commands : List Command),
        Gateway.History 1 decoded.gateway commands gateway := by
  obtain ⟨_, hagain⟩ := Run.exists_eq_ok Gateway.sampleCancel_again
  have hbefore : Gateway.History 1 Gateway.sampleStart [Gateway.sampleOrder] Gateway.sampleGateway :=
    .cons ⟨_, rfl⟩ (Run.eq_ok_get Gateway.sampleOrder_returns) .nil
  have hafter : Gateway.History 1 Gateway.sampleGateway [Gateway.sampleCancel 2, Gateway.sampleCancel 3] _ :=
    .cons ⟨_, rfl⟩ (Run.eq_ok_get Gateway.sampleCancel_returns) (.cons ⟨_, rfl⟩ hagain .nil)
  have hc : Capacities 1 1 1 1 := ⟨by decide, by decide, by decide, by decide⟩
  have hsession : Gateway.Sessions Gateway.Started Gateway.RespectsLimits Gateway.sampleGateway :=
    .step (.start Gateway.sampleStart_started) (fun _ h ↦ by simp [Gateway.sampleOrder] at h)
      (Run.eq_ok_get Gateway.sampleOrder_returns)
  obtain ⟨_, hrep, _, hlimited⟩ := hsession.limited hc
  obtain ⟨hforward, hbackward⟩ := recovery_is_replay (fun _ ↦ 0) (fun _ ↦ ⟨List.replicate 32 0, rfl⟩)
  obtain ⟨_, ⟨records, hrecords⟩, _, snapshot, state, _, _, hstate, hrecover⟩ :=
    hforward hc (by decide) _ _ _ _ _
    Gateway.sampleStart_started hbefore hafter (hrep.withinLimits_iff.mpr hlimited)
  obtain ⟨gateway, hrun, hexport⟩ := hrecover records hrecords
  obtain ⟨decoded, _, commands, _, _, _, _, _, hhistory⟩ := hbackward _ _ _ hrun
  exact ⟨_, gateway, snapshot, records, state, hafter, hrecords.length_eq, hrun, hexport, hstate, decoded,
    commands, hhistory⟩

end Recover

end DeterministicExchange.Recovery
