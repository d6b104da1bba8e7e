import DeterministicExchange.Recovery.Snapshot

/-!
# The container of a snapshot

The header is read back field by field from its fixed layout. Opening a
container and sealing a payload are inverse to each other.
-/

namespace DeterministicExchange.Recovery

open Machine Codec

/-! ## The header -/

section Header

variable (payloadLen appliedSequence : U64) (accounts riskOrders levels orders : U32) (digest : Digest)

theorem length_header :
    (header payloadLen appliedSequence accounts riskOrders levels orders digest).length = headerSize := by
  have hdigest := digest.property
  unfold header
  simp only [List.length_append, length_encodeUnsigned, hdigest, List.length_replicate]
  decide

theorem slices_header :
    let bytes := header payloadLen appliedSequence accounts riskOrders levels orders digest
    slice bytes 0 8 = magic ∧ slice bytes 8 2 = encodeUnsigned formatVersion ∧
      slice bytes 10 2 = encodeUnsigned (96 : U16) ∧ slice bytes 12 4 = encodeUnsigned (0 : U32) ∧
      slice bytes 16 2 = encodeUnsigned hashAlgorithmSha256 ∧ slice bytes 18 2 = encodeUnsigned (32 : U16) ∧
      slice bytes 20 8 = encodeUnsigned payloadLen ∧ slice bytes 28 8 = encodeUnsigned appliedSequence ∧
      slice bytes 36 4 = encodeUnsigned accounts ∧ slice bytes 40 4 = encodeUnsigned riskOrders ∧
      slice bytes 44 4 = encodeUnsigned levels ∧ slice bytes 48 4 = encodeUnsigned orders ∧
      slice bytes digestOffset digestSize = digest.val ∧ slice bytes 84 12 = List.replicate 12 0 := by
  have hdigest : digest.val.length = 32 := digest.property
  have hmagic : magic.length = 8 := rfl
  unfold header digestOffset digestSize
  simp [slice_skip, slice_head, slice_self, hdigest, hmagic]

end Header

/-- A header is the concatenation of its fields. -/
theorem header_of_slices {bytes : Bytes} (hlen : bytes.length = 96)
    (hdigest : (slice bytes digestOffset digestSize).length = digestSize)
    (hmagic : slice bytes 0 8 = magic) (hversion : decodeUnsigned 16 (slice bytes 8 2) = formatVersion)
    (hsize : decodeUnsigned 16 (slice bytes 10 2) = 96) (hflags : decodeUnsigned 32 (slice bytes 12 4) = 0)
    (hhash : decodeUnsigned 16 (slice bytes 16 2) = hashAlgorithmSha256)
    (hdigestLen : decodeUnsigned 16 (slice bytes 18 2) = 32)
    (hzero : slice bytes 84 12 = List.replicate 12 0) :
    header (decodeUnsigned 64 (slice bytes 20 8)) (decodeUnsigned 64 (slice bytes 28 8))
      (decodeUnsigned 32 (slice bytes 36 4)) (decodeUnsigned 32 (slice bytes 40 4))
      (decodeUnsigned 32 (slice bytes 44 4)) (decodeUnsigned 32 (slice bytes 48 4))
      ⟨slice bytes digestOffset digestSize, hdigest⟩ = bytes := by
  have hword (w offset : ℕ) (hw : 8 ∣ w) (hin : offset + w / 8 ≤ 96) :
      encodeUnsigned (decodeUnsigned w (slice bytes offset (w / 8))) = slice bytes offset (w / 8) :=
    encodeUnsigned_decodeUnsigned hw (length_slice (by omega))
  unfold header
  rw [← hmagic, ← hversion, ← hsize, ← hflags, ← hhash, ← hdigestLen, ← hzero,
    hword 16 8 (by decide) (by decide), hword 16 10 (by decide) (by decide),
    hword 32 12 (by decide) (by decide), hword 16 16 (by decide) (by decide),
    hword 16 18 (by decide) (by decide), hword 64 20 (by decide) (by decide),
    hword 64 28 (by decide) (by decide), hword 32 36 (by decide) (by decide),
    hword 32 40 (by decide) (by decide), hword 32 44 (by decide) (by decide),
    hword 32 48 (by decide) (by decide)]
  unfold digestOffset digestSize
  simp only [Nat.reduceDiv, slice_zero_append, Nat.reduceAdd]
  exact (congrArg (slice bytes 0) hlen.symm).trans (slice_full bytes)

theorem checkHeader_eq_ok {bytes : Bytes} {payloadLen : U64} :
    checkHeader bytes = .ok payloadLen ↔ slice bytes 0 8 = magic ∧
      decodeUnsigned 16 (slice bytes 8 2) = formatVersion ∧ decodeUnsigned 16 (slice bytes 10 2) = 96 ∧
      decodeUnsigned 32 (slice bytes 12 4) = 0 ∧
      decodeUnsigned 16 (slice bytes 16 2) = hashAlgorithmSha256 ∧
      decodeUnsigned 16 (slice bytes 18 2) = 32 ∧ decodeUnsigned 64 (slice bytes 20 8) = payloadLen := by
  have hsize (found : U16) : found.val = headerSize ↔ found = 96 := (Fin.ext_iff (b := (96 : U16))).symm
  have hdigest (found : U16) : found.val = digestSize ↔ found = 32 := (Fin.ext_iff (b := (32 : U16))).symm
  unfold checkHeader
  simp only [ne_eq, hsize, hdigest]
  split_ifs <;> simp_all

theorem capacity_eq_ok {N : ℕ} {word : U32} : capacity N = .ok word ↔ word.val = N := by
  unfold capacity
  cases hword : Unsigned.ofNat? 32 N with
  | none =>
    have hle := Unsigned.ofNat?_eq_none.mp hword
    have hlt := word.isLt
    simp only [okOr, reduceCtorEq, false_iff]
    omega
  | some found =>
    have hfound := Unsigned.ofNat?_eq_some.mp hword
    simp only [okOr, Except.ok.injEq, Fin.ext_iff]
    omega

theorem checkCapacity_eq_ok {N : ℕ} {found : U32} : checkCapacity N found = .ok () ↔ found.val = N := by
  rw [← capacity_eq_ok]
  unfold checkCapacity
  cases capacity N with
  | error e => simp [bind, Except.bind]
  | ok word =>
    show (if found ≠ word then _ else _) = _ ↔ _
    split
    · next hne => simp [Ne.symm hne]
    · next heq => simp [not_not.mp heq, pure, Except.pure]

/-! ## Sealing and opening -/

section Container

variable {sha256 : Bytes → Digest} {ACCOUNTS RISK_ORDERS LEVELS ORDERS_PER_LEVEL : ℕ}

/-- The bytes of a container. -/
def Sealed (sha256 : Bytes → Digest) (ACCOUNTS RISK_ORDERS LEVELS ORDERS_PER_LEVEL : ℕ) (payload : Bytes)
    (appliedSequence : U64) (digest : Digest) (bytes : Bytes) : Prop :=
  ∃ (payloadLen : U64) (accounts riskOrders levels orders : U32), payloadLen.val = payload.length ∧
    accounts.val = ACCOUNTS ∧ riskOrders.val = RISK_ORDERS ∧ levels.val = LEVELS ∧
    orders.val = ORDERS_PER_LEVEL ∧
    bytes = header payloadLen appliedSequence accounts riskOrders levels orders digest ++ payload ∧
    snapshotDigest sha256 (header payloadLen appliedSequence accounts riskOrders levels orders digest)
      payload = digest

/-- The digest does not cover itself. -/
theorem snapshotDigest_header (payloadLen appliedSequence : U64) (accounts riskOrders levels orders : U32)
    (digest digest' : Digest) (payload : Bytes) :
    snapshotDigest sha256 (header payloadLen appliedSequence accounts riskOrders levels
      orders digest) payload =
      snapshotDigest sha256 (header payloadLen appliedSequence accounts riskOrders levels orders digest')
        payload := by
  have hmagic : magic.length = 8 := rfl
  set fields := magic ++ encodeUnsigned formatVersion ++ encodeUnsigned (96 : U16) ++
    encodeUnsigned (0 : U32) ++ encodeUnsigned hashAlgorithmSha256 ++ encodeUnsigned (32 : U16) ++
    encodeUnsigned payloadLen ++ encodeUnsigned appliedSequence ++ encodeUnsigned accounts ++
    encodeUnsigned riskOrders ++ encodeUnsigned levels ++ encodeUnsigned orders with hfields
  have hlen : fields.length = digestOffset := by
    simp only [hfields, List.length_append, length_encodeUnsigned, hmagic]
    decide
  have htake (d : Digest) :
      (header payloadLen appliedSequence accounts riskOrders levels orders d).take digestOffset = fields := by
    show (fields ++ d.val ++ List.replicate 12 0).take digestOffset = fields
    rw [List.append_assoc, ← hlen, List.take_left]
  have hdrop (d : Digest) :
      (header payloadLen appliedSequence accounts riskOrders levels orders d).drop
        (digestOffset + digestSize) =
        List.replicate 12 0 := by
    have hfront : (fields ++ d.val).length = digestOffset + digestSize := by
      rw [List.length_append, hlen, d.property]
    show (fields ++ d.val ++ List.replicate 12 0).drop (digestOffset + digestSize) = _
    rw [← hfront, List.drop_left]
  unfold snapshotDigest
  rw [htake, htake, hdrop, hdrop]

theorem sealPayload_eq_ok {payload : Bytes} {appliedSequence : U64} {snapshot : Snapshot} :
    sealPayload sha256 ACCOUNTS RISK_ORDERS LEVELS ORDERS_PER_LEVEL payload appliedSequence = .ok snapshot ↔
      Sealed sha256 ACCOUNTS RISK_ORDERS LEVELS ORDERS_PER_LEVEL payload appliedSequence snapshot.digest
        snapshot.bytes ∧ snapshot.appliedSequence = appliedSequence := by
  unfold sealPayload
  constructor
  · intro h
    obtain ⟨payloadLen, hpayload, h⟩ := except_bind_eq_ok.mp h
    obtain ⟨accounts, haccounts, h⟩ := except_bind_eq_ok.mp h
    obtain ⟨riskOrders, hriskOrders, h⟩ := except_bind_eq_ok.mp h
    obtain ⟨levels, hlevels, h⟩ := except_bind_eq_ok.mp h
    obtain ⟨orders, horders, h⟩ := except_bind_eq_ok.mp h
    obtain rfl := Except.ok.inj h
    refine ⟨⟨payloadLen, accounts, riskOrders, levels, orders, ?_, capacity_eq_ok.mp haccounts,
      capacity_eq_ok.mp hriskOrders, capacity_eq_ok.mp hlevels, capacity_eq_ok.mp horders, rfl, ?_⟩, rfl⟩
    · exact (Unsigned.ofNat?_eq_some.mp (okOr_eq_ok.mp hpayload)).symm
    · exact snapshotDigest_header ..
  · obtain ⟨bytes, digest, sequence⟩ := snapshot
    rintro ⟨⟨payloadLen, accounts, riskOrders, levels, orders, hpayload, haccounts, hriskOrders, hlevels,
      horders, hbytes, hdigest⟩, hsequence⟩
    dsimp only at hbytes hdigest hsequence
    subst hbytes hsequence
    rw [okOr_eq_ok.mpr (Unsigned.ofNat?_eq_some.mpr hpayload.symm), capacity_eq_ok.mpr haccounts,
      capacity_eq_ok.mpr hriskOrders, capacity_eq_ok.mpr hlevels, capacity_eq_ok.mpr horders]
    rw [snapshotDigest_header _ _ _ _ _ _ _ ⟨List.replicate digestSize 0, List.length_replicate⟩] at hdigest
    simp only [Reader.ok_bind, Reader.pure_eq_ok, hdigest]

theorem openContainer_eq_ok {bytes payload : Bytes} {appliedSequence : U64} {digest : Digest} :
    openContainer sha256 ACCOUNTS RISK_ORDERS LEVELS ORDERS_PER_LEVEL bytes =
        .ok (appliedSequence, digest, payload) ↔
      Sealed sha256 ACCOUNTS RISK_ORDERS LEVELS ORDERS_PER_LEVEL payload appliedSequence digest bytes ∧
        headerSize + payload.length < 2 ^ 64 := by
  unfold openContainer
  constructor
  · intro h
    split at h
    · simp at h
    next hlong =>
    have hheader : (slice bytes 0 headerSize).length = 96 := length_slice (by omega)
    obtain ⟨payloadLen, hcheck, h⟩ := except_bind_eq_ok.mp h
    obtain ⟨hmagic, hversion, hsize, hflags, hhash, hdigestLen, rfl⟩ := checkHeader_eq_ok.mp hcheck
    obtain ⟨total, htotal, h⟩ := except_bind_eq_ok.mp h
    have htotal' := Unsigned.ofNat?_eq_some.mp (okOr_eq_ok.mp htotal)
    have hlt := total.isLt
    split at h
    · simp at h
    split at h
    · simp at h
    obtain ⟨_, hcapacities, h⟩ := except_bind_eq_ok.mp h
    obtain ⟨_, haccounts, hrest⟩ := except_bind_eq_ok.mp hcapacities
    obtain ⟨_, hriskOrders, hrest⟩ := except_bind_eq_ok.mp hrest
    obtain ⟨_, hlevels, horders⟩ := except_bind_eq_ok.mp hrest
    split at h
    · simp at h
    next hzero =>
    dsimp only at h
    split at h
    · simp at h
    next hdigest =>
    simp only [Except.ok.injEq, Prod.mk.injEq] at h
    obtain ⟨rfl, rfl, rfl⟩ := h
    have hdrop : (bytes.drop headerSize).length = bytes.length - headerSize := List.length_drop
    have hzeros : slice (slice bytes 0 headerSize) 84 12 = List.replicate 12 0 := by
      rw [List.eq_replicate_iff]
      refine ⟨length_slice (by omega), ?_⟩
      simpa using hzero
    have hfields := header_of_slices hheader
      (length_slice (by rw [hheader]; decide)) hmagic hversion hsize hflags
      hhash hdigestLen hzeros
    refine ⟨⟨decodeUnsigned 64 (slice (slice bytes 0 headerSize) 20 8), _, _, _, _, ?_,
      checkCapacity_eq_ok.mp haccounts, checkCapacity_eq_ok.mp hriskOrders,
      checkCapacity_eq_ok.mp hlevels, checkCapacity_eq_ok.mp horders, ?_, ?_⟩, by omega⟩
    · omega
    · rw [hfields]
      exact (List.take_append_drop headerSize bytes).symm
    · rw [hfields]
      exact not_not.mp hdigest
  · rintro ⟨⟨payloadLen, accounts, riskOrders, levels, orders, hpayload, haccounts, hriskOrders, hlevels,
      horders, rfl, hdigest⟩, hlt⟩
    have hlength := length_header payloadLen appliedSequence accounts riskOrders levels orders digest
    obtain ⟨hmagic, hversion, hsize, hflags, hhash, hdigestLen, hpayloadLen, hsequence,
      haccounts', hriskOrders',
      hlevels', horders', hstored, hzero⟩ :=
      slices_header payloadLen appliedSequence accounts riskOrders levels orders digest
    have hword16 (word : U16) : decodeUnsigned 16 (encodeUnsigned word) = word :=
      decodeUnsigned_encodeUnsigned (by decide) word
    have hword32 (word : U32) : decodeUnsigned 32 (encodeUnsigned word) = word :=
      decodeUnsigned_encodeUnsigned (by decide) word
    have hword64 (word : U64) : decodeUnsigned 64 (encodeUnsigned word) = word :=
      decodeUnsigned_encodeUnsigned (by decide) word
    have hcheck : checkHeader (header payloadLen appliedSequence accounts riskOrders levels orders digest) =
        .ok payloadLen := by
      rw [checkHeader_eq_ok, hmagic, hversion, hsize, hflags, hhash, hdigestLen,
        hpayloadLen, hword16, hword16,
        hword16, hword16, hword32, hword64]
      exact ⟨rfl, rfl, rfl, rfl, rfl, rfl, rfl⟩
    have hcapacities : checkCapacities ACCOUNTS RISK_ORDERS LEVELS ORDERS_PER_LEVEL
        (header payloadLen appliedSequence accounts riskOrders levels orders digest) = .ok () := by
      unfold checkCapacities
      rw [haccounts', hriskOrders', hlevels', horders', hword32, hword32, hword32, hword32,
        checkCapacity_eq_ok.mpr haccounts, checkCapacity_eq_ok.mpr hriskOrders,
        checkCapacity_eq_ok.mpr hlevels, checkCapacity_eq_ok.mpr horders]
      rfl
    generalize hheader : header payloadLen appliedSequence accounts riskOrders levels
      orders digest = front at *
    have hfront : slice (front ++ payload) 0 headerSize = front := slice_head hlength
    have hback : (front ++ payload).drop headerSize = payload := by rw [← hlength, List.drop_left]
    have htotal : okOr SnapshotError.lengthOverflow (Unsigned.ofNat? 64 (headerSize + payloadLen.val)) =
        .ok ⟨headerSize + payload.length, hlt⟩ := by
      rw [okOr_eq_ok, Unsigned.ofNat?_eq_some, hpayload]
    have hlen : (front ++ payload).length = headerSize + payload.length := by
      rw [List.length_append, hlength]
    rw [dif_neg (by omega)]
    simp only [hfront, hback, hcheck, Reader.ok_bind, htotal, hlen, lt_irrefl, if_false, hcapacities, hzero,
      hstored, hsequence, hword64, hdigest]
    simp

end Container

end DeterministicExchange.Recovery
