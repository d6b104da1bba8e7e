import DeterministicExchange.Codec.Text
import DeterministicExchange.Engine.Builder
import DeterministicExchange.Wire.Message

/-!
# The configuration sidecar

`hft-engine` keeps the configuration of an engine beside its snapshots, as lines of
decimal fields. A sidecar is accepted only if it is exactly what encoding the parsed
configuration gives, and a restore only if that is the configuration asked for.
-/

namespace DeterministicExchange

open Machine Codec Risk Events Recovery

namespace EngineConfig

/-- The line that names the format and the versions of the wire, the journal and the snapshots. -/
def header : Text :=
  spaced ["HFTCONFIG".toList, natText 1, natText Wire.protocolVersion.val,
    natText Journal.formatVersion.val, natText Recovery.formatVersion.val]

def instrumentFields (config : EngineConfig) : List Text :=
  natText config.instrument.val :: config.capacities.toList.map natText

def accountFields (account : AccountId × RiskLimits) : List Text :=
  [natText account.1.val, natText account.2.maxQuantity.val, natText account.2.maxNotional.val,
    natText account.2.maxAbsPosition.val, natText account.2.maxOpenOrders.val,
    intText account.2.minimumPrice.val, intText account.2.maximumPrice.val]

def encode (config : EngineConfig) : Bytes :=
  toUtf8 (unlines (header :: spaced config.instrumentFields ::
    config.accounts.map fun account ↦ spaced (accountFields account)))

/-- Parses the next word. -/
def field {α : Type} (parse : Text → Option α) : List Text → Except ConfigError (α × List Text)
  | [] => .error .encoding
  | word :: fields =>
    match parse word with
    | none => .error .encoding
    | some a => .ok (a, fields)

def decodeInstrument (line : Text) : Except ConfigError (InstrumentId × Vector ℕ 5) := do
  let (instrument, fields) ← field (parseUnsigned 32) (splitWhitespace line)
  let (accounts, fields) ← field (parseUnsigned 64) fields
  let (riskOrders, fields) ← field (parseUnsigned 64) fields
  let (levels, fields) ← field (parseUnsigned 64) fields
  let (orders, fields) ← field (parseUnsigned 64) fields
  let (reports, fields) ← field (parseUnsigned 64) fields
  if fields ≠ [] then .error .encoding
  else .ok (instrument, #v[accounts.val, riskOrders.val, levels.val, orders.val, reports.val])

def decodeAccount (line : Text) : Except ConfigError (AccountId × RiskLimits) := do
  let (id, fields) ← field (parseUnsigned 32) (splitWhitespace line)
  let (maxQuantity, fields) ← field (parseUnsigned 64) fields
  let (maxNotional, fields) ← field (parseUnsigned 128) fields
  let (maxAbsPosition, fields) ← field (parseUnsigned 64) fields
  let (maxOpenOrders, fields) ← field (parseUnsigned 32) fields
  let (minimumPrice, fields) ← field (parseSigned 64) fields
  let (maximumPrice, fields) ← field (parseSigned 64) fields
  if fields ≠ [] then .error .encoding
  else .ok (id, ⟨maxQuantity, maxNotional, maxAbsPosition, maxOpenOrders, minimumPrice, maximumPrice⟩)

def decode (bytes : Bytes) : Except ConfigError EngineConfig :=
  match fromUtf8 bytes with
  | none => .error .encoding
  | some text =>
    match lines text with
    | [] => .error .encoding
    | first :: rest =>
      if first ≠ header then .error .unsupportedVersion
      else
        match rest with
        | [] => .error .encoding
        | line :: rest => do
          let (instrument, capacities) ← decodeInstrument line
          let accounts ← rest.mapM decodeAccount
          let config : EngineConfig := ⟨instrument, capacities, accounts⟩
          config.validate
          if config.encode ≠ bytes then .error .nonCanonical else .ok config

def checkCompatible (config candidate : EngineConfig) : Except ConfigError Unit := do
  config.validate
  candidate.validate
  if config ≠ candidate then .error .mismatch else .ok ()

end EngineConfig

/-- Restores only what the sidecar and the snapshot agree on. The accounts of the snapshot are checked
before any record of the tail is replayed. -/
def EngineBuilder.restoreConfigured {ACCOUNTS RISK_ORDERS LEVELS ORDERS : ℕ} (REPORTS : ℕ)
    (crc32c : Bytes → U32) (sha256 : Bytes → Digest) (expected : EngineConfig)
    (persisted snapshot tail : Bytes) :
    Run (Except BuildError (EngineBuilder ACCOUNTS RISK_ORDERS LEVELS ORDERS)) :=
  match EngineConfig.decode persisted with
  | .error error => .ok (.error (.configuration error))
  | .ok stored =>
    match stored.checkCompatible expected with
    | .error error => .ok (.error (.configuration error))
    | .ok () =>
      if stored.capacities.toList ≠ [ACCOUNTS, RISK_ORDERS, LEVELS, ORDERS, REPORTS] then
        .ok (.error (.configuration .mismatch))
      else do
        match ← (restore REPORTS crc32c sha256 stored.instrument snapshot [] :
            Run (Except BuildError (EngineBuilder ACCOUNTS RISK_ORDERS LEVELS ORDERS))) with
        | .error error => return .error error
        | .ok start =>
          match stored.checkCompatible start.configuration with
          | .error error => return .error (.configuration error)
          | .ok () =>
            match ← (restore REPORTS crc32c sha256 stored.instrument snapshot tail :
                Run (Except BuildError (EngineBuilder ACCOUNTS RISK_ORDERS LEVELS ORDERS))) with
            | .error error => return .error error
            | .ok restored => return .ok { restored with configuration := stored }

namespace EngineConfig

/-- The capacities are machine-sized. -/
def Addressable (config : EngineConfig) : Prop := ∀ capacity ∈ config.capacities, capacity < 2 ^ 64

/-! ## Lines -/

theorem field_cons {α : Type} {parse : Text → Option α} {word : Text} {a : α} (h : parse word = some a)
    (fields : List Text) : field parse (word :: fields) = .ok (a, fields) := by
  rw [field, h]

theorem word_of_mem_instrumentFields {config : EngineConfig} {word : Text}
    (h : word ∈ config.instrumentFields) : Word word := by
  rcases List.mem_cons.mp h with rfl | h
  · exact word_natText _
  · obtain ⟨_, _, rfl⟩ := List.mem_map.mp h
    exact word_natText _

theorem word_of_mem_accountFields {account : AccountId × RiskLimits} {word : Text}
    (h : word ∈ accountFields account) : Word word := by
  unfold accountFields at h
  fin_cases h
  all_goals first | exact word_natText _ | exact word_intText _

theorem unbroken_header : Unbroken header := by
  apply unbroken_spaced
  intro word h
  rcases List.mem_cons.mp h with rfl | h
  · have hsolid : ("HFTCONFIG".toList.all fun c ↦ !isWhitespace c) = true := by decide
    exact ⟨by decide, fun c hc ↦ by simpa using List.all_eq_true.mp hsolid c hc⟩
  · fin_cases h <;> exact word_natText _

theorem decodeInstrument_spaced {config : EngineConfig} (h : config.Addressable) :
    decodeInstrument (spaced config.instrumentFields) = .ok (config.instrument, config.capacities) := by
  have hcapacity (i : ℕ) (hi : i < 5) :
      parseUnsigned 64 (natText config.capacities[i]) = some ⟨_, h _ (Vector.getElem_mem hi)⟩ :=
    parseUnsigned_natText (⟨_, h _ (Vector.getElem_mem hi)⟩ : U64)
  have hvector : #v[config.capacities[0], config.capacities[1], config.capacities[2], config.capacities[3],
      config.capacities[4]] = config.capacities := by
    apply Vector.ext
    intro i hi
    interval_cases i <;> rfl
  have hfields : config.instrumentFields = [natText config.instrument.val, natText config.capacities[0],
      natText config.capacities[1], natText config.capacities[2], natText config.capacities[3],
      natText config.capacities[4]] :=
    congrArg (fun v : Vector ℕ 5 ↦ natText config.instrument.val :: v.toList.map natText) hvector.symm
  unfold decodeInstrument
  rw [splitWhitespace_spaced fun _ ↦ word_of_mem_instrumentFields, hfields]
  refine except_bind_eq_ok.mpr ⟨_, field_cons (parseUnsigned_natText config.instrument) _, ?_⟩
  refine except_bind_eq_ok.mpr ⟨_, field_cons (hcapacity 0 (by decide)) _, ?_⟩
  refine except_bind_eq_ok.mpr ⟨_, field_cons (hcapacity 1 (by decide)) _, ?_⟩
  refine except_bind_eq_ok.mpr ⟨_, field_cons (hcapacity 2 (by decide)) _, ?_⟩
  refine except_bind_eq_ok.mpr ⟨_, field_cons (hcapacity 3 (by decide)) _, ?_⟩
  refine except_bind_eq_ok.mpr ⟨_, field_cons (hcapacity 4 (by decide)) _, ?_⟩
  dsimp only
  rw [if_neg (not_not_intro rfl), hvector]

theorem decodeAccount_spaced (account : AccountId × RiskLimits) :
    decodeAccount (spaced (accountFields account)) = .ok account := by
  unfold decodeAccount
  rw [splitWhitespace_spaced fun _ ↦ word_of_mem_accountFields]
  refine except_bind_eq_ok.mpr ⟨_, field_cons (parseUnsigned_natText account.1) _, ?_⟩
  refine except_bind_eq_ok.mpr ⟨_, field_cons (parseUnsigned_natText account.2.maxQuantity) _, ?_⟩
  refine except_bind_eq_ok.mpr ⟨_, field_cons (parseUnsigned_natText account.2.maxNotional) _, ?_⟩
  refine except_bind_eq_ok.mpr ⟨_, field_cons (parseUnsigned_natText account.2.maxAbsPosition) _, ?_⟩
  refine except_bind_eq_ok.mpr ⟨_, field_cons (parseUnsigned_natText account.2.maxOpenOrders) _, ?_⟩
  refine except_bind_eq_ok.mpr ⟨_, field_cons (parseSigned_intText account.2.minimumPrice) _, ?_⟩
  refine except_bind_eq_ok.mpr ⟨_, field_cons (parseSigned_intText account.2.maximumPrice) _, ?_⟩
  dsimp only
  rw [if_neg (not_not_intro rfl)]

theorem mapM_decodeAccount (accounts : List (AccountId × RiskLimits)) :
    (accounts.map fun account ↦ spaced (accountFields account)).mapM decodeAccount = .ok accounts := by
  induction accounts with
  | nil => rfl
  | cons account accounts ih =>
    rw [List.map_cons, List.mapM_cons, decodeAccount_spaced]
    refine except_bind_eq_ok.mpr ⟨_, rfl, ?_⟩
    rw [ih]
    rfl

/-! ## The round trip -/

/-- Decoding gives back what was encoded, after the validation of it. -/
theorem decode_encode {config : EngineConfig} (h : config.Addressable) :
    decode config.encode = config.validate.map fun _ ↦ config := by
  have hlines : lines (unlines (header :: spaced config.instrumentFields ::
      config.accounts.map fun account ↦ spaced (accountFields account))) =
      header :: spaced config.instrumentFields ::
        config.accounts.map fun account ↦ spaced (accountFields account) := by
    apply lines_unlines
    intro line hline
    rcases List.mem_cons.mp hline with rfl | hline
    · exact unbroken_header
    rcases List.mem_cons.mp hline with rfl | hline
    · exact unbroken_spaced fun _ ↦ word_of_mem_instrumentFields
    · obtain ⟨account, _, rfl⟩ := List.mem_map.mp hline
      exact unbroken_spaced fun _ ↦ word_of_mem_accountFields
  have htext : fromUtf8 config.encode = some (unlines (header :: spaced config.instrumentFields ::
      config.accounts.map fun account ↦ spaced (accountFields account))) := fromUtf8_toUtf8 _
  unfold decode
  rw [htext]
  dsimp only
  rw [hlines]
  dsimp only
  rw [if_neg (not_not_intro rfl), decodeInstrument_spaced h, mapM_decodeAccount]
  cases hvalidate : config.validate with
  | error error =>
    show config.validate >>= _ = _
    rw [hvalidate]
    rfl
  | ok _ =>
    show config.validate >>= _ = _
    refine except_bind_eq_ok.mpr ⟨(), hvalidate, ?_⟩
    rw [if_neg (not_not_intro rfl)]

theorem decodeInstrument_addressable {line : Text} {instrument : InstrumentId} {capacities : Vector ℕ 5}
    (h : decodeInstrument line = .ok (instrument, capacities)) :
    ∀ capacity ∈ capacities, capacity < 2 ^ 64 := by
  unfold decodeInstrument at h
  obtain ⟨⟨_, _⟩, _, h⟩ := except_bind_eq_ok.mp h
  obtain ⟨⟨accounts, _⟩, _, h⟩ := except_bind_eq_ok.mp h
  obtain ⟨⟨riskOrders, _⟩, _, h⟩ := except_bind_eq_ok.mp h
  obtain ⟨⟨levels, _⟩, _, h⟩ := except_bind_eq_ok.mp h
  obtain ⟨⟨orders, _⟩, _, h⟩ := except_bind_eq_ok.mp h
  obtain ⟨⟨reports, fields⟩, _, h⟩ := except_bind_eq_ok.mp h
  dsimp only at h
  by_cases hfields : fields ≠ []
  · rw [if_pos hfields] at h
    cases h
  rw [if_neg hfields] at h
  obtain ⟨_, rfl⟩ := Prod.mk.inj (Except.ok.inj h)
  intro capacity hcapacity
  have hcases : capacity = accounts.val ∨ capacity = riskOrders.val ∨ capacity = levels.val ∨
      capacity = orders.val ∨ capacity = reports.val := by simpa using hcapacity
  rcases hcases with rfl | rfl | rfl | rfl | rfl
  all_goals exact Fin.isLt _

/-- What is decoded is valid, and its encoding is what was read. -/
theorem decode_eq_ok {bytes : Bytes} {config : EngineConfig} (h : decode bytes = .ok config) :
    config.Addressable ∧ config.validate = .ok () ∧ config.encode = bytes := by
  unfold decode at h
  split at h
  · cases h
  split at h
  · cases h
  split at h
  · cases h
  split at h
  · cases h
  obtain ⟨⟨instrument, capacities⟩, hinstrument, h⟩ := except_bind_eq_ok.mp h
  obtain ⟨accounts, _, h⟩ := except_bind_eq_ok.mp h
  obtain ⟨⟨⟩, hvalidate, h⟩ := except_bind_eq_ok.mp h
  split at h
  · cases h
  next hencode =>
  obtain rfl := Except.ok.inj h
  exact ⟨decodeInstrument_addressable hinstrument, hvalidate, not_not.mp hencode⟩

/-- Different valid configurations have different sidecars. -/
theorem encode_injective {config config' : EngineConfig} (haddressable : config.Addressable)
    (haddressable' : config'.Addressable) (hvalid : config.validate = .ok ())
    (hvalid' : config'.validate = .ok ()) (h : config.encode = config'.encode) : config = config' := by
  have hdecode := decode_encode haddressable
  rw [h, decode_encode haddressable', hvalid, hvalid'] at hdecode
  exact (Except.ok.inj hdecode).symm

theorem checkCompatible_eq_ok {config candidate : EngineConfig}
    (h : config.checkCompatible candidate = .ok ()) : config = candidate := by
  unfold checkCompatible at h
  obtain ⟨_, _, h⟩ := except_bind_eq_ok.mp h
  obtain ⟨_, _, h⟩ := except_bind_eq_ok.mp h
  split at h
  · cases h
  next hsame => exact not_not.mp hsame

variable {ACCOUNTS RISK_ORDERS LEVELS ORDERS REPORTS : ℕ}

/-- A restore has found the configuration asked for in the sidecar. -/
theorem restoreConfigured_eq_ok {crc32c : Bytes → U32} {sha256 : Bytes → Digest} {expected : EngineConfig}
    {persisted snapshot tail : Bytes} {builder : EngineBuilder ACCOUNTS RISK_ORDERS LEVELS ORDERS}
    (h : EngineBuilder.restoreConfigured REPORTS crc32c sha256 expected persisted snapshot tail =
      .ok (.ok builder)) :
    decode persisted = .ok expected ∧ ∃ restored,
      EngineBuilder.restore REPORTS crc32c sha256 expected.instrument snapshot tail = .ok (.ok restored) ∧
      builder = { restored with configuration := expected } := by
  unfold EngineBuilder.restoreConfigured at h
  split at h
  · cases h
  next stored hdecode =>
  split at h
  · cases h
  next hexpected =>
  obtain rfl := checkCompatible_eq_ok hexpected
  split at h
  · cases h
  obtain ⟨start, _, h⟩ := Run.bind_eq_ok.mp h
  split at h
  · cases h
  split at h
  · cases h
  obtain ⟨restored, hrestore, h⟩ := Run.bind_eq_ok.mp h
  split at h
  · cases h
  next restored =>
  exact ⟨hdecode, restored, hrestore, (Except.ok.inj (Except.ok.inj h)).symm⟩

/-- Encoding and decoding are inverse on valid configurations, invalid ones do not decode, and a sidecar
restores for no configuration but the one that it encodes. -/
theorem sidecar_roundTrip (crc32c : Bytes → U32) (sha256 : Bytes → Digest) :
    (∀ config : EngineConfig, config.Addressable →
      (config.validate = .ok () → decode config.encode = .ok config) ∧
        ∀ error, config.validate = .error error → decode config.encode = .error error) ∧
    (∀ (bytes : Bytes) (config : EngineConfig), decode bytes = .ok config →
      config.Addressable ∧ config.validate = .ok () ∧ config.encode = bytes) ∧
    (∀ config config' : EngineConfig, config.Addressable → config'.Addressable →
      config.validate = .ok () → config'.validate = .ok () → config.encode = config'.encode →
        config = config') ∧
    (∀ (ACCOUNTS RISK_ORDERS LEVELS ORDERS REPORTS : ℕ) (expected : EngineConfig)
      (persisted snapshot tail : Bytes) (builder : EngineBuilder ACCOUNTS RISK_ORDERS LEVELS ORDERS),
      EngineBuilder.restoreConfigured REPORTS crc32c sha256 expected persisted snapshot tail =
        .ok (.ok builder) →
      expected.encode = persisted ∧ builder.configuration = expected ∧
        ∀ (ACCOUNTS' RISK_ORDERS' LEVELS' ORDERS' REPORTS' : ℕ) (expected' : EngineConfig)
          (snapshot' tail' : Bytes) (builder' : EngineBuilder ACCOUNTS' RISK_ORDERS' LEVELS' ORDERS'),
          EngineBuilder.restoreConfigured REPORTS' crc32c sha256 expected' persisted snapshot' tail' =
            .ok (.ok builder') → expected' = expected) := by
  refine ⟨?_, fun _ _ ↦ decode_eq_ok, fun _ _ ↦ encode_injective, ?_⟩
  · intro config haddressable
    have hdecode := decode_encode haddressable
    refine ⟨fun hvalid ↦ ?_, fun error hinvalid ↦ ?_⟩
    · rw [hdecode, hvalid]
      rfl
    · rw [hdecode, hinvalid]
      rfl
  · intro ACCOUNTS RISK_ORDERS LEVELS ORDERS REPORTS expected persisted snapshot tail builder h
    obtain ⟨hdecode, restored, _, rfl⟩ := restoreConfigured_eq_ok h
    refine ⟨(decode_eq_ok hdecode).2.2, rfl, ?_⟩
    intro _ _ _ _ _ expected' snapshot' tail' builder' h'
    obtain ⟨hdecode', _⟩ := restoreConfigured_eq_ok h'
    exact Except.ok.inj (hdecode'.symm.trans hdecode)

/-! ## The sidecar of the smallest engine -/

def sampleConfig : EngineConfig := EngineBuilder.sampleBuilder.configuration

def sampleDigest : Bytes → Digest := fun _ ↦ ⟨List.replicate 32 0, rfl⟩

example : fromUtf8 sampleConfig.encode =
    some "HFTCONFIG 1 2 1 1\n1 1 1 1 1 1\n7 10 1000 10 5 1 100\n".toList := by decide

set_option maxRecDepth 4000 in
theorem sampleSnapshot_returns :
    ((encodeSnapshot sampleDigest EngineBuilder.sampleBuilder.gateway 0).toOption.bind
      Except.toOption).isSome = true := by decide

def sampleSnapshot : Snapshot :=
  ((encodeSnapshot sampleDigest EngineBuilder.sampleBuilder.gateway 0).toOption.bind
    Except.toOption).get sampleSnapshot_returns

set_option maxRecDepth 4000 in
theorem sampleConfig_restores :
    ((EngineBuilder.restoreConfigured 1 (fun _ ↦ 0) sampleDigest sampleConfig sampleConfig.encode
      sampleSnapshot.bytes [] : Run (Except BuildError (EngineBuilder 1 1 1 1))).toOption.bind
        Except.toOption).isSome = true := by decide

theorem sidecar_roundTrip_sample :
    decode sampleConfig.encode = .ok sampleConfig ∧
      ∃ builder : EngineBuilder 1 1 1 1,
        EngineBuilder.restoreConfigured 1 (fun _ ↦ 0) sampleDigest sampleConfig sampleConfig.encode
          sampleSnapshot.bytes [] = .ok (.ok builder) ∧ builder.configuration = sampleConfig := by
  obtain ⟨hencode, _, _, hrestore⟩ := sidecar_roundTrip (fun _ ↦ 0) sampleDigest
  have haddressable : sampleConfig.Addressable := by
    intro capacity hcapacity
    have hone : capacity = 1 := by
      have hmem : capacity ∈ sampleConfig.capacities.toList := Vector.mem_toList_iff.mpr hcapacity
      have hones : sampleConfig.capacities.toList = List.replicate 5 1 := by decide
      exact List.eq_of_mem_replicate (hones ▸ hmem)
    rw [hone]
    norm_num
  have hvalid : sampleConfig.validate = .ok () := by decide
  have hbuilder := Run.eq_ok_ok_get sampleConfig_restores
  exact ⟨(hencode _ haddressable).1 hvalid, _, hbuilder, (hrestore _ _ _ _ _ _ _ _ _ _ hbuilder).2.1⟩

end EngineConfig

end DeterministicExchange
