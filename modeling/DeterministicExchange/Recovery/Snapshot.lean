import DeterministicExchange.Codec.Reader
import DeterministicExchange.Gateway.State

/-!
# Snapshots

The versioned snapshot of `hft-recovery`: a header of fixed layout with a digest
over the rest of the file, and the exported state of a gateway in canonical
order. Encoder and decoder are separate code, as in the source. The digest
function is a parameter; nothing depends on what it computes.
-/

namespace DeterministicExchange.Recovery

open Machine Codec Book Risk

def formatVersion : U16 := 1
def headerSize : ℕ := 96
def hashAlgorithmSha256 : U16 := 1
def digestOffset : ℕ := 52
def digestSize : ℕ := 32

/-- The bytes of an ASCII string. -/
def ascii (text : String) : Bytes :=
  text.toList.map fun c ↦ ⟨c.toNat % 2 ^ 8, Nat.mod_lt _ (Nat.two_pow_pos 8)⟩

def magic : Bytes := ascii "HFTSNAP\x00"
def domain : Bytes := ascii "deterministic-exchange snapshot v1\x00"

abbrev Digest := {bytes : Bytes // bytes.length = digestSize}

inductive SnapshotError where
  | truncated
  | trailingBytes
  | badMagic
  | unsupportedVersion (found : U16)
  | unsupportedFlags (found : U32)
  | unsupportedHash (found : U16)
  | headerLength (found : U16)
  | digestLength (found : U16)
  | lengthOverflow
  | capacityMismatch
  | integrityMismatch
  | invalidBoolean
  | invalidSide
  | invalidCount
  | invalidSequence
  | nonCanonical
  | gatewayState (error : GatewayStateError)
  deriving DecidableEq, Repr

structure Snapshot where
  bytes : Bytes
  digest : Digest
  appliedSequence : U64
  deriving DecidableEq

structure DecodedSnapshot (ACCOUNTS RISK_ORDERS LEVELS ORDERS_PER_LEVEL : ℕ) where
  gateway : Gateway ACCOUNTS RISK_ORDERS LEVELS ORDERS_PER_LEVEL
  appliedSequence : U64
  digest : Digest

/-! ## Encoding of the state -/

def sideTag : Side → U8
  | .buy => 1
  | .sell => 2

def encodeBoolean (value : Bool) : Bytes := [if value then 1 else 0]

def encodeOptionalOrder (value : Option OrderId) : Bytes :=
  encodeBoolean value.isSome ++ encodeUnsigned (value.getD 0)

def writeCount (value : ℕ) : Except SnapshotError Bytes :=
  (okOr .lengthOverflow (Unsigned.ofNat? 32 value)).map encodeUnsigned

def encodeAccount (account : AccountRiskState) : Bytes :=
  encodeUnsigned account.id ++ encodeUnsigned account.limits.maxQuantity ++
    encodeUnsigned account.limits.maxNotional ++ encodeUnsigned account.limits.maxAbsPosition ++
    encodeUnsigned account.limits.maxOpenOrders ++ encodeSigned account.limits.minimumPrice ++
    encodeSigned account.limits.maximumPrice ++ encodeSigned account.settledPosition ++
    encodeUnsigned account.reservedBuys ++ encodeUnsigned account.reservedSells ++
    encodeUnsigned account.openOrders ++ encodeBoolean account.killed

def encodeReservation (reservation : ReservationRiskState) : Bytes :=
  encodeUnsigned reservation.orderId ++ encodeUnsigned reservation.accountId ++
    [sideTag reservation.side] ++ encodeUnsigned reservation.quantity

def encodeOrder (order : BookOrderState) : Bytes :=
  encodeUnsigned order.orderId ++ encodeUnsigned order.accountId ++ [sideTag order.side] ++
    encodeSigned order.price ++ encodeUnsigned order.quantity ++ encodeUnsigned order.sequence

section Encode

variable {LEVELS ORDERS : ℕ}

def encodeLevels : List (BookLevelState ORDERS) → Run (Except SnapshotError Bytes)
  | [] => .ok (.ok [])
  | level :: levels =>
    match writeCount level.orderCount with
    | .error error => .ok (.error error)
    | .ok count => do
      let orders ← Run.sliceTo level.orders level.orderCount
      match ← encodeLevels levels with
      | .error error => return .error error
      | .ok rest =>
        return .ok ([sideTag level.side] ++ encodeSigned level.price ++ count ++
          orders.flatMap encodeOrder ++ rest)

/-- The fields up to and including the counts. -/
def encodePreamble (state : GatewayState LEVELS ORDERS) : Except SnapshotError Bytes := do
  let accounts ← writeCount state.risk.accounts.length
  let reservations ← writeCount state.risk.reservations.length
  let bids ← writeCount state.book.bidLevelCount
  let asks ← writeCount state.book.askLevelCount
  return encodeUnsigned state.instrument ++ encodeUnsigned state.expectedSequence ++
    encodeOptionalOrder state.maximumReceivedOrderId ++ encodeOptionalOrder state.risk.maximumOrderId ++
    encodeBoolean state.risk.killed ++ accounts ++ reservations ++ bids ++ asks

def encodeGatewayState (state : GatewayState LEVELS ORDERS) : Run (Except SnapshotError Bytes) :=
  match encodePreamble state with
  | .error error => .ok (.error error)
  | .ok preamble => do
    let bids ← Run.sliceTo state.book.bids state.book.bidLevelCount
    match ← encodeLevels bids with
    | .error error => return .error error
    | .ok bids =>
      let asks ← Run.sliceTo state.book.asks state.book.askLevelCount
      match ← encodeLevels asks with
      | .error error => return .error error
      | .ok asks =>
        return .ok (preamble ++ state.risk.accounts.flatMap encodeAccount ++
          state.risk.reservations.flatMap encodeReservation ++ bids ++ asks)

end Encode

/-! ## Decoding of the state -/

abbrev Input := Reader SnapshotError

namespace Input

def take (len : ℕ) : Input Bytes := Reader.take .truncated len

def u8 : Input U8 := decodeUnsigned 8 <$> take 1
def u32 : Input U32 := decodeUnsigned 32 <$> take 4
def u64 : Input U64 := decodeUnsigned 64 <$> take 8
def u128 : Input U128 := decodeUnsigned 128 <$> take 16
def i64 : Input I64 := decodeI64 <$> take 8
def i128 : Input I128 := decodeI128 <$> take 16

def boolean : Input Bool := do
  let tag ← u8
  if tag = 0 then return false
  else if tag = 1 then return true
  else throw .invalidBoolean

def side : Input Side := do
  let tag ← u8
  if tag = 1 then return .buy
  else if tag = 2 then return .sell
  else throw .invalidSide

def count : Input ℕ := do
  let value ← u32
  return value.val

def optionalOrder : Input (Option OrderId) := do
  let isPresent ← boolean
  let value ← u64
  if isPresent then return some value
  else if value = 0 then return none
  else throw .nonCanonical

def account : Input AccountRiskState := do
  let id ← u32
  let maxQuantity ← u64
  let maxNotional ← u128
  let maxAbsPosition ← u64
  let maxOpenOrders ← u32
  let minimumPrice ← i64
  let maximumPrice ← i64
  let settledPosition ← i128
  let reservedBuys ← u128
  let reservedSells ← u128
  let openOrders ← u32
  let killed ← boolean
  return ⟨id, ⟨maxQuantity, maxNotional, maxAbsPosition, maxOpenOrders, minimumPrice, maximumPrice⟩,
    settledPosition, reservedBuys, reservedSells, openOrders, killed⟩

def reservation : Input ReservationRiskState := do
  let orderId ← u64
  let accountId ← u32
  let side ← side
  let quantity ← u64
  return ⟨orderId, accountId, side, quantity⟩

def order : Input BookOrderState := do
  let orderId ← u64
  let accountId ← u32
  let side ← side
  let price ← i64
  let quantity ← u64
  let sequence ← u64
  return ⟨orderId, accountId, side, price, quantity, sequence⟩

def level (ORDERS : ℕ) : Input (BookLevelState ORDERS) := do
  let side ← side
  let price ← i64
  let orderCount ← count
  if ORDERS < orderCount then throw .invalidCount
  else do
    let orders ← order.times orderCount
    return ⟨side, price, orderCount, pad ORDERS emptyBookOrderState orders⟩

def gatewayState (ACCOUNTS RISK_ORDERS LEVELS ORDERS : ℕ) : Input (GatewayState LEVELS ORDERS) := do
  let instrument ← u32
  let expectedSequence ← u64
  let maximumReceivedOrderId ← optionalOrder
  let riskMaximumOrderId ← optionalOrder
  let killed ← boolean
  let accountCount ← count
  let reservationCount ← count
  let bidCount ← count
  let askCount ← count
  if ACCOUNTS < accountCount ∨ RISK_ORDERS < reservationCount ∨ LEVELS < bidCount ∨ LEVELS < askCount then
    throw .invalidCount
  else do
    let accounts ← account.times accountCount
    let reservations ← reservation.times reservationCount
    let bids ← (level ORDERS).times bidCount
    let asks ← (level ORDERS).times askCount
    return {
      instrument
      book := {
        instrument
        bidLevelCount := bidCount
        bids := pad LEVELS (emptyBookLevelState ORDERS) bids
        askLevelCount := askCount
        asks := pad LEVELS (emptyBookLevelState ORDERS) asks }
      risk := { accounts, reservations, maximumOrderId := riskMaximumOrderId, killed }
      expectedSequence
      maximumReceivedOrderId }

end Input

def decodeGatewayState (ACCOUNTS RISK_ORDERS : ℕ) {LEVELS ORDERS : ℕ} (payload : Bytes) :
    Except SnapshotError (GatewayState LEVELS ORDERS) :=
  match (Input.gatewayState ACCOUNTS RISK_ORDERS LEVELS ORDERS).run payload with
  | .error error => .error error
  | .ok (state, rest) => if rest ≠ [] then .error .trailingBytes else .ok state

/-! ## The container -/

def capacity (N : ℕ) : Except SnapshotError U32 := okOr .lengthOverflow (Unsigned.ofNat? 32 N)

/-- The header with `digest` in the place of its digest. -/
def header (payloadLen appliedSequence : U64) (accounts riskOrders levels orders : U32) (digest : Digest) :
    Bytes :=
  magic ++ encodeUnsigned formatVersion ++ encodeUnsigned (96 : U16) ++ encodeUnsigned (0 : U32) ++
    encodeUnsigned hashAlgorithmSha256 ++ encodeUnsigned (32 : U16) ++ encodeUnsigned payloadLen ++
    encodeUnsigned appliedSequence ++ encodeUnsigned accounts ++ encodeUnsigned riskOrders ++
    encodeUnsigned levels ++ encodeUnsigned orders ++ digest.val ++ List.replicate 12 0

section Container

variable (sha256 : Bytes → Digest) (ACCOUNTS RISK_ORDERS LEVELS ORDERS_PER_LEVEL : ℕ)

/-- The digest covers a header whose own digest is blank. -/
def snapshotDigest (header payload : Bytes) : Digest :=
  sha256 (domain ++
    (header.take digestOffset ++ List.replicate digestSize 0 ++ header.drop (digestOffset + digestSize)) ++
    payload)

def sealPayload (payload : Bytes) (appliedSequence : U64) : Except SnapshotError Snapshot := do
  let payloadLen ← okOr .lengthOverflow (Unsigned.ofNat? 64 payload.length)
  let accounts ← capacity ACCOUNTS
  let riskOrders ← capacity RISK_ORDERS
  let levels ← capacity LEVELS
  let orders ← capacity ORDERS_PER_LEVEL
  let blank := header payloadLen appliedSequence accounts riskOrders levels orders
    ⟨List.replicate digestSize 0, List.length_replicate⟩
  let digest := snapshotDigest sha256 blank payload
  return ⟨header payloadLen appliedSequence accounts riskOrders levels orders digest ++ payload, digest,
    appliedSequence⟩

def checkCapacity (N : ℕ) (found : U32) : Except SnapshotError Unit := do
  let expected ← capacity N
  if found ≠ expected then .error .capacityMismatch else return ()

def checkCapacities (header : Bytes) : Except SnapshotError Unit := do
  checkCapacity ACCOUNTS (decodeUnsigned 32 (slice header 36 4))
  checkCapacity RISK_ORDERS (decodeUnsigned 32 (slice header 40 4))
  checkCapacity LEVELS (decodeUnsigned 32 (slice header 44 4))
  checkCapacity ORDERS_PER_LEVEL (decodeUnsigned 32 (slice header 48 4))

/-- The checks of a header alone; the length of the payload. -/
def checkHeader (header : Bytes) : Except SnapshotError U64 :=
  let version := decodeUnsigned 16 (slice header 8 2)
  let headerLen := decodeUnsigned 16 (slice header 10 2)
  let flags := decodeUnsigned 32 (slice header 12 4)
  let hash := decodeUnsigned 16 (slice header 16 2)
  let digestLen := decodeUnsigned 16 (slice header 18 2)
  if slice header 0 8 ≠ magic then .error .badMagic
  else if version ≠ formatVersion then .error (.unsupportedVersion version)
  else if headerLen.val ≠ headerSize then .error (.headerLength headerLen)
  else if flags ≠ 0 then .error (.unsupportedFlags flags)
  else if hash ≠ hashAlgorithmSha256 then .error (.unsupportedHash hash)
  else if digestLen.val ≠ digestSize then .error (.digestLength digestLen)
  else .ok (decodeUnsigned 64 (slice header 20 8))

/-- The checks of the container: the applied sequence, the stored digest and the payload. -/
def openContainer (bytes : Bytes) : Except SnapshotError (U64 × Digest × Bytes) :=
  if hlen : bytes.length < headerSize then .error .truncated
  else do
    let header := slice bytes 0 headerSize
    let payloadLen ← checkHeader header
    let total ← okOr .lengthOverflow (Unsigned.ofNat? 64 (headerSize + payloadLen.val))
    if bytes.length < total.val then .error .truncated
    else if total.val < bytes.length then .error .trailingBytes
    else do
      checkCapacities ACCOUNTS RISK_ORDERS LEVELS ORDERS_PER_LEVEL header
      if (slice header 84 12).any (· ≠ 0) then .error .nonCanonical
      else
        let payload := bytes.drop headerSize
        let storedDigest : Digest := ⟨slice header digestOffset digestSize, length_slice (by
          rw [length_slice (by omega)]
          decide)⟩
        if snapshotDigest sha256 header payload ≠ storedDigest then .error .integrityMismatch
        else .ok (decodeUnsigned 64 (slice header 28 8), storedDigest, payload)

variable {ACCOUNTS RISK_ORDERS LEVELS ORDERS_PER_LEVEL}

/-- Encodes one gateway state in canonical order, at a journal cut that matches its sequence. -/
def encodeSnapshot (gateway : Gateway ACCOUNTS RISK_ORDERS LEVELS ORDERS_PER_LEVEL)
    (appliedSequence : U64) : Run (Except SnapshotError Snapshot) := do
  let state ← gateway.exportState
  match Unsigned.checkedAdd appliedSequence 1 with
  | none => return .error .invalidSequence
  | some next =>
    if state.expectedSequence ≠ next then return .error .invalidSequence
    else
      match ← encodeGatewayState state with
      | .error error => return .error error
      | .ok payload =>
        return sealPayload sha256 ACCOUNTS RISK_ORDERS LEVELS ORDERS_PER_LEVEL payload appliedSequence

/-- The state in a snapshot, before it is restored. -/
def decodeState (ACCOUNTS RISK_ORDERS : ℕ) (bytes : Bytes) :
    Except SnapshotError (GatewayState LEVELS ORDERS_PER_LEVEL × U64 × Digest) := do
  let (appliedSequence, digest, payload) ←
    openContainer sha256 ACCOUNTS RISK_ORDERS LEVELS ORDERS_PER_LEVEL bytes
  let state ← decodeGatewayState ACCOUNTS RISK_ORDERS payload
  let next ← okOr .invalidSequence (Unsigned.checkedAdd appliedSequence 1)
  if state.expectedSequence ≠ next then .error .invalidSequence
  else return (state, appliedSequence, digest)

/-- Verifies and restores a canonical snapshot. -/
def decodeSnapshot (bytes : Bytes) :
    Run (Except SnapshotError (DecodedSnapshot ACCOUNTS RISK_ORDERS LEVELS ORDERS_PER_LEVEL)) :=
  match decodeState sha256 ACCOUNTS RISK_ORDERS bytes with
  | .error error => .ok (.error error)
  | .ok (state, appliedSequence, digest) => do
    match ← Gateway.fromState ACCOUNTS RISK_ORDERS state with
    | .error error => return .error (.gatewayState error)
    | .ok gateway => return .ok ⟨gateway, appliedSequence, digest⟩

end Container

end DeterministicExchange.Recovery
