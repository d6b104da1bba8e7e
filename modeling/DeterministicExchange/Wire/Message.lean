import DeterministicExchange.Codec.Bytes
import DeterministicExchange.Types

/-!
# Wire messages

The fixed-layout message format of `hft-wire`. A frame is parsed into a borrowed
message that keeps its bytes; the typed fields are read from fixed offsets. Every
indexed read is bounds-checked and faults outside the frame.
-/

namespace DeterministicExchange.Wire

open Machine Codec

def protocolVersion : U8 := 2
def newOrderType : U8 := 1
def cancelOrderType : U8 := 2
def replaceOrderType : U8 := 3
def newOrderLen : ℕ := 46
def cancelOrderLen : ℕ := 28
def replaceOrderLen : ℕ := 44

inductive ParseError where
  | truncatedHeader
  | unsupportedVersion
  | unknownMessageType
  | invalidLength
  | invalidSide
  | invalidTimeInForce
  deriving DecidableEq, Repr

/-- The tag `Side::Buy as u8` or `Side::Sell as u8`. -/
def sideTag : Side → U8
  | .buy => 1
  | .sell => 2

def timeInForceTag : TimeInForce → U8
  | .gtc => 1
  | .ioc => 2
  | .fok => 3
  | .postOnly => 4

inductive BorrowedMessage where
  | newOrder (bytes : Bytes)
  | cancelOrder (bytes : Bytes)
  | replaceOrder (bytes : Bytes)
  deriving DecidableEq, Repr

def readU16 (bytes : Bytes) (offset : ℕ) : Run U16 :=
  (range bytes offset 2).map (decodeUnsigned 16)

def readU32 (bytes : Bytes) (offset : ℕ) : Run U32 :=
  (range bytes offset 4).map (decodeUnsigned 32)

def readU64 (bytes : Bytes) (offset : ℕ) : Run U64 :=
  (range bytes offset 8).map (decodeUnsigned 64)

def readI64 (bytes : Bytes) (offset : ℕ) : Run I64 :=
  (range bytes offset 8).map decodeI64

/-- The time in force of a tag; the last arm catches every other byte. -/
def timeInForceOfTag (tag : U8) : TimeInForce :=
  if tag = timeInForceTag .gtc then .gtc
  else if tag = timeInForceTag .ioc then .ioc
  else if tag = timeInForceTag .fok then .fok
  else .postOnly

def sideOfTag (tag : U8) : Side := if tag = sideTag .buy then .buy else .sell

def newOrderToOwned (b : Bytes) : Run NewOrder := do
  let timeInForce ← byteAt b 45
  let orderId ← readU64 b 4
  let accountId ← readU32 b 12
  let instrumentId ← readU32 b 16
  let price ← readI64 b 20
  let quantity ← readU64 b 28
  let sequence ← readU64 b 36
  let side ← byteAt b 44
  return { orderId, accountId, instrumentId, price, quantity, sequence,
           side := sideOfTag side, timeInForce := timeInForceOfTag timeInForce }

def cancelOrderToOwned (b : Bytes) : Run CancelOrder := do
  let orderId ← readU64 b 4
  let accountId ← readU32 b 12
  let instrumentId ← readU32 b 16
  let sequence ← readU64 b 20
  return { orderId, accountId, instrumentId, sequence }

def replaceOrderToOwned (b : Bytes) : Run ReplaceOrder := do
  let orderId ← readU64 b 4
  let accountId ← readU32 b 12
  let instrumentId ← readU32 b 16
  let sequence ← readU64 b 20
  let price ← readI64 b 28
  let quantity ← readU64 b 36
  return { orderId, accountId, instrumentId, sequence, price, quantity }

def BorrowedMessage.sequence : BorrowedMessage → Run SequenceNumber
  | .newOrder b => readU64 b 36
  | .cancelOrder b => readU64 b 20
  | .replaceOrder b => readU64 b 20

def BorrowedMessage.toCommand : BorrowedMessage → Run Command
  | .newOrder b => return .newOrder (← newOrderToOwned b)
  | .cancelOrder b => return .cancelOrder (← cancelOrderToOwned b)
  | .replaceOrder b => return .replaceOrder (← replaceOrderToOwned b)

/-- The typed view of a frame whose length was checked. -/
def newOrderView (bytes : Bytes) : Run BorrowedMessage :=
  if bytes.length = newOrderLen then .ok (.newOrder bytes)
  else .error (.expect "length proven equal above")

def parseMessage (bytes : Bytes) : Run (Except ParseError BorrowedMessage) :=
  if bytes.length < 4 then .ok (.error .truncatedHeader)
  else do
    let version ← byteAt bytes 0
    if version ≠ protocolVersion then return .error .unsupportedVersion
    let declared ← readU16 bytes 2
    if bytes.length ≠ declared.val then return .error .invalidLength
    let messageType ← byteAt bytes 1
    if messageType = newOrderType then
      if declared.val ≠ newOrderLen then return .error .invalidLength
      let side ← byteAt bytes 44
      if side ≠ sideTag .buy ∧ side ≠ sideTag .sell then return .error .invalidSide
      let timeInForce ← byteAt bytes 45
      if timeInForce ≠ timeInForceTag .gtc ∧ timeInForce ≠ timeInForceTag .ioc ∧
          timeInForce ≠ timeInForceTag .fok ∧ timeInForce ≠ timeInForceTag .postOnly then
        return .error .invalidTimeInForce
      return .ok (← newOrderView bytes)
    else if messageType = cancelOrderType then
      if declared.val ≠ cancelOrderLen then return .error .invalidLength
      return .ok (.cancelOrder bytes)
    else if messageType = replaceOrderType then
      if declared.val ≠ replaceOrderLen then return .error .invalidLength
      return .ok (.replaceOrder bytes)
    else return .error .unknownMessageType

/-- Version, type and declared length. -/
def encodeHeader (messageType : U8) (len : ℕ) : Bytes :=
  [protocolVersion, messageType] ++ beBytes 2 len

def encodeNewOrder (order : NewOrder) : Bytes :=
  encodeHeader newOrderType newOrderLen ++ encodeUnsigned order.orderId ++
    encodeUnsigned order.accountId ++ encodeUnsigned order.instrumentId ++ encodeSigned order.price ++
    encodeUnsigned order.quantity ++ encodeUnsigned order.sequence ++
    [sideTag order.side, timeInForceTag order.timeInForce]

def encodeCancelOrder (cancel : CancelOrder) : Bytes :=
  encodeHeader cancelOrderType cancelOrderLen ++ encodeUnsigned cancel.orderId ++
    encodeUnsigned cancel.accountId ++ encodeUnsigned cancel.instrumentId ++
    encodeUnsigned cancel.sequence

def encodeReplaceOrder (replace : ReplaceOrder) : Bytes :=
  encodeHeader replaceOrderType replaceOrderLen ++ encodeUnsigned replace.orderId ++
    encodeUnsigned replace.accountId ++ encodeUnsigned replace.instrumentId ++
    encodeUnsigned replace.sequence ++ encodeSigned replace.price ++ encodeUnsigned replace.quantity

/-- The frame a command is sent as. -/
def encodeCommand : Command → Bytes
  | .newOrder order => encodeNewOrder order
  | .cancelOrder cancel => encodeCancelOrder cancel
  | .replaceOrder replace => encodeReplaceOrder replace

end DeterministicExchange.Wire
