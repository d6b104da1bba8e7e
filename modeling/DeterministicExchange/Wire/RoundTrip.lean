import DeterministicExchange.Wire.Message

/-!
# Parsing inverts encoding

The parser accepts exactly the frames the encoders produce. In one direction the
fields are read back from the encoded frame; in the other an accepted frame is cut
at the field boundaries, and every piece is the encoding of the field read there.
-/

namespace DeterministicExchange.Wire

open Machine Codec

@[simp] theorem length_encodeHeader (messageType : U8) (len : ℕ) :
    (encodeHeader messageType len).length = 4 := by simp [encodeHeader]

@[simp] theorem length_encodeNewOrder (order : NewOrder) :
    (encodeNewOrder order).length = newOrderLen := by
  simp [encodeNewOrder, newOrderLen]

@[simp] theorem length_encodeCancelOrder (cancel : CancelOrder) :
    (encodeCancelOrder cancel).length = cancelOrderLen := by
  simp [encodeCancelOrder, cancelOrderLen]

@[simp] theorem length_encodeReplaceOrder (replace : ReplaceOrder) :
    (encodeReplaceOrder replace).length = replaceOrderLen := by
  simp [encodeReplaceOrder, replaceOrderLen]

/-! ## Reading an encoded frame -/

@[simp] theorem timeInForceOfTag_timeInForceTag (timeInForce : TimeInForce) :
    timeInForceOfTag (timeInForceTag timeInForce) = timeInForce := by
  cases timeInForce <;> rfl

@[simp] theorem sideOfTag_sideTag (side : Side) : sideOfTag (sideTag side) = side := by
  cases side <;> rfl

theorem readU32_of_slice {bytes : Bytes} {offset : ℕ} {a : U32} (h : offset + 4 ≤ bytes.length)
    (hslice : slice bytes offset 4 = encodeUnsigned a) : readU32 bytes offset = .ok a := by
  unfold readU32
  rw [range_of_le h, hslice, Except.map, decodeUnsigned_encodeUnsigned (by decide)]

theorem readU64_of_slice {bytes : Bytes} {offset : ℕ} {a : U64} (h : offset + 8 ≤ bytes.length)
    (hslice : slice bytes offset 8 = encodeUnsigned a) : readU64 bytes offset = .ok a := by
  unfold readU64
  rw [range_of_le h, hslice, Except.map, decodeUnsigned_encodeUnsigned (by decide)]

theorem readI64_of_slice {bytes : Bytes} {offset : ℕ} {a : I64} (h : offset + 8 ≤ bytes.length)
    (hslice : slice bytes offset 8 = encodeSigned a) : readI64 bytes offset = .ok a := by
  unfold readI64
  rw [range_of_le h, hslice, Except.map, decodeI64_encodeSigned]

theorem newOrderToOwned_encodeNewOrder (order : NewOrder) :
    newOrderToOwned (encodeNewOrder order) = .ok order := by
  have hlen := length_encodeNewOrder order
  unfold newOrderLen at hlen
  have horder : readU64 (encodeNewOrder order) 4 = .ok order.orderId := by
    apply readU64_of_slice (by omega)
    simp [encodeNewOrder, slice_skip, slice_head]
  have haccount : readU32 (encodeNewOrder order) 12 = .ok order.accountId := by
    apply readU32_of_slice (by omega)
    simp [encodeNewOrder, slice_skip, slice_head]
  have hinstrument : readU32 (encodeNewOrder order) 16 = .ok order.instrumentId := by
    apply readU32_of_slice (by omega)
    simp [encodeNewOrder, slice_skip, slice_head]
  have hprice : readI64 (encodeNewOrder order) 20 = .ok order.price := by
    apply readI64_of_slice (by omega)
    simp [encodeNewOrder, slice_skip, slice_head]
  have hquantity : readU64 (encodeNewOrder order) 28 = .ok order.quantity := by
    apply readU64_of_slice (by omega)
    simp [encodeNewOrder, slice_skip, slice_head]
  have hsequence : readU64 (encodeNewOrder order) 36 = .ok order.sequence := by
    apply readU64_of_slice (by omega)
    simp [encodeNewOrder, slice_skip, slice_head]
  have hside : byteAt (encodeNewOrder order) 44 = .ok (sideTag order.side) := by
    rw [encodeNewOrder, byteAt_skip (by simp)]
    simp [byteAt]
  have htif : byteAt (encodeNewOrder order) 45 = .ok (timeInForceTag order.timeInForce) := by
    rw [encodeNewOrder, byteAt_skip (by simp)]
    simp [byteAt]
  simp [newOrderToOwned, horder, haccount, hinstrument, hprice, hquantity, hsequence, hside, htif]

theorem cancelOrderToOwned_encodeCancelOrder (cancel : CancelOrder) :
    cancelOrderToOwned (encodeCancelOrder cancel) = .ok cancel := by
  have hlen := length_encodeCancelOrder cancel
  unfold cancelOrderLen at hlen
  have horder : readU64 (encodeCancelOrder cancel) 4 = .ok cancel.orderId := by
    apply readU64_of_slice (by omega)
    simp [encodeCancelOrder, slice_skip, slice_head]
  have haccount : readU32 (encodeCancelOrder cancel) 12 = .ok cancel.accountId := by
    apply readU32_of_slice (by omega)
    simp [encodeCancelOrder, slice_skip, slice_head]
  have hinstrument : readU32 (encodeCancelOrder cancel) 16 = .ok cancel.instrumentId := by
    apply readU32_of_slice (by omega)
    simp [encodeCancelOrder, slice_skip, slice_head]
  have hsequence : readU64 (encodeCancelOrder cancel) 20 = .ok cancel.sequence := by
    apply readU64_of_slice (by omega)
    simp [encodeCancelOrder, slice_skip, slice_self]
  simp [cancelOrderToOwned, horder, haccount, hinstrument, hsequence]

theorem replaceOrderToOwned_encodeReplaceOrder (replace : ReplaceOrder) :
    replaceOrderToOwned (encodeReplaceOrder replace) = .ok replace := by
  have hlen := length_encodeReplaceOrder replace
  unfold replaceOrderLen at hlen
  have horder : readU64 (encodeReplaceOrder replace) 4 = .ok replace.orderId := by
    apply readU64_of_slice (by omega)
    simp [encodeReplaceOrder, slice_skip, slice_head]
  have haccount : readU32 (encodeReplaceOrder replace) 12 = .ok replace.accountId := by
    apply readU32_of_slice (by omega)
    simp [encodeReplaceOrder, slice_skip, slice_head]
  have hinstrument : readU32 (encodeReplaceOrder replace) 16 = .ok replace.instrumentId := by
    apply readU32_of_slice (by omega)
    simp [encodeReplaceOrder, slice_skip, slice_head]
  have hsequence : readU64 (encodeReplaceOrder replace) 20 = .ok replace.sequence := by
    apply readU64_of_slice (by omega)
    simp [encodeReplaceOrder, slice_skip, slice_head]
  have hprice : readI64 (encodeReplaceOrder replace) 28 = .ok replace.price := by
    apply readI64_of_slice (by omega)
    simp [encodeReplaceOrder, slice_skip, slice_head]
  have hquantity : readU64 (encodeReplaceOrder replace) 36 = .ok replace.quantity := by
    apply readU64_of_slice (by omega)
    simp [encodeReplaceOrder, slice_skip, slice_self]
  simp [replaceOrderToOwned, horder, haccount, hinstrument, hsequence, hprice, hquantity]

/-- The borrowed message a command's frame parses to. -/
def messageOf : Command → BorrowedMessage
  | .newOrder order => .newOrder (encodeNewOrder order)
  | .cancelOrder cancel => .cancelOrder (encodeCancelOrder cancel)
  | .replaceOrder replace => .replaceOrder (encodeReplaceOrder replace)

theorem toCommand_messageOf (command : Command) : (messageOf command).toCommand = .ok command := by
  cases command with
  | newOrder order =>
    simp [messageOf, BorrowedMessage.toCommand, newOrderToOwned_encodeNewOrder]
  | cancelOrder cancel =>
    simp [messageOf, BorrowedMessage.toCommand, cancelOrderToOwned_encodeCancelOrder]
  | replaceOrder replace =>
    simp [messageOf, BorrowedMessage.toCommand, replaceOrderToOwned_encodeReplaceOrder]

/-- The field read by `sequence` is the one read by `toCommand`. -/
theorem sequence_of_toCommand {message : BorrowedMessage} {command : Command}
    (h : message.toCommand = .ok command) : message.sequence = .ok command.sequence := by
  cases message with
  | newOrder b =>
    simp only [BorrowedMessage.toCommand, newOrderToOwned, Run.bind_eq_ok] at h
    obtain ⟨order, ⟨_, _, _, _, _, _, _, _, _, _, _, _, sequence, hsequence, _, _, horder⟩, hcommand⟩ := h
    cases horder
    cases hcommand
    exact hsequence
  | cancelOrder b =>
    simp only [BorrowedMessage.toCommand, cancelOrderToOwned, Run.bind_eq_ok] at h
    obtain ⟨cancel, ⟨_, _, _, _, _, _, sequence, hsequence, hcancel⟩, hcommand⟩ := h
    cases hcancel
    cases hcommand
    exact hsequence
  | replaceOrder b =>
    simp only [BorrowedMessage.toCommand, replaceOrderToOwned, Run.bind_eq_ok] at h
    obtain ⟨replace, ⟨_, _, _, _, _, _, sequence, hsequence, _, _, _, _, hreplace⟩, hcommand⟩ := h
    cases hreplace
    cases hcommand
    exact hsequence

/-! ## Accepted frames -/

/-- The first four bytes of a frame that passed the header checks. -/
theorem slice_header {bytes : Bytes} {messageType : U8} {declared : U16} (hlen : 4 ≤ bytes.length)
    (hversion : byteAt bytes 0 = .ok protocolVersion) (htype : byteAt bytes 1 = .ok messageType)
    (hdeclared : readU16 bytes 2 = .ok declared) :
    slice bytes 0 4 = encodeHeader messageType declared.val := by
  have hword : encodeUnsigned declared = slice bytes 2 2 := by
    unfold readU16 at hdeclared
    rw [range_of_le (by omega)] at hdeclared
    rw [← Except.ok.inj hdeclared]
    exact encodeUnsigned_decodeUnsigned (by decide) (length_slice (by omega))
  have hfirst := slice_one (byteAt_eq_ok.mp hversion)
  have hsecond := slice_one (byteAt_eq_ok.mp htype)
  calc slice bytes 0 4
      = slice bytes 0 1 ++ slice bytes 1 1 ++ slice bytes 2 2 := by
        rw [slice_append_slice bytes 0 1 1, slice_append_slice bytes 0 2 2]
    _ = encodeHeader messageType declared.val := by
        rw [hfirst, hsecond, ← hword]
        rfl

theorem sideTag_sideOfTag {tag : U8} (h : ¬ (tag ≠ sideTag .buy ∧ tag ≠ sideTag .sell)) :
    sideTag (sideOfTag tag) = tag := by
  unfold sideOfTag
  split <;> grind

theorem timeInForceTag_timeInForceOfTag {tag : U8}
    (h : ¬ (tag ≠ timeInForceTag .gtc ∧ tag ≠ timeInForceTag .ioc ∧ tag ≠ timeInForceTag .fok ∧
      tag ≠ timeInForceTag .postOnly)) :
    timeInForceTag (timeInForceOfTag tag) = tag := by
  unfold timeInForceOfTag
  split_ifs <;> grind

theorem readU32_of_le (bytes : Bytes) (offset : ℕ) (h : offset + 4 ≤ bytes.length) :
    ∃ a, readU32 bytes offset = .ok a ∧ encodeUnsigned a = slice bytes offset 4 := by
  refine ⟨decodeUnsigned 32 (slice bytes offset 4), ?_, ?_⟩
  · unfold readU32
    rw [range_of_le h]
    rfl
  · exact encodeUnsigned_decodeUnsigned (by decide) (length_slice h)

theorem readU64_of_le (bytes : Bytes) (offset : ℕ) (h : offset + 8 ≤ bytes.length) :
    ∃ a, readU64 bytes offset = .ok a ∧ encodeUnsigned a = slice bytes offset 8 := by
  refine ⟨decodeUnsigned 64 (slice bytes offset 8), ?_, ?_⟩
  · unfold readU64
    rw [range_of_le h]
    rfl
  · exact encodeUnsigned_decodeUnsigned (by decide) (length_slice h)

theorem readI64_of_le (bytes : Bytes) (offset : ℕ) (h : offset + 8 ≤ bytes.length) :
    ∃ a, readI64 bytes offset = .ok a ∧ encodeSigned a = slice bytes offset 8 := by
  refine ⟨decodeI64 (slice bytes offset 8), ?_, ?_⟩
  · unfold readI64
    rw [range_of_le h]
    rfl
  · exact encodeSigned_decodeI64 (length_slice h)

/-- A new-order frame is the encoding of the order read from it. -/
theorem newOrder_of_frame {bytes : Bytes} {side timeInForce : U8} (hlen : bytes.length = newOrderLen)
    (hheader : slice bytes 0 4 = encodeHeader newOrderType newOrderLen)
    (hside : byteAt bytes 44 = .ok side) (htif : byteAt bytes 45 = .ok timeInForce)
    (hsideTag : sideTag (sideOfTag side) = side)
    (htifTag : timeInForceTag (timeInForceOfTag timeInForce) = timeInForce) :
    ∃ order, newOrderToOwned bytes = .ok order ∧ encodeNewOrder order = bytes := by
  unfold newOrderLen at hlen
  obtain ⟨orderId, horder, hencOrder⟩ := readU64_of_le bytes 4 (by omega)
  obtain ⟨accountId, haccount, hencAccount⟩ := readU32_of_le bytes 12 (by omega)
  obtain ⟨instrumentId, hinstrument, hencInstrument⟩ := readU32_of_le bytes 16 (by omega)
  obtain ⟨price, hprice, hencPrice⟩ := readI64_of_le bytes 20 (by omega)
  obtain ⟨quantity, hquantity, hencQuantity⟩ := readU64_of_le bytes 28 (by omega)
  obtain ⟨sequence, hsequence, hencSequence⟩ := readU64_of_le bytes 36 (by omega)
  refine ⟨⟨orderId, accountId, instrumentId, price, quantity, sequence, sideOfTag side,
    timeInForceOfTag timeInForce⟩, ?_, ?_⟩
  · simp [newOrderToOwned, horder, haccount, hinstrument, hprice, hquantity, hsequence, hside, htif]
  · have htags : [side, timeInForce] = slice bytes 44 2 := by
      rw [← slice_append_slice bytes 44 1 1, slice_one (byteAt_eq_ok.mp hside),
        slice_one (byteAt_eq_ok.mp htif)]
      rfl
    unfold encodeNewOrder
    simp only [← hheader, hencOrder, hencAccount, hencInstrument, hencPrice, hencQuantity,
      hencSequence, hsideTag, htifTag, htags]
    simp only [slice_join]
    exact slice_self hlen

theorem cancelOrder_of_frame {bytes : Bytes} (hlen : bytes.length = cancelOrderLen)
    (hheader : slice bytes 0 4 = encodeHeader cancelOrderType cancelOrderLen) :
    ∃ cancel, cancelOrderToOwned bytes = .ok cancel ∧ encodeCancelOrder cancel = bytes := by
  unfold cancelOrderLen at hlen
  obtain ⟨orderId, horder, hencOrder⟩ := readU64_of_le bytes 4 (by omega)
  obtain ⟨accountId, haccount, hencAccount⟩ := readU32_of_le bytes 12 (by omega)
  obtain ⟨instrumentId, hinstrument, hencInstrument⟩ := readU32_of_le bytes 16 (by omega)
  obtain ⟨sequence, hsequence, hencSequence⟩ := readU64_of_le bytes 20 (by omega)
  refine ⟨⟨orderId, accountId, instrumentId, sequence⟩, ?_, ?_⟩
  · simp [cancelOrderToOwned, horder, haccount, hinstrument, hsequence]
  · unfold encodeCancelOrder
    simp only [← hheader, hencOrder, hencAccount, hencInstrument, hencSequence]
    simp only [slice_join]
    exact slice_self hlen

theorem replaceOrder_of_frame {bytes : Bytes} (hlen : bytes.length = replaceOrderLen)
    (hheader : slice bytes 0 4 = encodeHeader replaceOrderType replaceOrderLen) :
    ∃ replace, replaceOrderToOwned bytes = .ok replace ∧ encodeReplaceOrder replace = bytes := by
  unfold replaceOrderLen at hlen
  obtain ⟨orderId, horder, hencOrder⟩ := readU64_of_le bytes 4 (by omega)
  obtain ⟨accountId, haccount, hencAccount⟩ := readU32_of_le bytes 12 (by omega)
  obtain ⟨instrumentId, hinstrument, hencInstrument⟩ := readU32_of_le bytes 16 (by omega)
  obtain ⟨sequence, hsequence, hencSequence⟩ := readU64_of_le bytes 20 (by omega)
  obtain ⟨price, hprice, hencPrice⟩ := readI64_of_le bytes 28 (by omega)
  obtain ⟨quantity, hquantity, hencQuantity⟩ := readU64_of_le bytes 36 (by omega)
  refine ⟨⟨orderId, accountId, instrumentId, sequence, price, quantity⟩, ?_, ?_⟩
  · simp [replaceOrderToOwned, horder, haccount, hinstrument, hsequence, hprice, hquantity]
  · unfold encodeReplaceOrder
    simp only [← hheader, hencOrder, hencAccount, hencInstrument, hencSequence, hencPrice, hencQuantity]
    simp only [slice_join]
    exact slice_self hlen

/-! ## The parser -/

/-- The parser never faults; what it accepts reads as a command whose encoding is the frame. -/
theorem parseMessage_cases (bytes : Bytes) :
    (∃ error, parseMessage bytes = .ok (.error error)) ∨
    ∃ message command, parseMessage bytes = .ok (.ok message) ∧ message.toCommand = .ok command ∧
      encodeCommand command = bytes := by
  by_cases hshort : bytes.length < 4
  · exact .inl ⟨_, if_pos hshort⟩
  obtain ⟨version, hversion⟩ : ∃ version, byteAt bytes 0 = .ok version :=
    ⟨_, byteAt_of_lt (by omega)⟩
  obtain ⟨messageType, htype⟩ : ∃ messageType, byteAt bytes 1 = .ok messageType :=
    ⟨_, byteAt_of_lt (by omega)⟩
  obtain ⟨declared, hdeclared⟩ : ∃ declared, readU16 bytes 2 = .ok declared := by
    unfold readU16
    rw [range_of_le (by omega)]
    exact ⟨_, rfl⟩
  unfold parseMessage
  simp only [if_neg hshort, hversion, hdeclared, htype, Run.ok_bind, Run.pure_eq_ok]
  by_cases hprotocol : version = protocolVersion
  swap
  · exact .inl ⟨_, by rw [if_pos hprotocol]⟩
  subst hprotocol
  rw [if_neg (not_not_intro rfl)]
  by_cases hlength : bytes.length = declared.val
  swap
  · exact .inl ⟨_, by rw [if_pos hlength]⟩
  rw [if_neg (not_not_intro hlength)]
  have hheader := slice_header (by omega) hversion htype hdeclared
  by_cases hnew : messageType = newOrderType
  · subst hnew
    rw [if_pos rfl]
    by_cases hlen : declared.val = newOrderLen
    swap
    · exact .inl ⟨_, by rw [if_pos hlen]⟩
    rw [if_neg (not_not_intro hlen)]
    rw [hlen] at hlength hheader
    unfold newOrderLen at hlength
    obtain ⟨side, hside⟩ : ∃ side, byteAt bytes 44 = .ok side := ⟨_, byteAt_of_lt (by omega)⟩
    obtain ⟨tif, htif⟩ : ∃ tif, byteAt bytes 45 = .ok tif := ⟨_, byteAt_of_lt (by omega)⟩
    simp only [hside, htif, Run.ok_bind]
    split_ifs with hsideTag htifTag
    · exact .inl ⟨_, rfl⟩
    · exact .inl ⟨_, rfl⟩
    · obtain ⟨order, howned, hencode⟩ := newOrder_of_frame hlength hheader hside htif
        (sideTag_sideOfTag hsideTag) (timeInForceTag_timeInForceOfTag htifTag)
      refine .inr ⟨.newOrder bytes, .newOrder order, ?_, ?_, hencode⟩
      · have hview : newOrderView bytes = .ok (.newOrder bytes) := if_pos hlength
        rw [hview]
        rfl
      · simp [BorrowedMessage.toCommand, howned]
  rw [if_neg hnew]
  by_cases hcancel : messageType = cancelOrderType
  · subst hcancel
    rw [if_pos rfl]
    by_cases hlen : declared.val = cancelOrderLen
    swap
    · exact .inl ⟨_, by rw [if_pos hlen]⟩
    rw [if_neg (not_not_intro hlen)]
    rw [hlen] at hlength hheader
    obtain ⟨cancel, howned, hencode⟩ := cancelOrder_of_frame hlength hheader
    exact .inr ⟨.cancelOrder bytes, .cancelOrder cancel, rfl,
      by simp [BorrowedMessage.toCommand, howned], hencode⟩
  rw [if_neg hcancel]
  by_cases hreplace : messageType = replaceOrderType
  · subst hreplace
    rw [if_pos rfl]
    by_cases hlen : declared.val = replaceOrderLen
    swap
    · exact .inl ⟨_, by rw [if_pos hlen]⟩
    rw [if_neg (not_not_intro hlen)]
    rw [hlen] at hlength hheader
    obtain ⟨replace, howned, hencode⟩ := replaceOrder_of_frame hlength hheader
    exact .inr ⟨.replaceOrder bytes, .replaceOrder replace, rfl,
      by simp [BorrowedMessage.toCommand, howned], hencode⟩
  · exact .inl ⟨_, if_neg hreplace⟩

/-- The header checks read back what `encodeHeader` wrote. -/
theorem header_of_slice (bytes : Bytes) (messageType : U8) (len : ℕ) (hlen : len < 2 ^ 16)
    (hheader : slice bytes 0 4 = encodeHeader messageType len) :
    byteAt bytes 0 = .ok protocolVersion ∧ byteAt bytes 1 = .ok messageType ∧
      ∃ declared, readU16 bytes 2 = .ok declared ∧ declared.val = len := by
  have hsplit : bytes = encodeHeader messageType len ++ bytes.drop 4 := by
    rw [← hheader]
    exact (List.take_append_drop 4 bytes).symm
  rw [hsplit]
  refine ⟨rfl, rfl, ⟨len, hlen⟩, ?_, rfl⟩
  have hslice : slice (encodeHeader messageType len ++ bytes.drop 4) 2 2 =
      encodeUnsigned (⟨len, hlen⟩ : U16) := rfl
  unfold readU16
  rw [range_of_le (by simp), hslice, Except.map, decodeUnsigned_encodeUnsigned (by decide)]

theorem parseMessage_encodeNewOrder (order : NewOrder) :
    parseMessage (encodeNewOrder order) = .ok (.ok (.newOrder (encodeNewOrder order))) := by
  have hlen := length_encodeNewOrder order
  obtain ⟨hversion, htype, declared, hdeclared, hval⟩ :=
    header_of_slice (encodeNewOrder order) newOrderType newOrderLen (by decide)
      (by simp [encodeNewOrder, slice_head])
  have hside : byteAt (encodeNewOrder order) 44 = .ok (sideTag order.side) := by
    rw [encodeNewOrder, byteAt_skip (by simp)]
    simp [byteAt]
  have htif : byteAt (encodeNewOrder order) 45 = .ok (timeInForceTag order.timeInForce) := by
    rw [encodeNewOrder, byteAt_skip (by simp)]
    simp [byteAt]
  have hview : newOrderView (encodeNewOrder order) = .ok (.newOrder (encodeNewOrder order)) :=
    if_pos hlen
  have hsideTag : ¬ (sideTag order.side ≠ sideTag .buy ∧ sideTag order.side ≠ sideTag .sell) := by
    cases order.side <;> decide
  have htifTag : ¬ (timeInForceTag order.timeInForce ≠ timeInForceTag .gtc ∧
      timeInForceTag order.timeInForce ≠ timeInForceTag .ioc ∧
      timeInForceTag order.timeInForce ≠ timeInForceTag .fok ∧
      timeInForceTag order.timeInForce ≠ timeInForceTag .postOnly) := by
    cases order.timeInForce <;> decide
  simp only [parseMessage, hversion, htype, hdeclared, hval, hlen, hside, htif, hview,
    Run.ok_bind, Run.pure_eq_ok, if_neg hsideTag, if_neg htifTag]
  rfl

theorem parseMessage_encodeCancelOrder (cancel : CancelOrder) :
    parseMessage (encodeCancelOrder cancel) = .ok (.ok (.cancelOrder (encodeCancelOrder cancel))) := by
  have hlen := length_encodeCancelOrder cancel
  obtain ⟨hversion, htype, declared, hdeclared, hval⟩ :=
    header_of_slice (encodeCancelOrder cancel) cancelOrderType cancelOrderLen (by decide)
      (by simp [encodeCancelOrder, slice_head])
  simp only [parseMessage, hversion, htype, hdeclared, hval, hlen, Run.ok_bind, Run.pure_eq_ok]
  rfl

theorem parseMessage_encodeReplaceOrder (replace : ReplaceOrder) :
    parseMessage (encodeReplaceOrder replace) =
      .ok (.ok (.replaceOrder (encodeReplaceOrder replace))) := by
  have hlen := length_encodeReplaceOrder replace
  obtain ⟨hversion, htype, declared, hdeclared, hval⟩ :=
    header_of_slice (encodeReplaceOrder replace) replaceOrderType replaceOrderLen (by decide)
      (by simp [encodeReplaceOrder, slice_head])
  simp only [parseMessage, hversion, htype, hdeclared, hval, hlen, Run.ok_bind, Run.pure_eq_ok]
  rfl

/-- The encoding of a command is accepted, and it reads as that command. -/
theorem parseMessage_encodeCommand (command : Command) :
    parseMessage (encodeCommand command) = .ok (.ok (messageOf command)) := by
  cases command with
  | newOrder order => exact parseMessage_encodeNewOrder order
  | cancelOrder cancel => exact parseMessage_encodeCancelOrder cancel
  | replaceOrder replace => exact parseMessage_encodeReplaceOrder replace

theorem encodeCommand_injective : Function.Injective encodeCommand := by
  intro first second h
  have hmessage : messageOf first = messageOf second := by
    have hfirst := parseMessage_encodeCommand first
    rw [h, parseMessage_encodeCommand second] at hfirst
    exact (Except.ok.inj (Except.ok.inj hfirst)).symm
  have hcommand := toCommand_messageOf first
  rw [hmessage, toCommand_messageOf] at hcommand
  exact (Except.ok.inj hcommand).symm

end DeterministicExchange.Wire
