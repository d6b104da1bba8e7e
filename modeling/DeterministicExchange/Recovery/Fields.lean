import DeterministicExchange.Recovery.Snapshot

/-!
# Fields of a snapshot

Every reader of a part of the exported state is canonical for the encoder of
that part: words, tags, optional ids, accounts, reservations, orders and levels.
-/

namespace DeterministicExchange.Recovery

open Machine Codec Book Risk

namespace Input

/-! ## Words and tags -/

theorem u8_canonical : u8.Canonical (fun byte ↦ [byte]) fun _ ↦ True := by
  refine .field SnapshotError.truncated (fun _ ↦ rfl) decodeUnsigned_byte ?_
  intro bytes hlen
  exact (encodeUnsigned_byte hlen).symm

theorem u32_canonical : u32.Canonical encodeUnsigned fun _ ↦ True :=
  .unsigned SnapshotError.truncated (by decide : 8 ∣ 32)

theorem u64_canonical : u64.Canonical encodeUnsigned fun _ ↦ True :=
  .unsigned SnapshotError.truncated (by decide : 8 ∣ 64)

theorem u128_canonical : u128.Canonical encodeUnsigned fun _ ↦ True :=
  .unsigned SnapshotError.truncated (by decide : 8 ∣ 128)

theorem i64_canonical : i64.Canonical encodeSigned fun _ ↦ True :=
  .field SnapshotError.truncated length_encodeSigned decodeI64_encodeSigned fun _ ↦ encodeSigned_decodeI64

theorem i128_canonical : i128.Canonical encodeSigned fun _ ↦ True :=
  .field SnapshotError.truncated length_encodeSigned decodeI128_encodeSigned fun _ ↦ encodeSigned_decodeI128

section Run

variable {rest input : Bytes}

@[simp] theorem run_u8 (byte : U8) : u8.run (byte :: rest) = .ok (byte, rest) :=
  u8_canonical.complete byte rest trivial

@[simp] theorem run_u32 (a : U32) : u32.run (encodeUnsigned a ++ rest) = .ok (a, rest) :=
  u32_canonical.complete a rest trivial

@[simp] theorem run_u64 (a : U64) : u64.run (encodeUnsigned a ++ rest) = .ok (a, rest) :=
  u64_canonical.complete a rest trivial

@[simp] theorem run_u128 (a : U128) : u128.run (encodeUnsigned a ++ rest) = .ok (a, rest) :=
  u128_canonical.complete a rest trivial

@[simp] theorem run_i64 (a : I64) : i64.run (encodeSigned a ++ rest) = .ok (a, rest) :=
  i64_canonical.complete a rest trivial

@[simp] theorem run_i128 (a : I128) : i128.run (encodeSigned a ++ rest) = .ok (a, rest) :=
  i128_canonical.complete a rest trivial

theorem boolean_canonical : boolean.Canonical encodeBoolean fun _ ↦ True where
  complete value rest _ := by
    unfold boolean encodeBoolean
    cases value <;> simp [StateT.run_bind]
  sound input value rest h := by
    refine ⟨trivial, ?_⟩
    unfold boolean at h
    simp only [Reader.run_bind_eq_ok, u8_canonical.run_eq_ok, true_and] at h
    obtain ⟨tag, _, rfl, hvalue⟩ := h
    split at hvalue
    · next hzero =>
      obtain ⟨rfl, rfl⟩ := Reader.run_pure_eq_ok.mp hvalue
      rw [hzero]
      rfl
    split at hvalue
    · next hone =>
      obtain ⟨rfl, rfl⟩ := Reader.run_pure_eq_ok.mp hvalue
      rw [hone]
      rfl
    · exact absurd hvalue Reader.run_throw_ne_ok

theorem side_canonical : side.Canonical (fun value ↦ [sideTag value]) fun _ ↦ True where
  complete value rest _ := by
    unfold side sideTag
    cases value <;> simp [StateT.run_bind]
  sound input value rest h := by
    refine ⟨trivial, ?_⟩
    unfold side at h
    simp only [Reader.run_bind_eq_ok, u8_canonical.run_eq_ok, true_and] at h
    obtain ⟨tag, _, rfl, hvalue⟩ := h
    split at hvalue
    · next hone =>
      obtain ⟨rfl, rfl⟩ := Reader.run_pure_eq_ok.mp hvalue
      rw [hone]
      rfl
    split at hvalue
    · next htwo =>
      obtain ⟨rfl, rfl⟩ := Reader.run_pure_eq_ok.mp hvalue
      rw [htwo]
      rfl
    · exact absurd hvalue Reader.run_throw_ne_ok

theorem count_canonical : count.Canonical (beBytes 4) fun value ↦ value < 2 ^ 32 where
  complete value rest hlt := by
    have hrun : u32.run (beBytes 4 value ++ rest) = .ok (⟨value, hlt⟩, rest) :=
      u32_canonical.complete ⟨value, hlt⟩ rest trivial
    unfold count
    rw [Reader.run_bind_of_ok hrun]
    rfl
  sound input value rest h := by
    unfold count at h
    simp only [Reader.run_bind_eq_ok, Reader.run_pure_eq_ok, u32_canonical.run_eq_ok, true_and] at h
    obtain ⟨word, _, rfl, rfl, rfl⟩ := h
    exact ⟨word.isLt, rfl⟩

@[simp] theorem run_boolean (value : Bool) : boolean.run (encodeBoolean value ++ rest) = .ok (value, rest) :=
  boolean_canonical.complete value rest trivial

@[simp] theorem run_side (value : Side) : side.run (sideTag value :: rest) = .ok (value, rest) :=
  side_canonical.complete value rest trivial

/-! ## Records -/

theorem optionalOrder_canonical : optionalOrder.Canonical encodeOptionalOrder fun _ ↦ True where
  complete value rest _ := by
    unfold optionalOrder encodeOptionalOrder
    cases value <;> simp [StateT.run_bind]
  sound input value rest h := by
    refine ⟨trivial, ?_⟩
    unfold optionalOrder at h
    simp only [Reader.run_bind_eq_ok, boolean_canonical.run_eq_ok, u64_canonical.run_eq_ok, true_and] at h
    obtain ⟨isPresent, _, rfl, id, _, rfl, hvalue⟩ := h
    split at hvalue
    · next hpresent =>
      obtain ⟨rfl, rfl⟩ := Reader.run_pure_eq_ok.mp hvalue
      simp [encodeOptionalOrder, hpresent]
    split at hvalue
    · next hpresent hzero =>
      obtain ⟨rfl, rfl⟩ := Reader.run_pure_eq_ok.mp hvalue
      simp [encodeOptionalOrder, hpresent, hzero]
    · exact absurd hvalue Reader.run_throw_ne_ok

theorem account_canonical : account.Canonical encodeAccount fun _ ↦ True where
  complete value rest _ := by
    unfold account encodeAccount
    simp only [List.append_assoc, u32_canonical.run_bind, u64_canonical.run_bind, u128_canonical.run_bind,
      i64_canonical.run_bind, i128_canonical.run_bind, boolean_canonical.run_bind]
    exact Reader.run_pure _ _
  sound input value rest h := by
    refine ⟨trivial, ?_⟩
    unfold account at h
    simp only [Reader.run_bind_eq_ok, Reader.run_pure_eq_ok, u32_canonical.run_eq_ok, u64_canonical.run_eq_ok,
      u128_canonical.run_eq_ok, i64_canonical.run_eq_ok, i128_canonical.run_eq_ok,
      boolean_canonical.run_eq_ok, true_and] at h
    obtain ⟨id, _, rfl, maxQuantity, _, rfl, maxNotional, _, rfl, maxAbsPosition, _, rfl, maxOpenOrders, _,
      rfl, minimumPrice, _, rfl, maximumPrice, _, rfl, settledPosition, _, rfl, reservedBuys, _, rfl,
      reservedSells, _, rfl, openOrders, _, rfl, killed, _, rfl, rfl, rfl⟩ := h
    simp only [encodeAccount, List.append_assoc]

theorem reservation_canonical : reservation.Canonical encodeReservation fun _ ↦ True where
  complete value rest _ := by
    unfold reservation encodeReservation
    simp only [List.append_assoc, u32_canonical.run_bind, u64_canonical.run_bind, side_canonical.run_bind]
    exact Reader.run_pure _ _
  sound input value rest h := by
    refine ⟨trivial, ?_⟩
    unfold reservation at h
    simp only [Reader.run_bind_eq_ok, Reader.run_pure_eq_ok, u32_canonical.run_eq_ok, u64_canonical.run_eq_ok,
      side_canonical.run_eq_ok, true_and] at h
    obtain ⟨orderId, _, rfl, accountId, _, rfl, side, _, rfl, quantity, _, rfl, rfl, rfl⟩ := h
    simp only [encodeReservation, List.append_assoc]

theorem order_canonical : order.Canonical encodeOrder fun _ ↦ True where
  complete value rest _ := by
    unfold order encodeOrder
    simp only [List.append_assoc, u32_canonical.run_bind, u64_canonical.run_bind, i64_canonical.run_bind,
      side_canonical.run_bind]
    exact Reader.run_pure _ _
  sound input value rest h := by
    refine ⟨trivial, ?_⟩
    unfold order at h
    simp only [Reader.run_bind_eq_ok, Reader.run_pure_eq_ok, u32_canonical.run_eq_ok, u64_canonical.run_eq_ok,
      i64_canonical.run_eq_ok, side_canonical.run_eq_ok, true_and] at h
    obtain ⟨orderId, _, rfl, accountId, _, rfl, side, _, rfl, price, _, rfl, quantity, _, rfl, sequence, _,
      rfl, rfl, rfl⟩ := h
    simp only [encodeOrder, List.append_assoc]

/-! ## Levels -/

variable {ACCOUNTS RISK_ORDERS LEVELS ORDERS : ℕ}

/-- The bytes of a level whose count fits. -/
def levelBytes (level : BookLevelState ORDERS) : Bytes :=
  [sideTag level.side] ++ encodeSigned level.price ++ beBytes 4 level.orderCount ++
    (level.orders.toList.take level.orderCount).flatMap encodeOrder

/-- A level with nothing beyond its orders. -/
structure LevelCanonical (level : BookLevelState ORDERS) : Prop where
  count_lt : level.orderCount < 2 ^ 32
  count_le : level.orderCount ≤ ORDERS
  padded : level.orders = pad ORDERS emptyBookOrderState (level.orders.toList.take level.orderCount)

theorem level_canonical : (level ORDERS).Canonical levelBytes LevelCanonical where
  complete value rest hvalue := by
    have hlength : (value.orders.toList.take value.orderCount).length = value.orderCount := by
      simp [hvalue.count_le]
    unfold level levelBytes
    simp only [List.append_assoc, side_canonical.run_bind, i64_canonical.run_bind]
    rw [count_canonical.run_bind hvalue.count_lt, if_neg (Nat.not_lt.mpr hvalue.count_le),
      (order_canonical.times _).run_bind ⟨hlength, fun _ _ ↦ trivial⟩, ← hvalue.padded]
    exact Reader.run_pure _ _
  sound input value rest h := by
    unfold level at h
    simp only [Reader.run_bind_eq_ok, side_canonical.run_eq_ok, i64_canonical.run_eq_ok,
      count_canonical.run_eq_ok, true_and] at h
    obtain ⟨side, _, rfl, price, _, rfl, orderCount, _, ⟨hlt, rfl⟩, h⟩ := h
    split at h
    · exact absurd h Reader.run_throw_ne_ok
    next hle =>
    simp only [Reader.run_bind_eq_ok, Reader.run_pure_eq_ok, (order_canonical.times _).run_eq_ok] at h
    obtain ⟨orders, _, ⟨⟨rfl, _⟩, rfl⟩, rfl, rfl⟩ := h
    have htake := take_toList_pad emptyBookOrderState (Nat.not_lt.mp hle)
    refine ⟨⟨hlt, Nat.not_lt.mp hle, ?_⟩, ?_⟩
    · simp only [htake]
    · simp only [levelBytes, htake, List.append_assoc]

end Run

end Input

end DeterministicExchange.Recovery
