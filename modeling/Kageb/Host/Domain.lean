import Kageb.Lib.Checks
import Kageb.Program.Wire

/-! Orders: the body of an intent, its 128 bytes, and what is rejected when they are read. -/

namespace Kageb

open Binary Checks

inductive Side where
  | buy
  | sell
  deriving DecidableEq

inductive ProtocolError where
  | invalidIntentLength (length : Nat)
  | invalidVersion (version : UInt8)
  | invalidSide (side : UInt8)
  | invalidLots (lots : UInt32)
  | invalidLimitPrice
  | nonZeroPadding
  deriving DecidableEq

def Side.toByte : Side → UInt8
  | buy => 0
  | sell => 1

def Side.tryFrom (value : UInt8) : Except ProtocolError Side :=
  if value = 0 then .ok .buy
  else if value = 1 then .ok .sell
  else .error (.invalidSide value)

def intentVersion : UInt8 := 1

def intentLen : Nat := 128

def paddingStart : Nat := 94

/-- An order for one lot with a limit. -/
structure IntentBodyV1 where
  side : Side
  lots : UInt32
  limitPrice : UInt64
  epochId : Bytes32
  participantId : Bytes32
  clientNonce : ByteVec 16
  lots_eq : lots = 1
  limitPrice_ne : limitPrice ≠ 0
  deriving DecidableEq

namespace IntentBodyV1

def new (side : Side) (lots : UInt32) (limitPrice : UInt64) (epochId participantId : Bytes32)
    (clientNonce : ByteVec 16) : Except ProtocolError IntentBodyV1 :=
  if lots_eq : lots = 1 then
    if limitPrice_ne : limitPrice ≠ 0 then
      .ok { side, lots, limitPrice, epochId, participantId, clientNonce, lots_eq, limitPrice_ne }
    else .error .invalidLimitPrice
  else .error (.invalidLots lots)

def encode (body : IntentBodyV1) : Bytes :=
  [intentVersion, body.side.toByte] ++ le32 body.lots ++ le64 body.limitPrice ++
    body.epochId.bytes ++ body.participantId.bytes ++ body.clientNonce.bytes ++
    List.replicate (intentLen - paddingStart) 0

def decode (bytes : Bytes) : Except ProtocolError IntentBodyV1 :=
  if h : bytes.length ≠ intentLen then .error (.invalidIntentLength bytes.length)
  else do
    have length_eq : bytes.length = 128 := not_not.mp h
    let version := bytes[0]
    rejectIf (version ≠ intentVersion) (.invalidVersion version)
    rejectIf (∃ byte ∈ bytes.drop paddingStart, byte ≠ 0) .nonZeroPadding
    let side ← Side.tryFrom bytes[1]
    new side (UInt32.ofNat (leValue (slice bytes 2 6))) (UInt64.ofNat (leValue (slice bytes 6 14)))
      (arrayAt bytes 14 32 (by omega)) (arrayAt bytes 46 32 (by omega))
      (arrayAt bytes 78 16 (by omega))

/-! ### Reading a body back -/

theorem encode_length (body : IntentBodyV1) : body.encode.length = intentLen := by
  simp [encode, intentLen, paddingStart]

/-- The fields of a body stand one after another. -/
theorem slice_encode (body : IntentBodyV1) :
    slice body.encode 2 6 = le32 body.lots ∧ slice body.encode 6 14 = le64 body.limitPrice ∧
      slice body.encode 14 46 = body.epochId.bytes ∧
      slice body.encode 46 78 = body.participantId.bytes ∧
      slice body.encode 78 94 = body.clientNonce.bytes := by
  refine ⟨?_, ?_, ?_, ?_, ?_⟩ <;>
    simp (disch := simp) only [encode, List.append_assoc, slice_append_right] <;>
    simp (disch := simp) [slice_append_left]

theorem decode_encode (body : IntentBodyV1) : decode body.encode = .ok body := by
  obtain ⟨hlots, hlimit, hepoch, hparticipant, hnonce⟩ := body.slice_encode
  have hpadding : ∀ byte ∈ body.encode.drop paddingStart, byte = 0 := by
    have hdrop : body.encode.drop paddingStart = List.replicate 34 0 :=
      List.drop_left' (by simp [paddingStart])
    rw [hdrop]
    exact fun byte hbyte => List.eq_of_mem_replicate hbyte
  have hside : ∀ side : Side, Side.tryFrom side.toByte = .ok side := by
    rintro (_ | _) <;> rfl
  have hlimit_eq : UInt64.ofNat (leValue (slice body.encode 6 14)) = body.limitPrice := by
    rw [hlimit, leValue_le64, UInt64.ofNat_toNat]
  have hlots_eq : UInt32.ofNat (leValue (slice body.encode 2 6)) = body.lots := by
    rw [hlots, leValue_le32, UInt32.ofNat_toNat]
  rw [decode, dif_neg (not_not.mpr body.encode_length)]
  refine (rejectIf_bind_of_not (not_not.mpr rfl)).trans ?_
  refine (rejectIf_bind_of_not (fun ⟨byte, hbyte, hne⟩ => hne (hpadding byte hbyte))).trans ?_
  refine (bind_of_ok (hside body.side) _).trans ?_
  rw [hlots_eq, hlimit_eq, new, dif_pos body.lots_eq, dif_pos body.limitPrice_ne,
    show arrayAt body.encode 14 32 _ = body.epochId from ByteVec.ext hepoch,
    show arrayAt body.encode 46 32 _ = body.participantId from ByteVec.ext hparticipant,
    show arrayAt body.encode 78 16 _ = body.clientNonce from ByteVec.ext hnonce]

theorem encode_injective : Function.Injective encode := by
  intro a b h
  have ha := a.decode_encode
  rw [h, b.decode_encode] at ha
  exact (Except.ok.inj ha).symm

end IntentBodyV1

end Kageb
