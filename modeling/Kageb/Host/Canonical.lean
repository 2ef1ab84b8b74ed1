import Kageb.Host.Formats

/-! The fixed-width formats of the host, written and read at the offsets of the source: orders, their
signatures, authorizations, submissions and settlement approvals have one encoding each. -/

namespace Kageb

open Binary Checks

/-! ### Orders -/

namespace IntentBodyV1

def encodeAt (body : IntentBodyV1) : Option Bytes :=
  written intentLen [(0, [intentVersion]), (1, [body.side.toByte]), (2, le32 body.lots),
    (6, le64 body.limitPrice), (14, body.epochId.bytes), (46, body.participantId.bytes),
    (78, body.clientNonce.bytes)]

def decodeAt (bytes : Bytes) : Guarded ProtocolError IntentBodyV1 := do
  Guarded.check (rejectIf (bytes.length ≠ intentLen) (.invalidIntentLength bytes.length))
  let version ← Guarded.byte bytes 0
  Guarded.check (rejectIf (version ≠ intentVersion) (.invalidVersion version))
  let padding ← Guarded.slice bytes paddingStart bytes.length
  Guarded.check (rejectIf (∃ byte ∈ padding, byte ≠ 0) .nonZeroPadding)
  let side ← Guarded.byte bytes 1
  let side ← Guarded.check (Side.tryFrom side)
  let lots ← Guarded.fixed 4 bytes 2
  let limitPrice ← Guarded.fixed 8 bytes 6
  let epochId ← Guarded.fixed 32 bytes 14
  let participantId ← Guarded.fixed 32 bytes 46
  let clientNonce ← Guarded.fixed 16 bytes 78
  Guarded.check (new side (Guarded.word32 lots) (Guarded.word64 limitPrice) epochId participantId
    clientNonce)

theorem encodeAt_eq (body : IntentBodyV1) : body.encodeAt = some body.encode := by
  rw [encodeAt, written_eq]
  · simp only [rendered, List.length_cons, List.length_nil, ByteVec.length_bytes, le64_length,
      le32_length, Nat.reduceAdd, Nat.reduceSub, List.replicate_zero, List.nil_append, encode,
      List.append_assoc, intentLen, paddingStart, List.cons_append]
  · simp [LeftToRight, intentLen]

theorem decodeAt_eq (bytes : Bytes) : decodeAt bytes = Guarded.check (decode bytes) := by
  by_cases hlength : bytes.length = intentLen
  · have hlong : bytes.length = 128 := hlength
    have hpadding : Guarded.slice bytes paddingStart bytes.length =
        (pure (bytes.drop paddingStart) : Guarded ProtocolError Bytes) := by
      rw [Guarded.slice_eq (by rw [hlong]; decide) (le_refl _), slice_to_end (le_refl _)]
    rw [decode, dif_neg (not_not.mpr hlength)]
    simp (disch := omega) only [decodeAt, Guarded.reject_of_not (not_not.mpr hlength),
      Guarded.byte_eq, Guarded.fixed_eq, pure_bind, Guarded.check_bind, hpadding]
    rfl
  · rw [decodeAt, Guarded.reject_of hlength, decode, dif_pos hlength]

theorem tryFrom_ok {value : UInt8} {side : Side} (h : Side.tryFrom value = .ok side) :
    value = side.toByte := by
  unfold Side.tryFrom at h
  split_ifs at h with hbuy hsell <;> cases h
  · exact hbuy
  · exact hsell

theorem new_ok {side : Side} {lots : UInt32} {limitPrice : UInt64} {epochId participantId : Bytes32}
    {clientNonce : ByteVec 16} {body : IntentBodyV1}
    (h : new side lots limitPrice epochId participantId clientNonce = .ok body) :
    body.side = side ∧ body.lots = lots ∧ body.limitPrice = limitPrice ∧ body.epochId = epochId ∧
      body.participantId = participantId ∧ body.clientNonce = clientNonce := by
  unfold new at h
  split_ifs at h
  cases h
  exact ⟨rfl, rfl, rfl, rfl, rfl, rfl⟩

theorem eq_encode_of_decodeAt {bytes : Bytes} {body : IntentBodyV1} (h : decodeAt bytes = pure body) :
    bytes = body.encode := by
  simp only [decodeAt, Guarded.bind_eq_pure, Guarded.check_eq_pure, rejectIf_eq_ok,
    Guarded.byte_eq_pure, Guarded.slice_eq_pure, Guarded.fixed_eq_pure, Unique.exists_iff,
    not_not, not_exists, not_and] at h
  obtain ⟨hlength, version, hversion, rfl, padding, ⟨hpadding, hstop⟩, hzero, sideByte, hsideByte,
    side, hside, lots, hlots, limit, hlimit, epochId, hepoch, participantId, hparticipant, nonce,
    hnonce, hnew⟩ := h
  obtain ⟨rfl, hlotsEq, hlimitEq, rfl, rfl, rfl⟩ := new_ok hnew
  have hpaddingEq : padding = List.replicate (intentLen - paddingStart) 0 := by
    refine List.eq_replicate_iff.mpr ⟨by omega, hzero⟩
  rw [eq_iff_partAt, encode_length]
  simp only [encode, partAt_append, List.append_assoc, List.length_cons, List.length_nil,
    ByteVec.length_bytes, Nat.zero_add, Nat.reduceAdd, hlotsEq, hlimitEq, le32_word32, le64_word64]
  refine ⟨hlength, ?_, hlots, hlimit, hepoch, hparticipant, hnonce, hpaddingEq ▸ hpadding⟩
  rw [← List.singleton_append, partAt_append, ← tryFrom_ok hside]
  exact ⟨hversion, hsideByte⟩

theorem decode_eq_ok {bytes : Bytes} {body : IntentBodyV1} :
    decode bytes = .ok body ↔ bytes = body.encode := by
  constructor
  · intro h
    exact eq_encode_of_decodeAt ((decodeAt_eq bytes).trans (congrArg Guarded.check h))
  · rintro rfl
    exact body.decode_encode

theorem encode_exact : Exact encodeAt decodeAt :=
  .of_decode (fun _ _ => decode_eq_ok) encodeAt_eq decodeAt_eq

end IntentBodyV1

namespace SignedIntentV1

def encodeAt (intent : SignedIntentV1) : Option Bytes :=
  written signedIntentLen [(0, intent.body.encode), (128, intent.signature.bytes)]

def decodeAt (encoded : Bytes) : Guarded CryptoError SignedIntentV1 := do
  Guarded.check (rejectIf (encoded.length ≠ signedIntentLen) .invalidSignedIntent)
  let head ← Guarded.slice encoded 0 128
  let body ← (IntentBodyV1.decodeAt head).mapError fun _ => .invalidSignedIntent
  let tail ← Guarded.slice encoded 128 encoded.length
  let signature ← Guarded.check (okOr (ByteVec.ofBytes? 64 tail) .invalidSignedIntent)
  pure { body, signature }

theorem encodeAt_eq (intent : SignedIntentV1) : intent.encodeAt = some intent.encode := by
  have hbody : intent.body.encode.length = 128 := intent.body.encode_length
  rw [encodeAt, written_eq]
  · simp [rendered, hbody, encode, signedIntentLen]
  · simp [LeftToRight, hbody, signedIntentLen]

theorem decodeAt_ends (bytes : Bytes) : (decodeAt bytes).Ends := by
  refine Guarded.ends_reject fun hlength => ?_
  have hlong : bytes.length = 192 := not_not.mp hlength
  refine (Guarded.ends_slice (by omega) (by omega)).bind fun head _ => ?_
  have hbody : (IntentBodyV1.decodeAt head).Ends := ⟨_, IntentBodyV1.decodeAt_eq head⟩
  refine (hbody.mapError _).bind fun _ _ => ?_
  refine (Guarded.ends_slice (by omega) (le_refl _)).bind fun _ _ => ?_
  exact (Guarded.ends_check _).bind fun _ _ => Guarded.ends_pure _

theorem decodeAt_eq_pure {bytes : Bytes} {intent : SignedIntentV1} :
    decodeAt bytes = pure intent ↔ bytes = intent.encode := by
  have hread : ∀ head body, IntentBodyV1.decodeAt head = pure body ↔ head = body.encode := by
    intro head body
    rw [IntentBodyV1.decodeAt_eq, Guarded.check_eq_pure, IntentBodyV1.decode_eq_ok]
  simp only [decodeAt, Guarded.bind_eq_pure, Guarded.check_eq_pure, rejectIf_eq_ok, okOr_eq_ok,
    Guarded.slice_eq_pure, Guarded.mapError_eq_pure, hread, Guarded.pure_eq_pure, Unique.exists_iff,
    not_not, ByteVec.ofBytes?_eq_some]
  rw [eq_iff_partAt, encode_length, encode, partAt_append, intent.body.encode_length]
  constructor
  · rintro ⟨hlength, head, ⟨hhead, -⟩, body, rfl, tail, ⟨htail, -⟩, signature, rfl, rfl⟩
    exact ⟨hlength, hhead, htail⟩
  · rintro ⟨hlength, hhead, htail⟩
    refine ⟨hlength, _, ⟨hhead, ?_⟩, _, rfl, _, ⟨htail, ?_⟩, _, rfl, rfl⟩
    · rw [intent.body.encode_length]
      rfl
    · rw [ByteVec.length_bytes, hlength]
      rfl

theorem encode_exact : Exact encodeAt decodeAt where
  writes intent := ⟨_, intent.encodeAt_eq, decodeAt_eq_pure.mpr rfl⟩
  ends := decodeAt_ends
  reads bs intent h := by rw [intent.encodeAt_eq, decodeAt_eq_pure.mp h]

end SignedIntentV1

/-! ### Authorizations and submissions -/

namespace FundedAuthorizationV1

def authorizationBytesAt (a : FundedAuthorizationV1) : Option Bytes :=
  written 185 [(0, [a.version]), (1, a.operatorKey.bytes), (33, a.epochId.bytes),
    (65, a.participantId.bytes), (97, a.tradingKey.bytes), (129, a.nonce.bytes),
    (161, le64 a.baseAtoms), (169, le64 a.quoteAtoms), (177, le64 a.expirySlot)]

def encodeAt (a : FundedAuthorizationV1) : Option Bytes := do
  let unsigned ← a.authorizationBytesAt
  written fundedAuthorizationV1Len [(0, unsigned), (185, a.operatorSignature.bytes)]

theorem encodeAt_eq (a : FundedAuthorizationV1) : a.encodeAt = some a.encode := by
  have hunsigned : a.authorizationBytesAt = some a.authorizationBytes := by
    rw [authorizationBytesAt, written_eq]
    · simp only [rendered, List.length_cons, List.length_nil, ByteVec.length_bytes, le64_length,
        Nat.reduceAdd, Nat.reduceSub, List.replicate_zero, List.nil_append, List.append_nil,
        authorizationBytes, List.append_assoc]
    · simp [LeftToRight]
  rw [encodeAt, hunsigned, Option.bind_eq_bind, Option.bind_some, written_eq]
  · simp [rendered, a.authorizationBytes_length, encode, fundedAuthorizationV1Len]
  · simp [LeftToRight, a.authorizationBytes_length, fundedAuthorizationV1Len]

theorem encode_exactOn (host : Host) : ExactOn (Made host) encodeAt (decode host) where
  writes a h := ⟨_, a.encodeAt_eq, decode_eq_pure.mpr ⟨h.wellFormed, rfl⟩⟩
  ends := decode_ends
  reads bs a h := ⟨.read h, by rw [a.encodeAt_eq, (decode_eq_pure.mp h).2]⟩

end FundedAuthorizationV1

namespace EncryptedSubmissionV1

/-- A submission that can be constructed, with a ciphertext of the fixed length. -/
structure Made (host : Host) (s : EncryptedSubmissionV1) : Prop where
  authorization : s.authorization.Made host
  ciphertext : s.ciphertext.length = encryptedIntentV1Len

theorem encode_exactOn (host : Host) : ExactOn (Made host) (fun s => some s.encodeWire) (decodeWire host) where
  writes s h := ⟨_, rfl, decodeWire_eq_pure.mpr ⟨⟨h.authorization.wellFormed, h.ciphertext⟩, rfl⟩⟩
  ends := decodeWire_ends
  reads bs s h := by
    obtain ⟨hwell, rfl⟩ := decodeWire_eq_pure.mp h
    exact ⟨⟨.read (FundedAuthorizationV1.decode_eq_pure.mpr ⟨hwell.authorization, rfl⟩),
      hwell.ciphertext⟩, rfl⟩

end EncryptedSubmissionV1

/-! ### Settlement approvals -/

namespace SettlementApprovalV1

def encodeWire (a : SettlementApprovalV1) : Bytes :=
  [1] ++ a.keyperKey.bytes ++ a.payload.encode ++ a.digest.bytes ++ a.signature.bytes

def decodeWire (bytes : Bytes) : Guarded SettlementValidationError SettlementApprovalV1 := do
  Guarded.check (rejectIf (bytes.length ≠ 503) .invalidResult)
  let version ← Guarded.byte bytes 0
  Guarded.check (rejectIf (version ≠ 1) .invalidResult)
  let part ← Guarded.slice bytes 33 407
  let payload ← (SettlementPayloadV1.decodeAt part).mapError fun _ => .invalidResult
  let keyperKey ← Guarded.array 32 bytes 1 .invalidResult
  let digest ← Guarded.array 32 bytes 407 .invalidResult
  let signature ← Guarded.array 64 bytes 439 .invalidResult
  pure { keyperKey, payload, digest, signature }

theorem encodeWire_length (a : SettlementApprovalV1) : a.encodeWire.length = 503 := by
  simp [encodeWire, a.payload.encode_length]

theorem decodeWire_ends (bytes : Bytes) : (decodeWire bytes).Ends := by
  refine Guarded.ends_reject fun hlength => ?_
  have hlong : bytes.length = 503 := not_not.mp hlength
  refine (Guarded.ends_byte (by omega)).bind fun _ _ => ?_
  refine (Guarded.ends_check _).bind fun _ _ => ?_
  refine (Guarded.ends_slice (by omega) (by omega)).bind fun part _ => ?_
  have hpayload : (SettlementPayloadV1.decodeAt part).Ends := ⟨_, SettlementPayloadV1.decodeAt_eq part⟩
  refine (hpayload.mapError _).bind fun _ _ => ?_
  iterate 3 refine (Guarded.ends_array (by omega) _).bind fun _ _ => ?_
  exact Guarded.ends_pure _

theorem decodeWire_eq_pure {bytes : Bytes} {a : SettlementApprovalV1} :
    decodeWire bytes = pure a ↔ bytes = a.encodeWire := by
  have hread : ∀ part payload, SettlementPayloadV1.decodeAt part = pure payload ↔
      part = payload.encode := by
    intro part payload
    rw [SettlementPayloadV1.decodeAt_eq, Guarded.check_eq_pure, okOr_eq_ok]
    exact Codec.read_eq_some
  rw [eq_iff_partAt, encodeWire_length]
  simp only [decodeWire, encodeWire, Guarded.bind_eq_pure, Guarded.check_eq_pure, rejectIf_eq_ok,
    Guarded.byte_eq_pure, Guarded.slice_eq_pure, Guarded.mapError_eq_pure, hread,
    Guarded.array_eq_pure, Guarded.pure_eq_pure, Unique.exists_iff, not_not, List.append_assoc,
    partAt_append, List.length_singleton, ByteVec.length_bytes, SettlementPayloadV1.encode_length,
    Nat.zero_add, Nat.reduceAdd]
  constructor
  · rintro ⟨hlength, version, hversion, rfl, part, ⟨hpart, -⟩, payload, rfl, key, hkey, digest,
      hdigest, signature, hsignature, rfl⟩
    exact ⟨hlength, hversion, hkey, hpart, hdigest, hsignature⟩
  · rintro ⟨hlength, hversion, hkey, hpart, hdigest, hsignature⟩
    exact ⟨hlength, _, hversion, rfl, _, ⟨hpart, by rw [SettlementPayloadV1.encode_length]⟩, _, rfl,
      _, hkey, _, hdigest, _, hsignature, rfl⟩

theorem encode_exact : Exact (fun a => some a.encodeWire) decodeWire where
  writes a := ⟨_, rfl, decodeWire_eq_pure.mpr rfl⟩
  ends := decodeWire_ends
  reads bs a h := by rw [decodeWire_eq_pure.mp h]

end SettlementApprovalV1

/-- Every value of the fixed-width formats reads back from its encoding, whatever is read is the
encoding of what is returned, and no access is out of range. -/
theorem host_formats_exact (host : Host) :
    Exact IntentBodyV1.encodeAt IntentBodyV1.decodeAt ∧
    Exact SignedIntentV1.encodeAt SignedIntentV1.decodeAt ∧
    ExactOn (FundedAuthorizationV1.Made host) FundedAuthorizationV1.encodeAt
      (FundedAuthorizationV1.decode host) ∧
    ExactOn (EncryptedSubmissionV1.Made host) (fun s => some s.encodeWire)
      (EncryptedSubmissionV1.decodeWire host) ∧
    Exact (fun a => some a.encodeWire) SettlementApprovalV1.decodeWire :=
  ⟨IntentBodyV1.encode_exact, SignedIntentV1.encode_exact, FundedAuthorizationV1.encode_exactOn host,
    EncryptedSubmissionV1.encode_exactOn host, SettlementApprovalV1.encode_exact⟩

end Kageb
