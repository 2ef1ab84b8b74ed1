import Kageb.Host.Reservations
import Kageb.Host.Settlement
import Kageb.Lib.Parts
import Kageb.Program.Layout

/-! What travels between a client, the coordinator and the keypers: submissions, lock packages,
released shares and settlement requests, as they are written and read. -/

namespace Kageb

open Binary Checks

/-- `FUNDED_AUTHORIZATION_V1_LEN`. -/
def fundedAuthorizationV1Len : Nat := 249

def encryptedSubmissionV1Len : Nat := fundedAuthorizationV1Len + encryptedIntentV1Len + 32 + 64

/-! ### Authorizations -/

namespace FundedAuthorizationV1

variable {host : Host}

def sign (host : Host) (reserved : UnsignedFundedAuthorizationV1) (tradingKey : Bytes32)
    (operator : host.SigningKey) (expirySlot : UInt64) : FundedAuthorizationV1 :=
  let unsigned : FundedAuthorizationV1 :=
    { version := authorizationVersion
      operatorKey := host.verifyingKey operator
      epochId := reserved.epochId
      participantId := reserved.participantId
      tradingKey
      nonce := reserved.nonce
      baseAtoms := reserved.baseAtoms
      quoteAtoms := reserved.quoteAtoms
      expirySlot
      operatorSignature := ByteVec.zero 64 }
  { unsigned with
    operatorSignature := host.sign operator (authorizationMessage unsigned.authorizationBytes) }

/-- What an authorization must be to be written and read back. -/
structure WellFormed (host : Host) (a : FundedAuthorizationV1) : Prop where
  version : a.version = authorizationVersion
  operatorKey : host.validKey a.operatorKey = true
  tradingKey : host.validKey a.tradingKey = true

def decode (host : Host) (encoded : Bytes) : Guarded CryptoError FundedAuthorizationV1 := do
  Guarded.check (rejectIf (encoded.length ≠ fundedAuthorizationV1Len) .invalidAuthorization)
  let version ← Guarded.byte encoded 0
  Guarded.check (rejectIf (version ≠ authorizationVersion) .invalidAuthorization)
  let operatorKey ← Guarded.array 32 encoded 1 .invalidAuthorization
  let epochId ← Guarded.array 32 encoded 33 .invalidAuthorization
  let participantId ← Guarded.array 32 encoded 65 .invalidAuthorization
  let tradingKey ← Guarded.array 32 encoded 97 .invalidAuthorization
  let nonce ← Guarded.array 32 encoded 129 .invalidAuthorization
  let baseAtoms ← Guarded.u64 encoded 161 .invalidAuthorization
  let quoteAtoms ← Guarded.u64 encoded 169 .invalidAuthorization
  let expirySlot ← Guarded.u64 encoded 177 .invalidAuthorization
  let operatorSignature ← Guarded.array 64 encoded 185 .invalidAuthorization
  Guarded.check (rejectIf (host.validKey tradingKey = false) .invalidAuthorization)
  Guarded.check (rejectIf (host.validKey operatorKey = false) .invalidAuthorization)
  pure { version, operatorKey, epochId, participantId, tradingKey, nonce, baseAtoms, quoteAtoms,
         expirySlot, operatorSignature }

theorem encode_length (a : FundedAuthorizationV1) : a.encode.length = fundedAuthorizationV1Len := by
  simp [encode, authorizationBytes, fundedAuthorizationV1Len]

theorem decode_ends (bytes : Bytes) : (decode host bytes).Ends := by
  refine Guarded.ends_reject fun hlength => ?_
  have hlong : bytes.length = 249 := not_not.mp hlength
  refine (Guarded.ends_byte (by omega)).bind fun _ _ => ?_
  refine (Guarded.ends_check _).bind fun _ _ => ?_
  iterate 5 refine (Guarded.ends_array (by omega) _).bind fun _ _ => ?_
  iterate 3 refine (Guarded.ends_u64 (by omega) _).bind fun _ _ => ?_
  refine (Guarded.ends_array (by omega) _).bind fun _ _ => ?_
  iterate 2 refine (Guarded.ends_check _).bind fun _ _ => ?_
  exact Guarded.ends_pure _

theorem decode_eq_pure {bytes : Bytes} {a : FundedAuthorizationV1} :
    decode host bytes = pure a ↔ a.WellFormed host ∧ bytes = a.encode := by
  rw [eq_iff_partAt, encode_length]
  simp only [decode, encode, authorizationBytes, Guarded.bind_eq_pure, Guarded.check_eq_pure,
    rejectIf_eq_ok, Guarded.byte_eq_pure, Guarded.array_eq_pure, Guarded.u64_eq_pure,
    Guarded.pure_eq_pure, Unique.exists_iff, not_not, Bool.not_eq_false, List.append_assoc,
    partAt_append, List.length_singleton, ByteVec.length_bytes, le64_length, Nat.zero_add,
    Nat.reduceAdd]
  constructor
  · rintro ⟨hlength, version, hversion, rfl, operatorKey, hoperator, epochId, hepoch,
      participantId, hparticipant, tradingKey, htrading, nonce, hnonce, base, hbase, quote, hquote,
      expiry, hexpiry, signature, hsignature, hvalidTrading, hvalidOperator, rfl⟩
    exact ⟨⟨rfl, hvalidOperator, hvalidTrading⟩, hlength, hversion, hoperator, hepoch, hparticipant,
      htrading, hnonce, hbase, hquote, hexpiry, hsignature⟩
  · rintro ⟨⟨hversion, hvalidOperator, hvalidTrading⟩, hlength, hfirst, hoperator, hepoch,
      hparticipant, htrading, hnonce, hbase, hquote, hexpiry, hsignature⟩
    exact ⟨hlength, _, hfirst, hversion, _, hoperator, _, hepoch, _, hparticipant, _, htrading, _,
      hnonce, _, hbase, _, hquote, _, hexpiry, _, hsignature, hvalidTrading, hvalidOperator, rfl⟩

/-- The ways to make an authorization: to sign one, with the keys of a trader and of an operator, and
to read one. -/
inductive Made (host : Host) : FundedAuthorizationV1 → Prop
  | signed (reserved : UnsignedFundedAuthorizationV1) {tradingKey : Bytes32}
      {operator : host.SigningKey} (expirySlot : UInt64)
      (trader : host.validKey tradingKey = true)
      (valid : host.validKey (host.verifyingKey operator) = true) :
      Made host (sign host reserved tradingKey operator expirySlot)
  | read {bytes : Bytes} {a : FundedAuthorizationV1} (read : decode host bytes = pure a) :
      Made host a

theorem Made.wellFormed {a : FundedAuthorizationV1} (h : a.Made host) : a.WellFormed host := by
  cases h with
  | signed reserved expirySlot trader valid => exact ⟨rfl, valid, trader⟩
  | read read => exact (decode_eq_pure.mp read).1

end FundedAuthorizationV1

/-! ### Submissions -/

namespace EncryptedSubmissionV1

variable {host : Host}

/-- What holds of a submission that can be read: its ciphertext has the fixed length. -/
structure WellFormed (host : Host) (s : EncryptedSubmissionV1) : Prop where
  authorization : s.authorization.WellFormed host
  ciphertext : s.ciphertext.length = encryptedIntentV1Len

def encodeWire (s : EncryptedSubmissionV1) : Bytes :=
  s.authorization.encode ++ s.ciphertext ++ s.receipt.bytes ++ s.outerSignature.bytes

def decodeWire (host : Host) (bytes : Bytes) : Guarded CryptoError EncryptedSubmissionV1 := do
  Guarded.check (rejectIf (bytes.length ≠ encryptedSubmissionV1Len) .invalidCiphertext)
  let head ← Guarded.slice bytes 0 fundedAuthorizationV1Len
  let authorization ← FundedAuthorizationV1.decode host head
  let ciphertextEnd := fundedAuthorizationV1Len + encryptedIntentV1Len
  let receiptEnd := ciphertextEnd + 32
  let ciphertext ← Guarded.slice bytes fundedAuthorizationV1Len ciphertextEnd
  let receipt ← Guarded.array 32 bytes ciphertextEnd .invalidReceipt
  let rest ← Guarded.slice bytes receiptEnd bytes.length
  let outerSignature ← Guarded.check (okOr (ByteVec.ofBytes? 64 rest) .invalidOuterSignature)
  pure { authorization, ciphertext, receipt, outerSignature }

theorem encodeWire_length {s : EncryptedSubmissionV1}
    (h : s.ciphertext.length = encryptedIntentV1Len) :
    s.encodeWire.length = encryptedSubmissionV1Len := by
  simp only [encodeWire, List.length_append, s.authorization.encode_length, h,
    ByteVec.length_bytes, encryptedSubmissionV1Len]

theorem decodeWire_ends (bytes : Bytes) : (decodeWire host bytes).Ends := by
  refine Guarded.ends_reject fun hlength => ?_
  have hlong : bytes.length = 689 := not_not.mp hlength
  simp only [fundedAuthorizationV1Len, encryptedIntentV1Len]
  refine (Guarded.ends_slice (by omega) (by omega)).bind fun _ _ => ?_
  refine (FundedAuthorizationV1.decode_ends _).bind fun _ _ => ?_
  refine (Guarded.ends_slice (by omega) (by omega)).bind fun _ _ => ?_
  refine (Guarded.ends_array (by omega) _).bind fun _ _ => ?_
  refine (Guarded.ends_slice (by omega) (le_refl _)).bind fun _ _ => ?_
  exact (Guarded.ends_check _).bind fun _ _ => Guarded.ends_pure _

theorem decodeWire_eq_pure {bytes : Bytes} {s : EncryptedSubmissionV1} :
    decodeWire host bytes = pure s ↔ s.WellFormed host ∧ bytes = s.encodeWire := by
  simp only [decodeWire, Guarded.bind_eq_pure, Guarded.check_eq_pure, rejectIf_eq_ok, okOr_eq_ok,
    Guarded.slice_eq_pure, Guarded.array_eq_pure, FundedAuthorizationV1.decode_eq_pure,
    Guarded.pure_eq_pure, Unique.exists_iff, not_not, ByteVec.ofBytes?_eq_some]
  constructor
  · rintro ⟨hlength, head, ⟨hhead, hheadLength⟩, authorization, ⟨hwell, rfl⟩, ciphertext,
      ⟨hciphertext, hciphertextLength⟩, receipt, hreceipt, rest, ⟨hrest, -⟩, signature, rfl, rfl⟩
    have hsealed : ciphertext.length = encryptedIntentV1Len := by omega
    refine ⟨⟨hwell, hsealed⟩, ?_⟩
    rw [eq_iff_partAt, encodeWire_length hsealed]
    simp only [encodeWire, List.append_assoc, partAt_append, FundedAuthorizationV1.encode_length,
      ByteVec.length_bytes, hsealed, Nat.zero_add]
    exact ⟨hlength, hhead, hciphertext, hreceipt, hrest⟩
  · rintro ⟨⟨hwell, hsealed⟩, rfl⟩
    have hlength := encodeWire_length hsealed
    have hparts := (eq_iff_partAt.mp (Eq.refl s.encodeWire)).2
    nth_rewrite 2 [encodeWire] at hparts
    simp only [List.append_assoc, partAt_append, FundedAuthorizationV1.encode_length,
      ByteVec.length_bytes, hsealed, Nat.zero_add] at hparts
    obtain ⟨hauthorization, hciphertext, hreceipt, hsignature⟩ := hparts
    refine ⟨hlength, _, ⟨hauthorization, ?_⟩, _, ⟨hwell, rfl⟩, _, ⟨hciphertext, by rw [hsealed]⟩, _,
      hreceipt, _, ⟨hsignature, ?_⟩, _, rfl, rfl⟩
    · rw [FundedAuthorizationV1.encode_length, Nat.zero_add]
    · rw [ByteVec.length_bytes, hlength]
      rfl

end EncryptedSubmissionV1

/-! ### Balances and their snapshot -/

namespace BalanceRecordV1

def decode (bytes : Bytes) : Guarded LockValidationError BalanceRecordV1 := do
  Guarded.check (rejectIf (bytes.length ≠ 64) .invalidBalance)
  let participantId ← Guarded.array 32 bytes 0 .invalidBalance
  let baseAtoms ← Guarded.u64 bytes 32 .invalidBalance
  let quoteAtoms ← Guarded.u64 bytes 40 .invalidBalance
  let reservedBaseAtoms ← Guarded.u64 bytes 48 .invalidBalance
  let reservedQuoteAtoms ← Guarded.u64 bytes 56 .invalidBalance
  Guarded.check (new participantId baseAtoms quoteAtoms reservedBaseAtoms reservedQuoteAtoms)

theorem encode_length (b : BalanceRecordV1) : b.encode.length = 64 := by
  simp [encode]

theorem new_eq_ok {participantId : Bytes32} {base quote reservedBase reservedQuote : UInt64}
    {b : BalanceRecordV1} : new participantId base quote reservedBase reservedQuote = .ok b ↔
      b.participantId = participantId ∧ b.baseAtoms = base ∧ b.quoteAtoms = quote ∧
        b.reservedBaseAtoms = reservedBase ∧ b.reservedQuoteAtoms = reservedQuote := by
  unfold new
  constructor
  · intro h
    split at h
    · cases h
      exact ⟨rfl, rfl, rfl, rfl, rfl⟩
    · cases h
  · rintro ⟨rfl, rfl, rfl, rfl, rfl⟩
    exact dif_pos ⟨b.participantId_ne, b.reservedBaseAtoms_ne, b.reservedQuoteAtoms_ne,
      b.reservedBaseAtoms_le, b.reservedQuoteAtoms_le⟩

theorem decode_ends (bytes : Bytes) : (decode bytes).Ends := by
  refine Guarded.ends_reject fun hlength => ?_
  have hlong : bytes.length = 64 := not_not.mp hlength
  refine (Guarded.ends_array (by omega) _).bind fun _ _ => ?_
  iterate 4 refine (Guarded.ends_u64 (by omega) _).bind fun _ _ => ?_
  exact Guarded.ends_check _

theorem decode_eq_pure {bytes : Bytes} {b : BalanceRecordV1} :
    decode bytes = pure b ↔ bytes = b.encode := by
  rw [eq_iff_partAt, encode_length]
  simp only [decode, encode, Guarded.bind_eq_pure, Guarded.check_eq_pure, rejectIf_eq_ok,
    Guarded.array_eq_pure, Guarded.u64_eq_pure, Unique.exists_iff, not_not, new_eq_ok,
    List.append_assoc, partAt_append, ByteVec.length_bytes, le64_length, Nat.zero_add,
    Nat.reduceAdd]
  constructor
  · rintro ⟨hlength, _, hparticipant, _, hbase, _, hquote, _, hreserved, _, hreserved', rfl, rfl,
      rfl, rfl, rfl⟩
    exact ⟨hlength, hparticipant, hbase, hquote, hreserved, hreserved'⟩
  · rintro ⟨hlength, hparticipant, hbase, hquote, hreserved, hreserved'⟩
    exact ⟨hlength, _, hparticipant, _, hbase, _, hquote, _, hreserved, _, hreserved', rfl, rfl,
      rfl, rfl, rfl⟩

end BalanceRecordV1

namespace SignedBalanceSnapshotV1

def encode (s : SignedBalanceSnapshotV1) : Bytes :=
  s.epochId.bytes ++ le32 s.recordCount ++ s.balanceRoot.bytes ++ s.operatorKey.bytes ++
    s.signature.bytes

def decode (bytes : Bytes) : Guarded LockValidationError SignedBalanceSnapshotV1 := do
  Guarded.check (rejectIf (bytes.length ≠ 164) .invalidSnapshot)
  let epochId ← Guarded.array 32 bytes 0 .invalidSnapshot
  let recordCount ← Guarded.u32 bytes 32 .invalidSnapshot
  let balanceRoot ← Guarded.array 32 bytes 36 .invalidSnapshot
  let operatorKey ← Guarded.array 32 bytes 68 .invalidSnapshot
  let signature ← Guarded.array 64 bytes 100 .invalidSnapshot
  pure { epochId, recordCount, balanceRoot, operatorKey, signature }

theorem encode_length (s : SignedBalanceSnapshotV1) : s.encode.length = 164 := by
  simp [encode]

theorem decode_ends (bytes : Bytes) : (decode bytes).Ends := by
  refine Guarded.ends_reject fun hlength => ?_
  have hlong : bytes.length = 164 := not_not.mp hlength
  refine (Guarded.ends_array (by omega) _).bind fun _ _ => ?_
  refine (Guarded.ends_u32 (by omega) _).bind fun _ _ => ?_
  iterate 3 refine (Guarded.ends_array (by omega) _).bind fun _ _ => ?_
  exact Guarded.ends_pure _

theorem decode_eq_pure {bytes : Bytes} {s : SignedBalanceSnapshotV1} :
    decode bytes = pure s ↔ bytes = s.encode := by
  rw [eq_iff_partAt, encode_length]
  simp only [decode, encode, Guarded.bind_eq_pure, Guarded.check_eq_pure, rejectIf_eq_ok,
    Guarded.array_eq_pure, Guarded.u32_eq_pure, Guarded.pure_eq_pure, Unique.exists_iff, not_not,
    List.append_assoc, partAt_append, ByteVec.length_bytes, le32_length, Nat.zero_add,
    Nat.reduceAdd]
  constructor
  · rintro ⟨hlength, _, hepoch, _, hcount, _, hroot, _, hkey, _, hsignature, rfl⟩
    exact ⟨hlength, hepoch, hcount, hroot, hkey, hsignature⟩
  · rintro ⟨hlength, hepoch, hcount, hroot, hkey, hsignature⟩
    exact ⟨hlength, _, hepoch, _, hcount, _, hroot, _, hkey, _, hsignature, rfl⟩

end SignedBalanceSnapshotV1

/-! ### Encodings of keys and shares -/

/-- What bincode makes of public keys, decryption shares and secret shares. -/
structure Bincode (host : Host) where
  -- with a limit of 1024 bytes
  deserializeKeys : Bytes → Option host.PublicKeySet
  threshold : host.PublicKeySet → Nat
  serializeShare : host.DecryptionShare → Option Bytes
  deserializeShare : Bytes → Option host.DecryptionShare
  serializeSecret : host.SecretKeyShare → Option Bytes

/-- `MAX_EPOCH_PUBLIC_KEYS_LEN`. -/
def maxEpochPublicKeysLen : Nat := 1024

/-- Each set of keys that two shares open, and each share, has one encoding, of a bounded length. -/
structure Bincode.Canonical {host : Host} (codec : Bincode host) : Prop where
  keys : ∀ k, codec.threshold k = 1 → ∃ encoded, host.serializeKeys k = some encoded ∧
    encoded.length ≤ maxEpochPublicKeysLen ∧ codec.deserializeKeys encoded = some k
  keys_read : ∀ k encoded, codec.deserializeKeys encoded = some k →
    host.serializeKeys k = some encoded
  share : ∀ s, ∃ encoded, codec.serializeShare s = some encoded ∧ encoded.length ≤ 403 ∧
    codec.deserializeShare encoded = some s
  share_read : ∀ s encoded, codec.deserializeShare encoded = some s →
    codec.serializeShare s = some encoded
  secret : ∀ s, ∃ encoded, codec.serializeSecret s = some encoded ∧ encoded.length = 32

section Keys

variable {host : Host} (codec : Bincode host)

def EpochPublicKeys.decodeWire (encoded : Bytes) : Except CryptoError (EpochPublicKeys host) := do
  let keys ← okOr (codec.deserializeKeys encoded) .invalidShare
  rejectIf (codec.threshold keys ≠ 1) .invalidShare
  .ok { keys }

variable {codec}

theorem EpochPublicKeys.decodeWire_eq_ok (canonical : codec.Canonical) {encoded : Bytes}
    {k : EpochPublicKeys host} : decodeWire codec encoded = .ok k ↔
      codec.threshold k.keys = 1 ∧ host.serializeKeys k.keys = some encoded := by
  simp only [decodeWire, bind_ok, okOr_eq_ok, rejectIf_eq_ok, Unique.exists_iff, not_not,
    Except.ok.injEq]
  constructor
  · rintro ⟨keys, hkeys, hthreshold, rfl⟩
    exact ⟨hthreshold, canonical.keys_read _ _ hkeys⟩
  · rintro ⟨hthreshold, hserialize⟩
    obtain ⟨encoded', hencoded', -, hread⟩ := canonical.keys _ hthreshold
    cases hserialize.symm.trans hencoded'
    exact ⟨k.keys, hread, hthreshold, rfl⟩

end Keys

/-! ### Lock packages -/

namespace LockPackageV1

variable {host : Host} (codec : Bincode host)

/-- What holds of the parts of a package, whose members carry ciphertexts of the fixed length. Keys
are dealt for two shares or read. -/
structure Made (package : LockPackageV1 host) : Prop where
  keys : codec.threshold package.epochPublicKeys.keys = 1
  authorizations : ∀ s ∈ package.submissions, s.authorization.Made host
  ciphertexts : ∀ s ∈ package.submissions, s.ciphertext.length = encryptedIntentV1Len

structure WellFormed (package : LockPackageV1 host) : Prop where
  keys : codec.threshold package.epochPublicKeys.keys = 1
  submissions : ∀ s ∈ package.submissions, s.WellFormed host

def wireBytes (package : LockPackageV1 host) (publicKeys : Bytes)
    (publicKeysLen submissionCount balanceCount : UInt32) : Bytes :=
  [1] ++ package.epochAccount.bytes ++ package.configuration.encode ++ le32 publicKeysLen ++
    publicKeys ++ le32 submissionCount ++
    package.submissions.flatMap EncryptedSubmissionV1.encodeWire ++ le32 balanceCount ++
    package.balances.flatMap BalanceRecordV1.encode ++ package.balanceSnapshot.encode ++
    package.preBalanceRoot.bytes ++ package.memberRoot.bytes ++ le32 package.memberCount ++
    package.lockNonce.bytes

def encodeWire (package : LockPackageV1 host) : Except LockValidationError Bytes := do
  rejectIf (package.submissions.length > maxBatchMembers ∨
    package.balances.length > maxBatchMembers) .memberLimitExceeded
  let publicKeys ← package.epochPublicKeys.encodeWire.mapError fun _ => .invalidConfiguration
  rejectIf (publicKeys.length > maxEpochPublicKeysLen) .invalidConfiguration
  let publicKeysLen ← okOr (count32 publicKeys.length) .invalidConfiguration
  let submissionCount ← okOr (count32 package.submissions.length) .memberCountMismatch
  let balanceCount ← okOr (count32 package.balances.length) .invalidBalance
  .ok (package.wireBytes publicKeys publicKeysLen submissionCount balanceCount)

def decodeWire (bytes : Bytes) : Guarded LockValidationError (LockPackageV1 host) := do
  let fixedPrefix := 1 + 32 + 263 + 4 + 4
  let fixedSuffix := 4 + 164 + 32 + 32 + 4 + 32
  Guarded.check (rejectIf (bytes.length < fixedPrefix + fixedSuffix) .invalidSubmission)
  let version ← Guarded.byte bytes 0
  Guarded.check (rejectIf (version ≠ 1) .invalidSubmission)
  let epochAccount ← Guarded.array 32 bytes 1 .invalidConfiguration
  let configurationEnd := 33 + 263
  let encoded ← Guarded.slice bytes 33 configurationEnd
  let configuration ← Guarded.check (okOr (EpochConfigurationV1.decode encoded)
    .invalidConfiguration)
  let publicKeysLen ← Guarded.u32 bytes configurationEnd .invalidConfiguration
  Guarded.check (rejectIf (publicKeysLen.toNat > maxEpochPublicKeysLen) .invalidConfiguration)
  let publicKeysStart := configurationEnd + 4
  let publicKeysEnd := publicKeysStart + publicKeysLen.toNat
  let encoded ← Guarded.get bytes publicKeysStart publicKeysEnd .invalidConfiguration
  let epochPublicKeys ← Guarded.check ((EpochPublicKeys.decodeWire codec encoded).mapError
    fun _ => .invalidConfiguration)
  let submissionCount ← Guarded.getU32 bytes publicKeysEnd .invalidSubmission
  Guarded.check (rejectIf (submissionCount.toNat > maxBatchMembers) .memberLimitExceeded)
  let submissionsStart := publicKeysEnd + 4
  let submissionsEnd := submissionsStart + submissionCount.toNat * encryptedSubmissionV1Len
  Guarded.check (rejectIf (submissionsEnd + fixedSuffix > bytes.length) .invalidSubmission)
  let encoded ← Guarded.slice bytes submissionsStart submissionsEnd
  let submissions ← (Tables.chunks encryptedSubmissionV1Len submissionCount.toNat encoded).mapM
    fun submission =>
      (EncryptedSubmissionV1.decodeWire host submission).mapError fun _ => .invalidSubmission
  let balanceCount ← Guarded.u32 bytes submissionsEnd .invalidBalance
  Guarded.check (rejectIf (balanceCount.toNat > maxBatchMembers) .memberLimitExceeded)
  let balancesStart := submissionsEnd + 4
  let balancesEnd := balancesStart + balanceCount.toNat * 64
  let expectedLen := balancesEnd + (164 + 32 + 32 + 4 + 32)
  Guarded.check (rejectIf (expectedLen ≠ bytes.length) .invalidSubmission)
  let encoded ← Guarded.slice bytes balancesStart balancesEnd
  let balances ← (Tables.chunks 64 balanceCount.toNat encoded).mapM BalanceRecordV1.decode
  let snapshotEnd := balancesEnd + 164
  let encoded ← Guarded.slice bytes balancesEnd snapshotEnd
  let balanceSnapshot ← SignedBalanceSnapshotV1.decode encoded
  let preBalanceRoot ← Guarded.array 32 bytes snapshotEnd .invalidBalance
  let memberRoot ← Guarded.array 32 bytes (snapshotEnd + 32) .memberRootMismatch
  let memberCount ← Guarded.u32 bytes (snapshotEnd + 64) .memberCountMismatch
  let lockNonce ← Guarded.array 32 bytes (snapshotEnd + 68) .invalidConfiguration
  pure { epochAccount, configuration, epochPublicKeys, submissions, balances, balanceSnapshot,
         preBalanceRoot, memberRoot, memberCount, lockNonce }

variable {codec}

theorem Made.wellFormed {package : LockPackageV1 host} (h : package.Made codec) :
    package.WellFormed codec :=
  ⟨h.keys, fun s hs => ⟨(h.authorizations s hs).wellFormed, h.ciphertexts s hs⟩⟩

theorem decodeWire_ends (bytes : Bytes) : (decodeWire codec bytes).Ends := by
  refine Guarded.ends_reject fun hlength => ?_
  have hlong : 572 ≤ bytes.length := not_lt.mp hlength
  refine (Guarded.ends_byte (by omega)).bind fun _ _ => ?_
  refine (Guarded.ends_check _).bind fun _ _ => ?_
  refine (Guarded.ends_array (by omega) _).bind fun _ _ => ?_
  refine (Guarded.ends_slice (by omega) (by omega)).bind fun _ _ => ?_
  refine (Guarded.ends_check _).bind fun _ _ => ?_
  refine (Guarded.ends_u32 (by omega) _).bind fun publicKeysLen _ => ?_
  refine (Guarded.ends_check _).bind fun _ _ => ?_
  refine (Guarded.ends_get _ _ _ _).bind fun _ _ => ?_
  refine (Guarded.ends_check _).bind fun _ _ => ?_
  refine (Guarded.ends_getU32 _ _ _).bind fun submissionCount _ => ?_
  refine (Guarded.ends_check _).bind fun _ _ => ?_
  refine Guarded.ends_reject fun hsubmissions => ?_
  refine (Guarded.ends_slice (by omega) (by omega)).bind fun _ _ => ?_
  refine (Guarded.ends_mapM fun s _ =>
    (EncryptedSubmissionV1.decodeWire_ends s).mapError _).bind fun _ _ => ?_
  refine (Guarded.ends_u32 (by omega) _).bind fun balanceCount _ => ?_
  refine (Guarded.ends_check _).bind fun _ _ => ?_
  refine Guarded.ends_reject fun hbalances => ?_
  refine (Guarded.ends_slice (by omega) (by omega)).bind fun _ _ => ?_
  refine (Guarded.ends_mapM fun b _ => BalanceRecordV1.decode_ends b).bind fun _ _ => ?_
  refine (Guarded.ends_slice (by omega) (by omega)).bind fun _ _ => ?_
  refine (SignedBalanceSnapshotV1.decode_ends _).bind fun _ _ => ?_
  iterate 2 refine (Guarded.ends_array (by omega) _).bind fun _ _ => ?_
  refine (Guarded.ends_u32 (by omega) _).bind fun _ _ => ?_
  exact (Guarded.ends_array (by omega) _).bind fun _ _ => Guarded.ends_pure _

theorem encodeWire_eq_ok {package : LockPackageV1 host} {bytes : Bytes} :
    package.encodeWire = .ok bytes ↔ ∃ (publicKeys : Bytes) (keysLen submissions balances : UInt32),
      package.submissions.length ≤ maxBatchMembers ∧ package.balances.length ≤ maxBatchMembers ∧
      host.serializeKeys package.epochPublicKeys.keys = some publicKeys ∧
      publicKeys.length ≤ maxEpochPublicKeysLen ∧ keysLen.toNat = publicKeys.length ∧
      submissions.toNat = package.submissions.length ∧ balances.toNat = package.balances.length ∧
      bytes = package.wireBytes publicKeys keysLen submissions balances := by
  simp only [encodeWire, EpochPublicKeys.encodeWire, bind_ok, Unique.exists_iff, rejectIf_eq_ok,
    mapError_eq_ok, okOr_eq_ok, not_or, not_lt, gt_iff_lt, count32_eq_some, Except.ok.injEq]
  constructor
  · rintro ⟨⟨hsubmissions, hbalances⟩, publicKeys, hkeys, hlength, keysLen, hkeysLen, submissions,
      hcount, balances, hcount', rfl⟩
    exact ⟨publicKeys, keysLen, submissions, balances, hsubmissions, hbalances, hkeys, hlength,
      hkeysLen, hcount, hcount', rfl⟩
  · rintro ⟨publicKeys, keysLen, submissions, balances, hsubmissions, hbalances, hkeys, hlength,
      hkeysLen, hcount, hcount', rfl⟩
    exact ⟨⟨hsubmissions, hbalances⟩, publicKeys, hkeys, hlength, keysLen, hkeysLen, submissions,
      hcount, balances, hcount', rfl⟩

theorem submissions_eq_pure {count : Nat} {part : Bytes} {submissions : List EncryptedSubmissionV1}
    (hlength : part.length = count * encryptedSubmissionV1Len) :
    ((Tables.chunks encryptedSubmissionV1Len count part).mapM fun submission =>
        (EncryptedSubmissionV1.decodeWire host submission).mapError
          fun _ => LockValidationError.invalidSubmission) = pure submissions ↔
      submissions.length = count ∧ (∀ s ∈ submissions, s.WellFormed host) ∧
        part = submissions.flatMap EncryptedSubmissionV1.encodeWire :=
  Guarded.mapM_chunks_eq_pure
    (fun _ _ => Guarded.mapError_eq_pure.trans EncryptedSubmissionV1.decodeWire_eq_pure)
    (fun _ h => EncryptedSubmissionV1.encodeWire_length h.ciphertext) hlength

theorem balances_eq_pure {count : Nat} {part : Bytes} {balances : List BalanceRecordV1}
    (hlength : part.length = count * 64) :
    (Tables.chunks 64 count part).mapM BalanceRecordV1.decode = pure balances ↔
      balances.length = count ∧ part = balances.flatMap BalanceRecordV1.encode := by
  have hdecode : ∀ bs b, BalanceRecordV1.decode bs = pure b ↔ True ∧ bs = b.encode :=
    fun bs b => BalanceRecordV1.decode_eq_pure.trans (true_and _).symm.to_iff
  rw [Guarded.mapM_chunks_eq_pure hdecode (fun b _ => b.encode_length) hlength]
  simp

theorem wireBytes_length {package : LockPackageV1 host} (h : package.WellFormed codec)
    (publicKeys : Bytes) (keysLen submissions balances : UInt32) :
    (package.wireBytes publicKeys keysLen submissions balances).length =
      300 + publicKeys.length + 4 + package.submissions.length * encryptedSubmissionV1Len + 4 +
        package.balances.length * 64 + 264 := by
  have hsubmissions := Tables.length_flatMap fun s hs =>
    EncryptedSubmissionV1.encodeWire_length (h.submissions s hs).ciphertext
  have hbalances := Tables.length_flatMap fun b (_ : b ∈ package.balances) =>
    BalanceRecordV1.encode_length b
  simp only [wireBytes, List.length_append, List.length_singleton, ByteVec.length_bytes,
    le32_length, EpochConfigurationV1.encode_length, SignedBalanceSnapshotV1.encode_length,
    hsubmissions, hbalances]

/-- A byte string is read as a package exactly when it is what the package is written as. -/
theorem decodeWire_eq_pure (canonical : codec.Canonical) {bytes : Bytes}
    {package : LockPackageV1 host} : decodeWire codec bytes = pure package ↔
      package.WellFormed codec ∧ package.encodeWire = .ok bytes := by
  rw [encodeWire_eq_ok]
  simp only [decodeWire, Guarded.bind_eq_pure, Guarded.check_eq_pure, rejectIf_eq_ok,
    Guarded.byte_eq_pure, Guarded.array_eq_pure, Guarded.slice_eq_pure, Guarded.get_eq_pure,
    Guarded.u32_eq_pure, Guarded.getU32_eq_pure, mapError_eq_ok, okOr_eq_ok,
    EpochConfigurationV1.decode, Codec.read_eq_some, EpochPublicKeys.decodeWire_eq_ok canonical,
    SignedBalanceSnapshotV1.decode_eq_pure, Guarded.pure_eq_pure, Unique.exists_iff, not_lt,
    not_not, gt_iff_lt, Nat.reduceAdd]
  constructor
  · rintro ⟨hlong, _, hversion, rfl, epochAccount, hepoch, _, ⟨hconfiguration, -⟩, configuration,
      rfl, keysLen, hkeysLen, hkeysMax, publicKeys, ⟨hkeys, hkeysEnd⟩, epochPublicKeys,
      ⟨hthreshold, hserialize⟩, submissionCount, hcount, hcountMax, -, part, ⟨hpart, hpartEnd⟩,
      submissions, hsubmissions, balanceCount, hbalanceCount, hbalanceMax, hlength, part',
      ⟨hpart', hpartEnd'⟩, balances, hbalances, _, ⟨hsnapshot, -⟩, snapshot, rfl, preBalanceRoot,
      hpre, memberRoot, hmember, memberCount, hmemberCount, lockNonce, hnonce, rfl⟩
    obtain ⟨hnumber, hwell, rfl⟩ := (submissions_eq_pure (by omega)).mp hsubmissions
    obtain ⟨hnumber', rfl⟩ := (balances_eq_pure (by omega)).mp hbalances
    have hkeysLength : publicKeys.length = keysLen.toNat := by omega
    have hsubmissionsLength : (submissions.flatMap EncryptedSubmissionV1.encodeWire).length =
        submissionCount.toNat * encryptedSubmissionV1Len := by omega
    have hbalancesLength : (balances.flatMap BalanceRecordV1.encode).length =
        balanceCount.toNat * 64 := by omega
    refine ⟨⟨hthreshold, hwell⟩, publicKeys, keysLen, submissionCount, balanceCount,
      hnumber.trans_le hcountMax, hnumber'.trans_le hbalanceMax, hserialize, by omega, hkeysLength.symm, hnumber.symm, hnumber'.symm, ?_⟩
    rw [eq_iff_partAt, wireBytes_length ⟨hthreshold, hwell⟩, hnumber, hnumber', hkeysLength]
    simp only [wireBytes, List.append_assoc, partAt_append, List.length_singleton,
      ByteVec.length_bytes, le32_length, EpochConfigurationV1.encode_length,
      SignedBalanceSnapshotV1.encode_length, hkeysLength, hsubmissionsLength, hbalancesLength,
      Nat.zero_add, Nat.reduceAdd]
    exact ⟨hlength.symm, hversion, hepoch, hconfiguration, hkeysLen, hkeys, hcount, hpart,
      hbalanceCount, hpart', hsnapshot, hpre, hmember, hmemberCount, hnonce⟩
  · rintro ⟨hwell, publicKeys, keysLen, submissionCount, balanceCount, hcountMax, hbalanceMax,
      hserialize, hkeysMax, hkeysLength, hnumber, hnumber', hbytes⟩
    have hsubmissionsLength : (package.submissions.flatMap EncryptedSubmissionV1.encodeWire).length =
        submissionCount.toNat * encryptedSubmissionV1Len := by
      rw [hnumber]
      exact Tables.length_flatMap fun s hs =>
        EncryptedSubmissionV1.encodeWire_length (hwell.submissions s hs).ciphertext
    have hbalancesLength : (package.balances.flatMap BalanceRecordV1.encode).length =
        balanceCount.toNat * 64 := by
      rw [hnumber']
      exact Tables.length_flatMap fun b _ => b.encode_length
    rw [eq_iff_partAt, wireBytes_length hwell] at hbytes
    obtain ⟨hlength, hparts⟩ := hbytes
    simp only [wireBytes, List.append_assoc, partAt_append, List.length_singleton,
      ByteVec.length_bytes, le32_length, EpochConfigurationV1.encode_length,
      SignedBalanceSnapshotV1.encode_length, hsubmissionsLength, hbalancesLength, ← hnumber,
      ← hnumber', ← hkeysLength, Nat.zero_add, Nat.reduceAdd] at hparts hlength
    obtain ⟨hversion, hepoch, hconfiguration, hkeysLen, hkeys, hcount, hpart, hbalanceCount, hpart',
      hsnapshot, hpre, hmember, hmemberCount, hnonce⟩ := hparts
    refine ⟨by omega, _, hversion, rfl, _, hepoch, _, ⟨hconfiguration, ?_⟩, _, rfl, _, hkeysLen,
      by omega, _, ⟨hkeys, by omega⟩, _, ⟨hwell.keys, hserialize⟩, _, hcount, by omega, by omega, _,
      ⟨hpart, by omega⟩, _, (submissions_eq_pure (by omega)).mpr ⟨hnumber.symm, hwell.submissions,
        rfl⟩, _, hbalanceCount, by omega, by omega, _, ⟨hpart', by omega⟩, _,
      (balances_eq_pure (by omega)).mpr ⟨hnumber'.symm, rfl⟩, _, ⟨hsnapshot, ?_⟩, _, rfl, _, hpre,
      _, hmember, _, hmemberCount, _, hnonce, rfl⟩
    · exact congrArg (33 + ·) (EpochConfigurationV1.encode_length package.configuration)
    · rw [SignedBalanceSnapshotV1.encode_length]

end LockPackageV1

end Kageb
