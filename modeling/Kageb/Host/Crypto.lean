import Kageb.Host.Domain
import Kageb.Program.Runtime

/-! Funded authorizations, signed intents and encrypted submissions: what is signed, what is
hashed, and what two shares of a ciphertext recover. -/

namespace Kageb

open Binary Binary.Codec Checks

/-- What the host calls beside the runtime: Ed25519 signatures and threshold encryption. -/
structure Host extends Runtime where
  SigningKey : Type
  -- `verifying_key().to_bytes()`
  verifyingKey : SigningKey → Bytes32
  sign : SigningKey → Bytes → Bytes64
  -- `VerifyingKey::from_bytes(..).is_ok()`
  validKey : Bytes32 → Bool
  verify : Bytes32 → Bytes → Bytes64 → Bool
  PublicKeySet : Type
  SecretKeyShare : Type
  Ciphertext : Type
  DecryptionShare : Type
  serializeKeys : PublicKeySet → Option Bytes
  -- `public_key_share(index).to_bytes()`, of a set of public keys and of a secret share
  publicKeyShare : PublicKeySet → Nat → ByteVec 48
  secretPublicKeyShare : SecretKeyShare → ByteVec 48
  deserializeCiphertext : Bytes → Option Ciphertext
  verifyCiphertext : Ciphertext → Bool
  verifyDecryptionShare : PublicKeySet → Nat → DecryptionShare → Ciphertext → Bool
  decrypt : PublicKeySet → List (Nat × DecryptionShare) → Ciphertext → Option Bytes
  decryptShare : SecretKeyShare → Ciphertext → Option DecryptionShare

/-- `FUNDED_AUTH_DOMAIN`, the bytes of `KAGEB_FUNDED_AUTH_V1\0`. -/
def fundedAuthDomain : Bytes :=
  [75, 65, 71, 69, 66, 95, 70, 85, 78, 68, 69, 68, 95, 65, 85, 84, 72, 95, 86, 49, 0]

/-- `INTENT_DOMAIN`, the bytes of `KAGEB_INTENT_V1\0`. -/
def intentDomain : Bytes := [75, 65, 71, 69, 66, 95, 73, 78, 84, 69, 78, 84, 95, 86, 49, 0]

/-- `SUBMISSION_DOMAIN`, the bytes of `KAGEB_SUBMISSION_V1\0`. -/
def submissionDomain : Bytes :=
  [75, 65, 71, 69, 66, 95, 83, 85, 66, 77, 73, 83, 83, 73, 79, 78, 95, 86, 49, 0]

/-- `EPOCH_KEY_SET_DOMAIN`, the bytes of `KAGEB_EPOCH_KEY_SET_V1\0`. -/
def epochKeySetDomain : Bytes :=
  [75, 65, 71, 69, 66, 95, 69, 80, 79, 67, 72, 95, 75, 69, 89, 95, 83, 69, 84, 95, 86, 49, 0]

def authorizationVersion : UInt8 := 1

def signedIntentLen : Nat := 192

def encryptedIntentV1Len : Nat := 344

inductive CryptoError where
  | entropyUnavailable
  | invalidAuthorization
  | invalidInnerSignature
  | invalidOuterSignature
  | invalidSignedIntent
  | invalidCiphertext
  | invalidReceipt
  | wrongEpoch
  | wrongParticipant
  | insufficientCrowd (valid minimum : Nat)
  | insufficientShares
  | duplicateShare
  | invalidShare
  | invalidMinimum
  | wrongTradingKey
  deriving DecidableEq

structure AdmissionPolicyV1 where
  epochId : Bytes32
  operatorKey : Bytes32
  minimum : Nat
  baseAtoms : UInt64
  quoteAtoms : UInt64
  currentSlot : UInt64
  deriving DecidableEq

def AdmissionPolicyV1.new (epochId operatorKey : Bytes32) (minimum : Nat)
    (baseAtoms quoteAtoms currentSlot : UInt64) : Except CryptoError AdmissionPolicyV1 := do
  rejectIf (minimum = 0) .invalidMinimum
  rejectIf (baseAtoms = 0 ∨ quoteAtoms = 0) .invalidAuthorization
  .ok { epochId, operatorKey, minimum, baseAtoms, quoteAtoms, currentSlot }

structure FundedAuthorizationV1 where
  version : UInt8
  operatorKey : Bytes32
  epochId : Bytes32
  participantId : Bytes32
  tradingKey : Bytes32
  nonce : Bytes32
  baseAtoms : UInt64
  quoteAtoms : UInt64
  expirySlot : UInt64
  operatorSignature : Bytes64
  deriving DecidableEq

namespace FundedAuthorizationV1

/-- `authorization_bytes`: the 185 bytes that the operator signs. -/
def authorizationBytes (a : FundedAuthorizationV1) : Bytes :=
  [a.version] ++ a.operatorKey.bytes ++ a.epochId.bytes ++ a.participantId.bytes ++
    a.tradingKey.bytes ++ a.nonce.bytes ++ le64 a.baseAtoms ++ le64 a.quoteAtoms ++
    le64 a.expirySlot

theorem authorizationBytes_length (a : FundedAuthorizationV1) :
    a.authorizationBytes.length = 185 := by
  simp [authorizationBytes]

def encode (a : FundedAuthorizationV1) : Bytes := a.authorizationBytes ++ a.operatorSignature.bytes

def authorizationMessage (unsigned : Bytes) : Bytes := fundedAuthDomain ++ unsigned

def verify (host : Host) (a : FundedAuthorizationV1) (policy : AdmissionPolicyV1) :
    Except CryptoError Unit := do
  rejectIf (a.version ≠ authorizationVersion ∨ a.operatorKey ≠ policy.operatorKey ∨
    a.baseAtoms ≠ policy.baseAtoms ∨ a.quoteAtoms ≠ policy.quoteAtoms ∨
    a.expirySlot < policy.currentSlot) .invalidAuthorization
  rejectIf (a.epochId ≠ policy.epochId) .wrongEpoch
  rejectIf (host.validKey a.operatorKey = false) .invalidAuthorization
  rejectIf (host.verify a.operatorKey (authorizationMessage a.authorizationBytes)
    a.operatorSignature = false) .invalidAuthorization

def hash (host : Host) (a : FundedAuthorizationV1) : Bytes32 :=
  host.sha256 (fundedAuthDomain ++ a.encode)

end FundedAuthorizationV1

structure SignedIntentV1 where
  body : IntentBodyV1
  signature : Bytes64
  deriving DecidableEq

namespace SignedIntentV1

def intentMessage (encodedBody : Bytes) : Bytes := intentDomain ++ encodedBody

/-- `tradingKey` is a valid key. -/
def verify (host : Host) (intent : SignedIntentV1)
    (tradingKey expectedEpoch expectedParticipant : Bytes32) : Except CryptoError Unit := do
  rejectIf (intent.body.epochId ≠ expectedEpoch) .wrongEpoch
  rejectIf (intent.body.participantId ≠ expectedParticipant) .wrongParticipant
  rejectIf (host.verify tradingKey (intentMessage intent.body.encode) intent.signature = false)
    .invalidInnerSignature

def encode (intent : SignedIntentV1) : Bytes := intent.body.encode ++ intent.signature.bytes

def decode (encoded : Bytes) : Except CryptoError SignedIntentV1 :=
  if h : encoded.length ≠ signedIntentLen then .error .invalidSignedIntent
  else do
    let body ← (IntentBodyV1.decode (encoded.take 128)).mapError fun _ => .invalidSignedIntent
    have length_eq : encoded.length = 192 := not_not.mp h
    .ok { body, signature := arrayAt encoded 128 64 (by omega) }

theorem encode_length (intent : SignedIntentV1) : intent.encode.length = signedIntentLen := by
  rw [encode, List.length_append, intent.body.encode_length, intent.signature.length_bytes]
  rfl

theorem decode_encode (intent : SignedIntentV1) : decode intent.encode = .ok intent := by
  have htake : intent.encode.take 128 = intent.body.encode :=
    List.take_left' intent.body.encode_length
  have hsignature : slice intent.encode 128 192 = intent.signature.bytes := by
    have hle : intent.body.encode.length ≤ 128 := intent.body.encode_length.le
    rw [encode, slice_append_right hle, intent.body.encode_length]
    simp [slice, intentLen]
  rw [decode, dif_neg (not_not.mpr intent.encode_length), htake, intent.body.decode_encode]
  exact congrArg (fun signature => Except.ok (SignedIntentV1.mk intent.body signature))
    (ByteVec.ext hsignature)

end SignedIntentV1

structure EncryptedIntentV1 (host : Host) where
  encoded : Bytes
  ciphertext : host.Ciphertext

def decodeCiphertext (host : Host) (encoded : Bytes) :
    Except CryptoError (EncryptedIntentV1 host) := do
  rejectIf (encoded.length ≠ encryptedIntentV1Len) .invalidCiphertext
  let ciphertext ← okOr (host.deserializeCiphertext encoded) .invalidCiphertext
  rejectIf (host.verifyCiphertext ciphertext = false) .invalidCiphertext
  .ok { encoded, ciphertext }

structure EncryptedSubmissionV1 where
  authorization : FundedAuthorizationV1
  ciphertext : Bytes
  receipt : Bytes32
  outerSignature : Bytes64
  deriving DecidableEq

namespace EncryptedSubmissionV1

def submissionMessage (epochId authorizationHash ciphertextHash receipt : Bytes32) : Bytes :=
  submissionDomain ++ epochId.bytes ++ authorizationHash.bytes ++ ciphertextHash.bytes ++
    receipt.bytes

def verifyAdmission (host : Host) (s : EncryptedSubmissionV1) (policy : AdmissionPolicyV1) :
    Except CryptoError Unit := do
  s.authorization.verify host policy
  rejectIf (s.receipt = zero32) .invalidReceipt
  let _ ← decodeCiphertext host s.ciphertext
  rejectIf (host.validKey s.authorization.tradingKey = false) .invalidAuthorization
  rejectIf (host.verify s.authorization.tradingKey (submissionMessage s.authorization.epochId
    (s.authorization.hash host) (host.sha256 s.ciphertext) s.receipt) s.outerSignature = false)
    .invalidOuterSignature

def commitmentBytes (host : Host) (s : EncryptedSubmissionV1) : Bytes :=
  s.authorization.encode ++ (host.sha256 s.ciphertext).bytes ++ s.receipt.bytes ++
    s.outerSignature.bytes

end EncryptedSubmissionV1

/-- `share` is a share of the ciphertext with hash `ciphertextHash`, released for one lock. -/
structure ReleasedShareV1 (host : Host) where
  epochAccount : Pubkey
  lockDigest : Bytes32
  ciphertextHash : Bytes32
  index : Nat
  share : host.DecryptionShare

structure KeyperSecretShare (host : Host) where
  epochAccount : Pubkey
  index : Nat
  secret : host.SecretKeyShare

def KeyperSecretShare.release {host : Host} (s : KeyperSecretShare host) (epochAccount : Pubkey)
    (lockDigest : Bytes32) (ciphertext : Bytes) : Except CryptoError (ReleasedShareV1 host) := do
  let encrypted ← decodeCiphertext host ciphertext
  let share ← okOr (host.decryptShare s.secret encrypted.ciphertext) .invalidCiphertext
  .ok { epochAccount, lockDigest, ciphertextHash := host.sha256 ciphertext, index := s.index, share }

structure EpochPublicKeys (host : Host) where
  keys : host.PublicKeySet

namespace EpochPublicKeys

variable {host : Host} (k : EpochPublicKeys host)

def encodeWire : Except CryptoError Bytes := okOr (host.serializeKeys k.keys) .invalidShare

def commitmentLeaf : Except CryptoError Bytes := do
  let encoded ← k.encodeWire
  .ok (epochKeySetDomain ++ encoded)

def matchesShare (share : KeyperSecretShare host) : Bool :=
  host.publicKeyShare k.keys share.index = host.secretPublicKeyShare share.secret

def checkShares (ciphertext : host.Ciphertext) (indices : Finset Nat) :
    List (ReleasedShareV1 host) → Except CryptoError Unit
  | [] => .ok ()
  | share :: shares => do
    rejectIf (share.index ∈ indices) .duplicateShare
    rejectIf (host.verifyDecryptionShare k.keys share.index share.share ciphertext = false)
      .invalidShare
    checkShares ciphertext (insert share.index indices) shares

def recover (encrypted : EncryptedIntentV1 host) (shares : List (ReleasedShareV1 host)) :
    Except CryptoError SignedIntentV1 := do
  rejectIf (shares.length < 2) .insufficientShares
  k.checkShares encrypted.ciphertext ∅ shares
  let plaintext ← okOr (host.decrypt k.keys (shares.map fun share => (share.index, share.share))
    encrypted.ciphertext) .insufficientShares
  SignedIntentV1.decode plaintext

def recoverSubmission (submission : EncryptedSubmissionV1) (shares : List (ReleasedShareV1 host)) :
    Except CryptoError SignedIntentV1 := do
  let ciphertextHash := host.sha256 submission.ciphertext
  match shares with
  | [] => .error .insufficientShares
  | first :: _ => do
    rejectIf (∃ share ∈ shares, share.epochAccount ≠ first.epochAccount ∨
      share.lockDigest ≠ first.lockDigest ∨ share.ciphertextHash ≠ ciphertextHash) .invalidShare
    let encrypted ← decodeCiphertext host submission.ciphertext
    k.recover encrypted shares

end EpochPublicKeys

/-! ### What is committed to -/

namespace FundedAuthorizationV1

def layout : Codec FundedAuthorizationV1 :=
  (byte.pair <| (array 32).pair <| (array 32).pair <| (array 32).pair <| (array 32).pair <|
    (array 32).pair <| u64.pair <| u64.pair <| u64.pair <| array 64).iso
    ⟨fun a => (a.version, a.operatorKey, a.epochId, a.participantId, a.tradingKey, a.nonce,
        a.baseAtoms, a.quoteAtoms, a.expirySlot, a.operatorSignature),
      fun (version, operatorKey, epochId, participantId, tradingKey, nonce, baseAtoms, quoteAtoms,
        expirySlot, operatorSignature) =>
        { version, operatorKey, epochId, participantId, tradingKey, nonce, baseAtoms, quoteAtoms,
          expirySlot, operatorSignature },
      fun _ => rfl, fun _ => rfl⟩

theorem encode_eq (a : FundedAuthorizationV1) : a.encode = layout.encode a := by
  simp only [encode, authorizationBytes, List.append_assoc]
  rfl

end FundedAuthorizationV1

/-- What the leaf of a submission says of it. -/
def EncryptedSubmissionV1.committed (host : Host) (s : EncryptedSubmissionV1) :
    FundedAuthorizationV1 × Bytes32 × Bytes32 × Bytes64 :=
  (s.authorization, host.sha256 s.ciphertext, s.receipt, s.outerSignature)

theorem EncryptedSubmissionV1.commitmentBytes_eq_iff {host : Host} {s t : EncryptedSubmissionV1} :
    commitmentBytes host s = commitmentBytes host t ↔ s.committed host = t.committed host := by
  constructor
  · intro h
    simp only [commitmentBytes, List.append_assoc, FundedAuthorizationV1.encode_eq] at h
    obtain ⟨hauthorization, h⟩ := FundedAuthorizationV1.layout.append_inj h
    obtain ⟨hhash, h⟩ := (array 32).append_inj h
    obtain ⟨hreceipt, h⟩ := (array 32).append_inj h
    have hsignature := (array 64).encode_injective h
    exact Prod.ext hauthorization (Prod.ext hhash (Prod.ext hreceipt hsignature))
  · intro h
    simp only [committed, Prod.mk.injEq] at h
    simp only [commitmentBytes, h]

/-- A commitment determines the submission, when the hash tells the ciphertexts apart. -/
theorem EncryptedSubmissionV1.commitmentBytes_injOn {host : Host} {s : Set Bytes}
    (hinj : Set.InjOn host.sha256 s) :
    Set.InjOn (commitmentBytes host) {x | x.ciphertext ∈ s} := by
  intro x hx y hy h
  have hcommitted := commitmentBytes_eq_iff.mp h
  simp only [committed, Prod.mk.injEq] at hcommitted
  have hciphertext := hinj hx hy hcommitted.2.1
  cases x
  cases y
  simp_all

/-! ### What is recovered -/

/-- Two shares of a ciphertext that pass verification, from different keypers. -/
structure Host.Verified (host : Host) (keys : host.PublicKeySet) (ciphertext : host.Ciphertext)
    (x y : Nat × host.DecryptionShare) : Prop where
  ne : x.1 ≠ y.1
  first : host.verifyDecryptionShare keys x.1 x.2 ciphertext = true
  second : host.verifyDecryptionShare keys y.1 y.2 ciphertext = true

/-- Any two verified shares of a ciphertext recover the same plaintext. -/
def Host.SharesAgree (host : Host) : Prop :=
  ∀ keys ciphertext x y x' y' plaintext plaintext',
    host.Verified keys ciphertext x y → host.Verified keys ciphertext x' y' →
    host.decrypt keys [x, y] ciphertext = some plaintext →
    host.decrypt keys [x', y'] ciphertext = some plaintext' → plaintext = plaintext'

/-- The encoding of a set of public keys determines it. -/
def Host.KeysDetermined (host : Host) : Prop :=
  ∀ k k' encoded, host.serializeKeys k = some encoded → host.serializeKeys k' = some encoded →
    k = k'

theorem EpochPublicKeys.recoverSubmission_ok {host : Host} {k : EpochPublicKeys host}
    {s : EncryptedSubmissionV1} {a b : ReleasedShareV1 host} {intent : SignedIntentV1}
    (h : k.recoverSubmission s [a, b] = .ok intent) :
    ∃ encrypted plaintext, decodeCiphertext host s.ciphertext = .ok encrypted ∧
      host.Verified k.keys encrypted.ciphertext (a.index, a.share) (b.index, b.share) ∧
      host.decrypt k.keys [(a.index, a.share), (b.index, b.share)] encrypted.ciphertext =
        some plaintext ∧
      SignedIntentV1.decode plaintext = .ok intent := by
  simp only [recoverSubmission, recover, checkShares, bind_ok, Unique.exists_iff, rejectIf_eq_ok,
    okOr_eq_ok, Bool.not_eq_false] at h
  obtain ⟨-, encrypted, hencrypted, -, ⟨-, hfirst, hne, hsecond, -⟩, plaintext, hplaintext,
    hdecode⟩ := h
  refine ⟨encrypted, plaintext, hencrypted, ⟨?_, hfirst, hsecond⟩, hplaintext, hdecode⟩
  intro heq
  exact hne (Finset.mem_insert.mpr (Or.inl heq.symm))

/-- What is recovered depends on the submission alone, not on which shares recover it. -/
theorem EpochPublicKeys.recoverSubmission_unique {host : Host} (agree : host.SharesAgree)
    {k : EpochPublicKeys host} {s : EncryptedSubmissionV1} {a b a' b' : ReleasedShareV1 host}
    {intent intent' : SignedIntentV1} (h : k.recoverSubmission s [a, b] = .ok intent)
    (h' : k.recoverSubmission s [a', b'] = .ok intent') : intent = intent' := by
  obtain ⟨encrypted, plaintext, hencrypted, hverified, hplaintext, hdecode⟩ :=
    recoverSubmission_ok h
  obtain ⟨encrypted', plaintext', hencrypted', hverified', hplaintext', hdecode'⟩ :=
    recoverSubmission_ok h'
  cases hencrypted.symm.trans hencrypted'
  cases agree _ _ _ _ _ _ _ _ hverified hverified' hplaintext hplaintext'
  exact Except.ok.inj (hdecode.symm.trans hdecode')

end Kageb
