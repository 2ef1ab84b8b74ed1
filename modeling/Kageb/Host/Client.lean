import Kageb.Host.Formats
import Kageb.Host.Reference

/-! Clients: an order is signed, encrypted to the keypers, and signed again together with the
authorization that funds it. -/

namespace Kageb

open Binary Checks

inductive ClientPrepareError where
  | input
  | keyFile
  | request
  | entropy
  | output
  deriving DecidableEq

structure PrepareOrderV1 (host : Host) where
  side : Side
  limitPrice : UInt64
  epochId : Bytes32
  participantId : Bytes32
  authorization : FundedAuthorizationV1
  publicKeys : EpochPublicKeys host
  limitPrice_ne : limitPrice ≠ 0
  epochId_eq : authorization.epochId = epochId
  participantId_eq : authorization.participantId = participantId

def PrepareOrderV1.new {host : Host} (side : Side) (limitPrice : UInt64)
    (epochId participantId : Bytes32) (authorization : FundedAuthorizationV1)
    (publicKeys : EpochPublicKeys host) : Except ClientPrepareError (PrepareOrderV1 host) :=
  if h : limitPrice = 0 ∨ authorization.epochId ≠ epochId ∨
      authorization.participantId ≠ participantId then
    .error .request
  else
    .ok
      { side, limitPrice, epochId, participantId, authorization, publicKeys
        limitPrice_ne := fun hl => h (.inl hl)
        epochId_eq := not_not.mp fun he => h (.inr (.inl he))
        participantId_eq := not_not.mp fun hp => h (.inr (.inr hp)) }

structure PreparedOrderV1 where
  signedIntent : SignedIntentV1
  submission : EncryptedSubmissionV1
  deriving DecidableEq

/-- Encryption to a set of keys, with the entropy that it draws, and how a ciphertext is written. -/
structure Encryption (host : Host) where
  Entropy : Type
  encrypt : host.PublicKeySet → Entropy → Bytes → host.Ciphertext
  serialize : host.Ciphertext → Option Bytes

section Prepare

variable {host : Host}

def SignedIntentV1.sign (body : IntentBodyV1) (tradingKey : host.SigningKey) : SignedIntentV1 :=
  { body, signature := host.sign tradingKey (intentMessage body.encode) }

def encodeCiphertext (scheme : Encryption host) (ciphertext : host.Ciphertext) :
    Except CryptoError (EncryptedIntentV1 host) := do
  rejectIf (host.verifyCiphertext ciphertext = false) .invalidCiphertext
  let encoded ← okOr (scheme.serialize ciphertext) .invalidCiphertext
  rejectIf (encoded.length ≠ encryptedIntentV1Len) .invalidCiphertext
  .ok { encoded, ciphertext }

def EpochPublicKeys.encrypt (scheme : Encryption host) (k : EpochPublicKeys host)
    (entropy : scheme.Entropy) (intent : SignedIntentV1) :
    Except CryptoError (EncryptedIntentV1 host) :=
  encodeCiphertext scheme (scheme.encrypt k.keys entropy intent.encode)

def EncryptedSubmissionV1.sign (authorization : FundedAuthorizationV1)
    (encrypted : EncryptedIntentV1 host) (receipt : Bytes32) (tradingKey : host.SigningKey) :
    Except CryptoError EncryptedSubmissionV1 := do
  rejectIf (receipt = zero32) .invalidReceipt
  rejectIf (host.verifyingKey tradingKey ≠ authorization.tradingKey) .wrongTradingKey
  let ciphertext := encrypted.encoded
  let message := submissionMessage authorization.epochId (authorization.hash host)
    (host.sha256 ciphertext) receipt
  .ok { authorization, ciphertext, receipt, outerSignature := host.sign tradingKey message }

def prepareOrder (scheme : Encryption host) (entropy : scheme.Entropy)
    (request : PrepareOrderV1 host) (tradingKey : host.SigningKey) (intentNonce : ByteVec 16)
    (receipt : Bytes32) : Except ClientPrepareError PreparedOrderV1 := do
  rejectIf (receipt = zero32 ∨ request.authorization.tradingKey ≠ host.verifyingKey tradingKey)
    .request
  let body ← (IntentBodyV1.new request.side 1 request.limitPrice request.epochId
    request.participantId intentNonce).mapError fun _ => .request
  let signedIntent := SignedIntentV1.sign body tradingKey
  let encrypted ← (request.publicKeys.encrypt scheme entropy signedIntent).mapError
    fun _ => .request
  let submission ← (EncryptedSubmissionV1.sign request.authorization encrypted receipt
    tradingKey).mapError fun _ => .request
  .ok { signedIntent, submission }

def ReleasedShareV1.verify (share : ReleasedShareV1 host) (publicKeys : EpochPublicKeys host)
    (submission : EncryptedSubmissionV1) : Bool :=
  if share.ciphertextHash ≠ host.sha256 submission.ciphertext then false
  else
    match decodeCiphertext host submission.ciphertext with
    | .error _ => false
    | .ok encrypted =>
      host.verifyDecryptionShare publicKeys.keys share.index share.share encrypted.ciphertext

/-! ### What the libraries promise -/

/-- What a key signs verifies under its verifying key. -/
structure Host.Signs (host : Host) (signer : host.SigningKey) : Prop where
  valid : host.validKey (host.verifyingKey signer) = true
  verifies : ∀ message,
    host.verify (host.verifyingKey signer) message (host.sign signer message) = true

/-- What is encrypted to `keys` can be written and read, and any two of its shares recover it. -/
structure Encryption.Correct (scheme : Encryption host) (keys : host.PublicKeySet) : Prop where
  verifies : ∀ entropy plaintext,
    host.verifyCiphertext (scheme.encrypt keys entropy plaintext) = true
  serializes : ∀ entropy plaintext, plaintext.length = signedIntentLen →
    ∃ encoded, scheme.serialize (scheme.encrypt keys entropy plaintext) = some encoded ∧
      encoded.length = encryptedIntentV1Len ∧
      host.deserializeCiphertext encoded = some (scheme.encrypt keys entropy plaintext)
  decrypts : ∀ entropy plaintext x y,
    host.Verified keys (scheme.encrypt keys entropy plaintext) x y →
    host.decrypt keys [x, y] (scheme.encrypt keys entropy plaintext) = some plaintext

/-! ### The order of an honest client -/

theorem encrypt_ok {scheme : Encryption host} {k : EpochPublicKeys host}
    (correct : scheme.Correct k.keys) (entropy : scheme.Entropy) (intent : SignedIntentV1) :
    ∃ encrypted, k.encrypt scheme entropy intent = .ok encrypted ∧
      encrypted.ciphertext = scheme.encrypt k.keys entropy intent.encode ∧
      encrypted.encoded.length = encryptedIntentV1Len ∧
      decodeCiphertext host encrypted.encoded = .ok encrypted := by
  have hverifies := correct.verifies entropy intent.encode
  obtain ⟨encoded, hserialize, hlength, hdeserialize⟩ :=
    correct.serializes entropy intent.encode intent.encode_length
  have hvalid : ¬ host.verifyCiphertext (scheme.encrypt k.keys entropy intent.encode) = false := by
    rw [hverifies]
    decide
  refine ⟨⟨encoded, scheme.encrypt k.keys entropy intent.encode⟩, ?_, rfl, hlength, ?_⟩
  · refine (rejectIf_bind_of_not hvalid).trans ?_
    refine (bind_of_ok (okOr_eq_ok.mpr hserialize) _).trans ?_
    exact rejectIf_bind_of_not (not_not.mpr hlength)
  · refine (rejectIf_bind_of_not (not_not.mpr hlength)).trans ?_
    refine (bind_of_ok (okOr_eq_ok.mpr hdeserialize) _).trans ?_
    exact rejectIf_bind_of_not hvalid

/-- The body that a client signs for a request. -/
def PrepareOrderV1.body (request : PrepareOrderV1 host) (intentNonce : ByteVec 16) :
    IntentBodyV1 where
  side := request.side
  lots := 1
  limitPrice := request.limitPrice
  epochId := request.epochId
  participantId := request.participantId
  clientNonce := intentNonce
  lots_eq := rfl
  limitPrice_ne := request.limitPrice_ne

/-- What a client hands in: its authorization, what it signed, encrypted, and a signature on both. -/
structure PreparedOrderV1.Honest (scheme : Encryption host) (entropy : scheme.Entropy)
    (request : PrepareOrderV1 host) (tradingKey : host.SigningKey) (intentNonce : ByteVec 16)
    (receipt : Bytes32) (prepared : PreparedOrderV1) : Prop where
  intent : prepared.signedIntent = .sign (request.body intentNonce) tradingKey
  authorization : prepared.submission.authorization = request.authorization
  receipt_eq : prepared.submission.receipt = receipt
  sealed : prepared.submission.ciphertext.length = encryptedIntentV1Len
  decodes : decodeCiphertext host prepared.submission.ciphertext = .ok
    ⟨prepared.submission.ciphertext,
      scheme.encrypt request.publicKeys.keys entropy prepared.signedIntent.encode⟩
  signature : prepared.submission.outerSignature = host.sign tradingKey
    (EncryptedSubmissionV1.submissionMessage request.authorization.epochId
      (request.authorization.hash host) (host.sha256 prepared.submission.ciphertext) receipt)

theorem EncryptedSubmissionV1.sign_ok {authorization : FundedAuthorizationV1}
    {tradingKey : host.SigningKey} {receipt : Bytes32}
    (hkey : host.verifyingKey tradingKey = authorization.tradingKey) (hreceipt : receipt ≠ zero32)
    (encrypted : EncryptedIntentV1 host) :
    sign authorization encrypted receipt tradingKey = .ok ⟨authorization, encrypted.encoded, receipt,
      host.sign tradingKey (submissionMessage authorization.epochId (authorization.hash host)
        (host.sha256 encrypted.encoded) receipt)⟩ := by
  refine (rejectIf_bind_of_not hreceipt).trans ?_
  exact rejectIf_bind_of_not (not_not.mpr hkey)

theorem prepareOrder_ok {scheme : Encryption host} {request : PrepareOrderV1 host}
    {tradingKey : host.SigningKey} {receipt : Bytes32}
    (correct : scheme.Correct request.publicKeys.keys)
    (hkey : request.authorization.tradingKey = host.verifyingKey tradingKey)
    (hreceipt : receipt ≠ zero32) (entropy : scheme.Entropy) (intentNonce : ByteVec 16) :
    ∃ prepared, prepareOrder scheme entropy request tradingKey intentNonce receipt = .ok prepared ∧
      prepared.Honest scheme entropy request tradingKey intentNonce receipt := by
  have hbody : IntentBodyV1.new request.side 1 request.limitPrice request.epochId
      request.participantId intentNonce = .ok (request.body intentNonce) := by
    rw [IntentBodyV1.new, dif_pos rfl, dif_pos request.limitPrice_ne]
    rfl
  obtain ⟨⟨ciphertext, c⟩, hencrypt, hc, hlength, hdecode⟩ :=
    encrypt_ok correct entropy (.sign (request.body intentNonce) tradingKey)
  cases hc
  have hsign := EncryptedSubmissionV1.sign_ok hkey.symm hreceipt
    ⟨ciphertext, scheme.encrypt request.publicKeys.keys entropy
      (SignedIntentV1.sign (request.body intentNonce) tradingKey).encode⟩
  refine ⟨⟨.sign (request.body intentNonce) tradingKey,
    ⟨request.authorization, ciphertext, receipt, host.sign tradingKey
      (EncryptedSubmissionV1.submissionMessage request.authorization.epochId
        (request.authorization.hash host) (host.sha256 ciphertext) receipt)⟩⟩,
    ?_, ⟨rfl, rfl, rfl, hlength, hdecode, rfl⟩⟩
  refine (rejectIf_bind_of_not fun h => h.elim hreceipt (not_not.mpr hkey)).trans ?_
  refine (bind_of_ok (mapError_eq_ok.mpr hbody) _).trans ?_
  refine (bind_of_ok (mapError_eq_ok.mpr hencrypt) _).trans ?_
  exact bind_of_ok (mapError_eq_ok.mpr hsign) _

/-- Two verified shares recover the plaintext, when they were released for one lock. -/
theorem EpochPublicKeys.recoverSubmission_of_verified {k : EpochPublicKeys host}
    {s : EncryptedSubmissionV1} {a b : ReleasedShareV1 host} {encrypted : EncryptedIntentV1 host}
    {plaintext : Bytes} (hdecode : decodeCiphertext host s.ciphertext = .ok encrypted)
    (ha : a.ciphertextHash = host.sha256 s.ciphertext)
    (hb : b.ciphertextHash = host.sha256 s.ciphertext)
    (hverified : host.Verified k.keys encrypted.ciphertext (a.index, a.share) (b.index, b.share))
    (hdecrypt : host.decrypt k.keys [(a.index, a.share), (b.index, b.share)] encrypted.ciphertext =
      some plaintext)
    (hsame : b.epochAccount = a.epochAccount ∧ b.lockDigest = a.lockDigest) :
    k.recoverSubmission s [a, b] = SignedIntentV1.decode plaintext := by
  have hbound : ¬ ∃ share ∈ [a, b], share.epochAccount ≠ a.epochAccount ∨
      share.lockDigest ≠ a.lockDigest ∨ share.ciphertextHash ≠ host.sha256 s.ciphertext := by
    simp [ha, hb, hsame]
  have hshares : k.checkShares encrypted.ciphertext ∅ [a, b] = .ok () := by
    have hne : b.index ≠ a.index := fun h => hverified.ne h.symm
    simp [checkShares, bind_ok, rejectIf_eq_ok, hverified.first, hverified.second, hne]
  refine (rejectIf_bind_of_not hbound).trans ?_
  refine (bind_of_ok hdecode _).trans ?_
  refine (rejectIf_bind_of_not (by simp)).trans ?_
  refine (bind_of_ok hshares _).trans ?_
  exact bind_of_ok (okOr_eq_ok.mpr hdecrypt) _

/-- Shares that were released for different locks recover nothing. -/
theorem EpochPublicKeys.recoverSubmission_mixed {k : EpochPublicKeys host}
    {s : EncryptedSubmissionV1} {a b : ReleasedShareV1 host}
    (hmixed : ¬ (b.epochAccount = a.epochAccount ∧ b.lockDigest = a.lockDigest)) :
    k.recoverSubmission s [a, b] = .error .invalidShare := by
  refine rejectIf_bind_of ⟨b, by simp, ?_⟩
  by_cases hepoch : b.epochAccount = a.epochAccount
  · exact .inr (.inl fun hlock => hmixed ⟨hepoch, hlock⟩)
  · exact .inl hepoch

theorem ReleasedShareV1.verify_iff {share : ReleasedShareV1 host} {k : EpochPublicKeys host}
    {s : EncryptedSubmissionV1} {encrypted : EncryptedIntentV1 host}
    (hdecode : decodeCiphertext host s.ciphertext = .ok encrypted) :
    share.verify k s = true ↔ share.ciphertextHash = host.sha256 s.ciphertext ∧
      host.verifyDecryptionShare k.keys share.index share.share encrypted.ciphertext = true := by
  simp [verify, hdecode]

namespace PreparedOrderV1.Honest

variable {scheme : Encryption host} {entropy : scheme.Entropy} {request : PrepareOrderV1 host}
  {tradingKey : host.SigningKey} {intentNonce : ByteVec 16} {receipt : Bytes32}
  {prepared : PreparedOrderV1}
  (honest : prepared.Honest scheme entropy request tradingKey intentNonce receipt)
include honest

theorem wire (signs : host.Signs tradingKey)
    (hkey : request.authorization.tradingKey = host.verifyingKey tradingKey)
    {policy : AdmissionPolicyV1} (hpolicy : request.authorization.verify host policy = .ok ()) :
    EncryptedSubmissionV1.decodeWire host prepared.submission.encodeWire =
      pure prepared.submission := by
  simp only [FundedAuthorizationV1.verify, bind_ok, Unique.exists_iff, rejectIf_eq_ok, not_or,
    not_not, Bool.not_eq_false] at hpolicy
  obtain ⟨⟨hversion, -⟩, -, hoperator, -⟩ := hpolicy
  have htrading : host.validKey request.authorization.tradingKey = true := by
    rw [hkey]
    exact signs.valid
  refine EncryptedSubmissionV1.decodeWire_eq_pure.mpr ⟨⟨?_, honest.sealed⟩, rfl⟩
  rw [honest.authorization]
  exact ⟨hversion, hoperator, htrading⟩

theorem admitted (signs : host.Signs tradingKey)
    (hkey : request.authorization.tradingKey = host.verifyingKey tradingKey)
    (hreceipt : receipt ≠ zero32) {policy : AdmissionPolicyV1}
    (hpolicy : request.authorization.verify host policy = .ok ()) :
    prepared.submission.verifyAdmission host policy = .ok () := by
  simp only [EncryptedSubmissionV1.verifyAdmission, honest.authorization, honest.receipt_eq,
    honest.signature, hkey, hpolicy, honest.decodes, bind_ok, Unique.exists_iff, rejectIf_eq_ok,
    signs.valid, signs.verifies]
  exact ⟨trivial, hreceipt, _, rfl, by simp⟩

theorem recovers (correct : scheme.Correct request.publicKeys.keys) {a b : ReleasedShareV1 host}
    (hne : a.index ≠ b.index) (ha : a.verify request.publicKeys prepared.submission = true)
    (hb : b.verify request.publicKeys prepared.submission = true) :
    request.publicKeys.recoverSubmission prepared.submission [a, b] = .ok prepared.signedIntent ↔
      b.epochAccount = a.epochAccount ∧ b.lockDigest = a.lockDigest := by
  obtain ⟨hahash, hashare⟩ := (ReleasedShareV1.verify_iff honest.decodes).mp ha
  obtain ⟨hbhash, hbshare⟩ := (ReleasedShareV1.verify_iff honest.decodes).mp hb
  have hverified : host.Verified request.publicKeys.keys _ (a.index, a.share) (b.index, b.share) :=
    ⟨hne, hashare, hbshare⟩
  constructor
  · intro h
    by_contra hmixed
    rw [EpochPublicKeys.recoverSubmission_mixed hmixed] at h
    cases h
  · intro hsame
    exact (EpochPublicKeys.recoverSubmission_of_verified honest.decodes hahash hbhash hverified
      (correct.decrypts _ _ _ _ hverified) hsame).trans prepared.signedIntent.decode_encode

theorem verifies (signs : host.Signs tradingKey)
    (hkey : request.authorization.tradingKey = host.verifyingKey tradingKey) :
    prepared.signedIntent.verify host request.authorization.tradingKey
      request.authorization.epochId request.authorization.participantId = .ok () := by
  rw [honest.intent, hkey]
  refine (rejectIf_bind_of_not (not_not.mpr request.epochId_eq.symm)).trans ?_
  refine (rejectIf_bind_of_not (not_not.mpr request.participantId_eq.symm)).trans ?_
  refine rejectIf_eq_ok.mpr ?_
  simp [SignedIntentV1.sign, signs.verifies]

end PreparedOrderV1.Honest

end Prepare

/-- The order of an honest client is read as it was written, is admitted, and two shares that were
released for one lock recover what the client signed. -/
theorem prepared_order_recovered {host : Host} {scheme : Encryption host}
    {request : PrepareOrderV1 host} {tradingKey : host.SigningKey} {receipt : Bytes32}
    {policy : AdmissionPolicyV1} (signs : host.Signs tradingKey)
    (correct : scheme.Correct request.publicKeys.keys)
    (hpolicy : request.authorization.verify host policy = .ok ())
    (hkey : request.authorization.tradingKey = host.verifyingKey tradingKey)
    (hreceipt : receipt ≠ zero32) (entropy : scheme.Entropy) (intentNonce : ByteVec 16) :
    ∃ prepared, prepareOrder scheme entropy request tradingKey intentNonce receipt = .ok prepared ∧
      EncryptedSubmissionV1.decodeWire host prepared.submission.encodeWire =
        pure prepared.submission ∧
      prepared.submission.verifyAdmission host policy = .ok () ∧
      (∀ a b : ReleasedShareV1 host, a.index ≠ b.index →
        a.verify request.publicKeys prepared.submission = true →
        b.verify request.publicKeys prepared.submission = true →
        (request.publicKeys.recoverSubmission prepared.submission [a, b] =
            .ok prepared.signedIntent ↔
          b.epochAccount = a.epochAccount ∧ b.lockDigest = a.lockDigest)) ∧
      prepared.signedIntent.verify host request.authorization.tradingKey
        request.authorization.epochId request.authorization.participantId = .ok () ∧
      prepared.signedIntent.body.clientNonce = intentNonce ∧
      ∃ order, FundedOrder.new prepared.signedIntent.body.participantId
          prepared.signedIntent.body.side prepared.signedIntent.body.limitPrice = .ok order ∧
        order.participantId = request.participantId ∧ order.side = request.side ∧
        order.limitPrice = request.limitPrice := by
  obtain ⟨prepared, hprepared, honest⟩ :=
    prepareOrder_ok correct hkey hreceipt entropy intentNonce
  refine ⟨prepared, hprepared, honest.wire signs hkey hpolicy,
    honest.admitted signs hkey hreceipt hpolicy,
    fun a b hne ha hb => honest.recovers correct hne ha hb, honest.verifies signs hkey, ?_⟩
  rw [honest.intent]
  exact ⟨rfl, _, dif_neg request.limitPrice_ne, rfl, rfl, rfl⟩

namespace Threshold

def Ciphertext.encode (c : Ciphertext) : Bytes :=
  UInt8.ofNat c.scalar.val :: (c.masked ++ List.replicate 151 0)

theorem deserialize_encode {c : Ciphertext} (h : c.masked.length = 192) :
    deserialize c.encode = some c := by
  have hread : ∀ x : F, UInt8.ofNat x.val < 5 ∧ ((UInt8.ofNat x.val).toNat : F) = x := by decide
  obtain ⟨hlt, heq⟩ := hread c.scalar
  simp only [Ciphertext.encode, deserialize, List.drop_left' h, List.take_left' h, heq]
  exact if_pos ⟨hlt, fun b hb => List.eq_of_mem_replicate hb⟩

def Line.seal (l : Line) (scalar : F) (message : Bytes) : Ciphertext :=
  ⟨scalar, message.map (· + UInt8.ofNat (scalar * l.secret).val)⟩

def Line.unseal (l : Line) (c : Ciphertext) : Bytes :=
  c.masked.map (· - UInt8.ofNat (c.scalar * l.secret).val)

theorem Line.unseal_seal (l : Line) (scalar : F) (message : Bytes) :
    l.unseal (l.seal scalar message) = message := by
  simp [Line.seal, Line.unseal, Function.comp_def]

end Threshold

namespace Sample

open Threshold

/-- The host of the sample market with decryption by the secret itself, which any two shares of a
large field recover. -/
def dealtHost : Host := { host with decrypt := fun l _ c => some (Line.unseal l c) }

def scheme : Encryption dealtHost where
  Entropy := { scalar : F // scalar ≠ 0 }
  encrypt l scalar message := Line.seal l scalar message
  serialize c := some (Ciphertext.encode c)

theorem scheme_correct (l : Line) : scheme.Correct l := by
  refine ⟨fun scalar message => ?_, fun scalar message hlength => ?_,
    fun scalar message x y _ => ?_⟩
  · exact decide_eq_true scalar.2
  · have hmasked : (l.seal scalar.1 message).masked.length = 192 :=
      (List.length_map _).trans hlength
    refine ⟨_, rfl, ?_, deserialize_encode hmasked⟩
    show (l.seal scalar.1 message).encode.length = 344
    simp [Ciphertext.encode, hmasked]
  · exact congrArg some (l.unseal_seal scalar.1 message)

def entropy : scheme.Entropy := ⟨(2 : F), by decide⟩

theorem dealtHost_signs {signer : Bytes32} (h : signer ≠ zero32) : dealtHost.Signs signer :=
  ⟨decide_eq_true h, fun _ => decide_eq_true rfl⟩

def clientRequest : PrepareOrderV1 dealtHost where
  side := .buy
  limitPrice := 100
  epochId := epochId
  participantId := key 41
  authorization := authorization 1
  publicKeys := ⟨line⟩
  limitPrice_ne := hundred_ne
  epochId_eq := rfl
  participantId_eq := rfl

def policy : AdmissionPolicyV1 where
  epochId := epochId
  operatorKey := operator
  minimum := 4
  baseAtoms := 10
  quoteAtoms := 100
  currentSlot := 3

theorem clientRequest_authorized : clientRequest.authorization.verify dealtHost policy = .ok () := by
  decide +kernel

theorem clientRequest_tradingKey :
    clientRequest.authorization.tradingKey = dealtHost.verifyingKey (key 51) := rfl

theorem key_ne : key 51 ≠ zero32 := by decide

theorem receipt_ne : key 71 ≠ zero32 := by decide

/-- The share of a keyper, released for a lock. -/
def shareOf (c : Ciphertext) (hash digest : Bytes32) (index : Nat) : ReleasedShareV1 dealtHost where
  epochAccount := epoch
  lockDigest := digest
  ciphertextHash := hash
  index := index
  share := c.scalar * line.at index

theorem shareOf_verifies (c : Ciphertext) (hash digest : Bytes32) (index : Nat) :
    dealtHost.verifyDecryptionShare line index (shareOf c hash digest index).share c = true :=
  decide_eq_true (p := c.scalar * line.at index = c.scalar * line.at index) rfl

end Sample

theorem prepared_order_recovered_sample : ∃ prepared,
    prepareOrder Sample.scheme Sample.entropy Sample.clientRequest (Sample.key 51)
      (ByteVec.fill 16 7) (Sample.key 71) = .ok prepared ∧
    prepared.submission.verifyAdmission Sample.dealtHost Sample.policy = .ok () := by
  obtain ⟨prepared, hprepared, -, hadmitted, -⟩ := prepared_order_recovered
    (Sample.dealtHost_signs Sample.key_ne) (Sample.scheme_correct Sample.line)
    Sample.clientRequest_authorized Sample.clientRequest_tradingKey Sample.receipt_ne
    Sample.entropy (ByteVec.fill 16 7)
  exact ⟨prepared, hprepared, hadmitted⟩

/-- Two valid shares of different keypers, each released for a lock of its own, recover nothing. -/
theorem mixed_shares_rejected :
    ∃ (prepared : PreparedOrderV1) (a b : ReleasedShareV1 Sample.dealtHost),
      Sample.clientRequest.authorization.verify Sample.dealtHost Sample.policy = .ok () ∧
      prepareOrder Sample.scheme Sample.entropy Sample.clientRequest (Sample.key 51)
        (ByteVec.fill 16 7) (Sample.key 71) = .ok prepared ∧
      a.index ≠ b.index ∧
      a.verify Sample.clientRequest.publicKeys prepared.submission = true ∧
      b.verify Sample.clientRequest.publicKeys prepared.submission = true ∧
      Sample.clientRequest.publicKeys.recoverSubmission prepared.submission [a, b] =
        .error .invalidShare := by
  obtain ⟨prepared, hprepared, honest⟩ := prepareOrder_ok (Sample.scheme_correct Sample.line)
    Sample.clientRequest_tradingKey Sample.receipt_ne Sample.entropy (ByteVec.fill 16 7)
  let share := Sample.shareOf (Sample.line.seal 2 prepared.signedIntent.encode)
    (Sample.dealtHost.sha256 prepared.submission.ciphertext)
  have hverify : ∀ digest index,
      (share digest index).verify Sample.clientRequest.publicKeys prepared.submission = true :=
    fun digest index =>
      (ReleasedShareV1.verify_iff honest.decodes).mpr ⟨rfl, Sample.shareOf_verifies _ _ _ _⟩
  have hdigests : Sample.key 2 ≠ Sample.key 1 := by decide
  refine ⟨prepared, share (Sample.key 1) 0, share (Sample.key 2) 1,
    Sample.clientRequest_authorized, hprepared, Nat.zero_ne_one, hverify _ _, hverify _ _, ?_⟩
  exact EpochPublicKeys.recoverSubmission_mixed fun h => hdigests h.2

end Kageb
