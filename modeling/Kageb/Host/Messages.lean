import Kageb.Host.Reference
import Kageb.Program.Layout
import Kageb.Program.Quorum

/-! What keys sign and digests hash. A message starts with the tag of its kind and has the width of
its kind, so its bytes tell the kind and every signed field, and neither a digest nor a signature
made for one message passes for that of another. -/

namespace Kageb

open Binary Binary.Codec Checks

/-! ### Kinds -/

inductive MessageKind where
  | configuration
  | lock
  | settlement
  | authorization
  | authorizationHash
  | intent
  | submission
  | snapshot
  deriving DecidableEq

namespace MessageKind

def domain : MessageKind → Bytes
  | configuration => configDomain
  | lock => lockDomain
  | settlement => settlementDomain
  | authorization | authorizationHash => fundedAuthDomain
  | intent => intentDomain
  | submission => submissionDomain
  | snapshot => snapshotDomain

/-- How many bytes follow the tag. -/
def width : MessageKind → Nat
  | configuration => 263
  | lock => 173
  | settlement => 374
  | authorization => 185
  | authorizationHash => 249
  | intent => 128
  | submission => 128
  | snapshot => 68

/-- No tag starts another, except that an authorization is signed and hashed under one tag, at
different widths. -/
theorem eq_of_prefix : ∀ k k' : MessageKind, k.domain <+: k'.domain →
    k.domain.length + k.width = k'.domain.length + k'.width → k = k' := by
  intro k k'
  cases k <;> cases k' <;> decide

end MessageKind

/-! ### Messages -/

inductive Message where
  | configuration (c : EpochConfigurationV1)
  | lock (p : LockPayloadV1)
  | settlement (p : SettlementPayloadV1)
  | authorization (a : FundedAuthorizationV1)
  | authorizationHash (a : FundedAuthorizationV1)
  | intent (body : IntentBodyV1)
  | submission (epochId authorizationHash ciphertextHash receipt : Bytes32)
  | snapshot (epochId : Bytes32) (count : UInt32) (root : Bytes32)

namespace Message

def kind : Message → MessageKind
  | configuration _ => .configuration
  | lock _ => .lock
  | settlement _ => .settlement
  | authorization _ => .authorization
  | authorizationHash _ => .authorizationHash
  | intent _ => .intent
  | submission .. => .submission
  | snapshot .. => .snapshot

def bytes : Message → Bytes
  | configuration c => c.message
  | lock p => p.message
  | settlement p => p.message
  | authorization a => FundedAuthorizationV1.authorizationMessage a.authorizationBytes
  | authorizationHash a => fundedAuthDomain ++ a.encode
  | intent body => SignedIntentV1.intentMessage body.encode
  | submission epochId authorized sealed receipt =>
    EncryptedSubmissionV1.submissionMessage epochId authorized sealed receipt
  | snapshot epochId count root => snapshotMessage epochId count root

/-- What follows the tag. -/
def payload : Message → Bytes
  | configuration c => c.encode
  | lock p => p.encode
  | settlement p => p.encode
  | authorization a => a.authorizationBytes
  | authorizationHash a => a.encode
  | intent body => body.encode
  | submission epochId authorized sealed receipt =>
    epochId.bytes ++ (authorized.bytes ++ (sealed.bytes ++ receipt.bytes))
  | snapshot epochId count root => epochId.bytes ++ (le32 count ++ root.bytes)

end Message

/-- An authorization as it is signed, before the signature is there. -/
def FundedAuthorizationV1.unsigned (a : FundedAuthorizationV1) : FundedAuthorizationV1 :=
  { a with operatorSignature := ByteVec.zero 64 }

/-- The signed fields of a message: all but the signature of an authorization that is being
signed. -/
def Message.unsigned : Message → Message
  | authorization a => authorization a.unsigned
  | m => m

theorem FundedAuthorizationV1.unsigned_eq {a b : FundedAuthorizationV1}
    (h : a.authorizationBytes = b.authorizationBytes) : a.unsigned = b.unsigned := by
  have hencode : a.unsigned.encode = b.unsigned.encode :=
    congrArg (· ++ (ByteVec.zero 64).bytes) h
  rw [encode_eq, encode_eq] at hencode
  exact layout.encode_injective hencode

namespace Message

theorem bytes_eq (m : Message) : m.bytes = m.kind.domain ++ m.payload := by
  cases m with
  | submission =>
    simp only [bytes, payload, kind, EncryptedSubmissionV1.submissionMessage, List.append_assoc]
    rfl
  | snapshot =>
    simp only [bytes, payload, kind, snapshotMessage, List.append_assoc]
    rfl
  | _ => rfl

theorem payload_length (m : Message) : m.payload.length = m.kind.width := by
  cases m with
  | configuration c => exact c.encode_length
  | lock p => exact p.encode_length
  | settlement p => exact p.encode_length
  | authorization a => exact a.authorizationBytes_length
  | authorizationHash a =>
    rw [payload, FundedAuthorizationV1.encode, List.length_append, a.authorizationBytes_length,
      a.operatorSignature.length_bytes]
    rfl
  | intent body => exact body.encode_length
  | submission => simp [payload, kind, MessageKind.width]
  | snapshot => simp [payload, kind, MessageKind.width]

theorem kind_eq {m m' : Message} (h : m.bytes = m'.bytes) : m.kind = m'.kind := by
  have hlength : m.kind.domain.length + m.kind.width = m'.kind.domain.length + m'.kind.width := by
    have := congrArg List.length h
    rwa [bytes_eq, bytes_eq, List.length_append, List.length_append, payload_length,
      payload_length] at this
  have hstart : m.kind.domain <+: m.bytes := ⟨m.payload, m.bytes_eq.symm⟩
  have hstart' : m'.kind.domain <+: m.bytes := ⟨m'.payload, by rw [h, bytes_eq]⟩
  rcases List.prefix_or_prefix_of_prefix hstart hstart' with hp | hp
  · exact MessageKind.eq_of_prefix _ _ hp hlength
  · exact (MessageKind.eq_of_prefix _ _ hp hlength.symm).symm

theorem unsigned_eq_of_payload {m m' : Message} (hkind : m.kind = m'.kind)
    (h : m.payload = m'.payload) : m.unsigned = m'.unsigned := by
  -- one kind each: the other pairs of constructors differ in their kind
  cases m <;> cases m' <;> simp only [kind, reduceCtorEq] at hkind
  case configuration.configuration c c' =>
    exact congrArg configuration (EpochConfigurationV1.layout.encode_injective h)
  case lock.lock p p' => exact congrArg lock (LockPayloadV1.layout.encode_injective h)
  case settlement.settlement p p' =>
    exact congrArg settlement (SettlementPayloadV1.layout.encode_injective h)
  case authorization.authorization a a' =>
    exact congrArg authorization (FundedAuthorizationV1.unsigned_eq h)
  case authorizationHash.authorizationHash a a' =>
    rw [payload, payload, FundedAuthorizationV1.encode_eq, FundedAuthorizationV1.encode_eq] at h
    exact congrArg authorizationHash (FundedAuthorizationV1.layout.encode_injective h)
  case intent.intent b b' => exact congrArg intent (IntentBodyV1.encode_injective h)
  case submission.submission e a c r e' a' c' r' =>
    have hfields := @encode_injective _ ((array 32).pair <| (array 32).pair <|
      (array 32).pair (array 32)) (e, a, c, r) (e', a', c', r') h
    simp only [Prod.mk.injEq] at hfields
    obtain ⟨rfl, rfl, rfl, rfl⟩ := hfields
    rfl
  case snapshot.snapshot e n r e' n' r' =>
    have hfields := @encode_injective _ ((array 32).pair <| u32.pair (array 32)) (e, n, r)
      (e', n', r') h
    simp only [Prod.mk.injEq] at hfields
    obtain ⟨rfl, rfl, rfl⟩ := hfields
    rfl

theorem unsigned_eq {m m' : Message} (h : m.bytes = m'.bytes) : m.unsigned = m'.unsigned := by
  have hkind := kind_eq h
  rw [bytes_eq, bytes_eq, hkind] at h
  exact unsigned_eq_of_payload hkind (List.append_cancel_left h)

def digest (sha256 : Bytes → Bytes32) (m : Message) : Bytes32 := sha256 m.bytes

theorem unsigned_eq_of_digest {sha256 : Bytes → Bytes32} {m m' : Message}
    (hinj : Set.InjOn sha256 {m.bytes, m'.bytes}) (h : m.digest sha256 = m'.digest sha256) :
    m.unsigned = m'.unsigned :=
  unsigned_eq (hinj (Set.mem_insert _ _) (Set.mem_insert_of_mem _ rfl) h)

end Message

/-! ### Signatures -/

/-- What a key signs: the operator and the traders sign messages, the keypers digests. -/
inductive Statement where
  | message (m : Message)
  | digest (m : Message)

namespace Statement

def bytes (sha256 : Bytes → Bytes32) : Statement → Bytes
  | message m => m.bytes
  | digest m => (m.digest sha256).bytes

def subject : Statement → Message
  | message m | digest m => m

def unsigned : Statement → Statement
  | message m => message m.unsigned
  | digest m => digest m.unsigned

/-- No message is as short as a digest. -/
theorem message_ne_digest (sha256 : Bytes → Bytes32) (m m' : Message) :
    (message m).bytes sha256 ≠ (digest m').bytes sha256 := by
  intro h
  have hlong : ∀ k : MessageKind, k.domain.length + k.width ≠ 32 := by
    intro k
    cases k <;> decide
  have hlength := congrArg List.length h
  rw [bytes, bytes, m.bytes_eq, List.length_append, m.payload_length, ByteVec.length_bytes]
    at hlength
  exact hlong _ hlength

theorem unsigned_eq {sha256 : Bytes → Bytes32} {x y : Statement}
    (hinj : Set.InjOn sha256 {x.subject.bytes, y.subject.bytes})
    (h : x.bytes sha256 = y.bytes sha256) : x.unsigned = y.unsigned := by
  cases x with
  | message m =>
    cases y with
    | message m' => exact congrArg message (Message.unsigned_eq h)
    | digest m' => exact absurd h (message_ne_digest sha256 m m')
  | digest m =>
    cases y with
    | message m' => exact absurd h.symm (message_ne_digest sha256 m' m)
    | digest m' =>
      exact congrArg digest (Message.unsigned_eq_of_digest hinj (ByteVec.bytes_injective h))

end Statement

namespace Host

variable (host : Host)

/-- What Ed25519 promises of a signature by `key` over `made`: it does not verify over `other`,
unless that is the same message. -/
def Binds (key : host.SigningKey) (made other : Bytes) : Prop :=
  host.verify (host.verifyingKey key) other (host.sign key made) = true → made = other

/-- `host.verify` on the bytes that an instruction to the verifier carries. -/
def Verifies (key signature message : Bytes) : Prop :=
  ∃ (k : Bytes32) (s : Bytes64), key = k.bytes ∧ signature = s.bytes ∧ host.verify k message s = true

end Host

def EncryptedSubmissionV1.statement (host : Host) (s : EncryptedSubmissionV1) : Message :=
  .submission s.authorization.epochId (s.authorization.hash host) (host.sha256 s.ciphertext)
    s.receipt

/-- The checks that take a signature by `key`, and what each of them takes it for. -/
inductive SignatureAccepted (host : Host) (key : Bytes32) (signature : Bytes64) : Statement → Prop
  | authorization {a : FundedAuthorizationV1} {policy : AdmissionPolicyV1}
      (verified : a.verify host policy = .ok ()) (operator : policy.operatorKey = key)
      (signed : a.operatorSignature = signature) :
      SignatureAccepted host key signature (.message (.authorization a))
  | snapshot {s : SignedBalanceSnapshotV1} {epochId : Bytes32} {records : List BalanceRecordV1}
      (verified : s.verify host epochId records key = .ok ()) (signed : s.signature = signature) :
      SignatureAccepted host key signature
        (.message (.snapshot s.epochId s.recordCount s.balanceRoot))
  | intent {i : SignedIntentV1} {epochId participantId : Bytes32}
      (verified : i.verify host key epochId participantId = .ok ())
      (signed : i.signature = signature) :
      SignatureAccepted host key signature (.message (.intent i.body))
  | submission {s : EncryptedSubmissionV1} {policy : AdmissionPolicyV1}
      (verified : s.verifyAdmission host policy = .ok ())
      (trader : s.authorization.tradingKey = key) (signed : s.outerSignature = signature) :
      SignatureAccepted host key signature (.message (s.statement host))
  | lockApproval {approval : LockApprovalV1} {payload : LockPayloadV1}
      (verified : approval.verify host = true) (keyper : approval.keyperKey = key)
      (signed : approval.signature = signature)
      (digest : approval.digest = payload.digest host.sha256) :
      SignatureAccepted host key signature (.digest (.lock payload))
  | settlementApproval {approval : SettlementApprovalV1}
      (verified : approval.verify host = true) (keyper : approval.keyperKey = key)
      (signed : approval.signature = signature) :
      SignatureAccepted host key signature (.digest (.settlement approval.payload))
  | program {tx : InstructionsSysvar} {i : Instruction} {m : Message}
      (verified : Precompile host.Verifies tx) (member : i ∈ tx.instructions)
      (approved : approves (m.digest host.sha256) key i = true)
      (signed : slice i.data 48 112 = signature.bytes) :
      SignatureAccepted host key signature (.digest m)

/-- Whatever the check, the signature verifies over the bytes of the statement. -/
theorem SignatureAccepted.verify {host : Host} {key : Bytes32} {signature : Bytes64}
    {x : Statement} (h : SignatureAccepted host key signature x) :
    host.verify key (x.bytes host.sha256) signature = true := by
  cases h with
  | authorization verified operator signed =>
    simp only [FundedAuthorizationV1.verify, bind_ok, Unique.exists_iff, rejectIf_eq_ok, not_or,
      not_not, Bool.not_eq_false] at verified
    obtain ⟨⟨-, hoperator, -⟩, -, -, hverify⟩ := verified
    rwa [signed, hoperator, operator] at hverify
  | snapshot verified signed =>
    simp only [SignedBalanceSnapshotV1.verify, bind_ok, Unique.exists_iff, rejectIf_eq_ok, not_or,
      not_not, Bool.not_eq_false] at verified
    obtain ⟨count, -, ⟨-, -, hkey⟩, root, -, -, -, hverify⟩ := verified
    rwa [signed, hkey] at hverify
  | intent verified signed =>
    simp only [SignedIntentV1.verify, bind_ok, Unique.exists_iff, rejectIf_eq_ok,
      Bool.not_eq_false] at verified
    rw [← signed]
    exact verified.2.2
  | submission verified trader signed =>
    simp only [EncryptedSubmissionV1.verifyAdmission, bind_ok, Unique.exists_iff, rejectIf_eq_ok,
      Bool.not_eq_false] at verified
    obtain ⟨-, -, -, -, -, hverify⟩ := verified
    rwa [signed, trader] at hverify
  | lockApproval verified keyper signed digest =>
    simp only [LockApprovalV1.verify, Bool.and_eq_true] at verified
    have hverify := verified.2
    rwa [keyper, signed, digest] at hverify
  | settlementApproval verified keyper signed =>
    simp only [SettlementApprovalV1.verify, Bool.and_eq_true, decide_eq_true_eq] at verified
    obtain ⟨-, hdigest, hverify⟩ := verified
    rwa [keyper, signed, hdigest] at hverify
  | program verified member approved signed =>
    obtain ⟨k, s, hk, hs, hverify⟩ := verified.signed member approved
    rw [ByteVec.bytes_injective hk, ByteVec.bytes_injective (signed.symm.trans hs)]
    exact hverify

/-- The messages behind the digests that a submission is signed with. -/
def EncryptedSubmissionV1.hashed (s : EncryptedSubmissionV1) : Set Bytes :=
  {fundedAuthDomain ++ s.authorization.encode, s.ciphertext}

theorem EncryptedSubmissionV1.fields_eq_of_statement {host : Host} {s s' : EncryptedSubmissionV1}
    (hinj : Set.InjOn host.sha256 (s.hashed ∪ s'.hashed))
    (h : (s.statement host).bytes = (s'.statement host).bytes) :
    s.authorization = s'.authorization ∧ s.ciphertext = s'.ciphertext ∧ s.receipt = s'.receipt := by
  have hfields := Message.unsigned_eq h
  simp only [statement, Message.unsigned, Message.submission.injEq] at hfields
  obtain ⟨-, hhash, hciphertext, hreceipt⟩ := hfields
  have hauthorization := hinj (Or.inl (Set.mem_insert _ _)) (Or.inr (Set.mem_insert _ _)) hhash
  have hencode := List.append_cancel_left hauthorization
  rw [FundedAuthorizationV1.encode_eq, FundedAuthorizationV1.encode_eq] at hencode
  exact ⟨FundedAuthorizationV1.layout.encode_injective hencode,
    hinj (Or.inl (Set.mem_insert_of_mem _ rfl)) (Or.inr (Set.mem_insert_of_mem _ rfl)) hciphertext,
    hreceipt⟩

theorem messages_unambiguous (host : Host) :
    (∀ m m' : Message, m.bytes = m'.bytes → m.unsigned = m'.unsigned) ∧
    (∀ (c : EpochConfigurationV1) (p : LockPayloadV1) (q : SettlementPayloadV1),
      Set.InjOn host.sha256 {c.message, p.message, q.message} →
      c.digest host.sha256 ≠ p.digest host.sha256 ∧ c.digest host.sha256 ≠ q.digest host.sha256 ∧
        p.digest host.sha256 ≠ q.digest host.sha256) ∧
    (∀ (key : host.SigningKey) (x y : Statement),
      host.Binds key (x.bytes host.sha256) (y.bytes host.sha256) →
      Set.InjOn host.sha256 {x.subject.bytes, y.subject.bytes} →
      SignatureAccepted host (host.verifyingKey key) (host.sign key (x.bytes host.sha256)) y →
      x.unsigned = y.unsigned) ∧
    (∀ s s' : EncryptedSubmissionV1, Set.InjOn host.sha256 (s.hashed ∪ s'.hashed) →
      (s.statement host).bytes = (s'.statement host).bytes →
      s.authorization = s'.authorization ∧ s.ciphertext = s'.ciphertext ∧
        s.receipt = s'.receipt) := by
  refine ⟨fun m m' => Message.unsigned_eq, ?_, ?_,
    fun s s' => EncryptedSubmissionV1.fields_eq_of_statement⟩
  · intro c p q hinj
    have hdigest : ∀ m m' : Message, m.bytes ∈ ({c.message, p.message, q.message} : Set Bytes) →
        m'.bytes ∈ ({c.message, p.message, q.message} : Set Bytes) →
        m.digest host.sha256 = m'.digest host.sha256 → m.unsigned = m'.unsigned :=
      fun m m' hm hm' h => Message.unsigned_eq (hinj hm hm' h)
    have hc : (Message.configuration c).bytes ∈ ({c.message, p.message, q.message} : Set Bytes) :=
      Or.inl rfl
    have hp : (Message.lock p).bytes ∈ ({c.message, p.message, q.message} : Set Bytes) :=
      Or.inr (Or.inl rfl)
    have hq : (Message.settlement q).bytes ∈ ({c.message, p.message, q.message} : Set Bytes) :=
      Or.inr (Or.inr rfl)
    refine ⟨fun h => ?_, fun h => ?_, fun h => ?_⟩
    · cases hdigest _ _ hc hp h
    · cases hdigest _ _ hc hq h
    · cases hdigest _ _ hp hq h
  · intro key x y hbinds hinj haccepted
    exact Statement.unsigned_eq hinj (hbinds haccepted.verify)

namespace Sample

/-- The hashes of the sample messages, and that the sample authorization is accepted, evaluated
once. -/
theorem messages_facts :
    ([configuration.message, lockPayload.message, settlementPayload.message].map sha256).Nodup ∧
    (authorization 1).verify host packageOpen.policy = .ok () ∧
    ([fundedAuthDomain ++ (authorization 1).encode, (submission 1).ciphertext].map
      sha256).Nodup := by
  decide +kernel

theorem digests_injOn : Set.InjOn host.sha256
    {configuration.message, lockPayload.message, settlementPayload.message} := by
  have hdistinct := messages_facts.1
  intro m hm m' hm' h
  exact List.inj_on_of_nodup_map hdistinct (by simpa using hm) (by simpa using hm') h

theorem authorization_signed (member : UInt8) : (authorization member).operatorSignature =
    host.sign operator (Message.authorization (authorization member).unsigned).bytes := rfl

/-- The operator signs the fields of an authorization, and the signed authorization is accepted. -/
theorem authorization_accepted : SignatureAccepted host operator
    (host.sign operator (Message.authorization (authorization 1).unsigned).bytes)
    (.message (.authorization (authorization 1))) := by
  exact .authorization messages_facts.2.1 rfl (authorization_signed 1)

/-- A submission before it is signed. -/
def unsealed (s : EncryptedSubmissionV1) : EncryptedSubmissionV1 :=
  { s with outerSignature := ByteVec.zero 64 }

theorem statement_unsealed (s : EncryptedSubmissionV1) :
    ((unsealed s).statement host).bytes = (s.statement host).bytes := rfl

theorem submission_injOn :
    Set.InjOn host.sha256 ((unsealed (submission 1)).hashed ∪ (submission 1).hashed) := by
  have hdistinct := messages_facts.2.2
  have hhashed : ∀ s, (unsealed s).hashed ∪ s.hashed = s.hashed := fun s => Set.union_self _
  rw [hhashed]
  intro m hm m' hm' h
  exact List.inj_on_of_nodup_map hdistinct (List.mem_pair.mpr hm) (List.mem_pair.mpr hm') h

end Sample

theorem messages_unambiguous_sample :
    (Sample.configuration.digest Sample.sha256 ≠ Sample.lockPayload.digest Sample.sha256 ∧
      Sample.configuration.digest Sample.sha256 ≠ Sample.settlementPayload.digest Sample.sha256 ∧
      Sample.lockPayload.digest Sample.sha256 ≠ Sample.settlementPayload.digest Sample.sha256) ∧
    (Statement.message (.authorization (Sample.authorization 1).unsigned)).unsigned =
      (Statement.message (.authorization (Sample.authorization 1))).unsigned ∧
    (Sample.unsealed (Sample.submission 1)).authorization = (Sample.submission 1).authorization := by
  have hsame : ∀ a : FundedAuthorizationV1,
      (Message.authorization a.unsigned).bytes = (Message.authorization a).bytes := fun _ => rfl
  have hinj : ∀ {m m' : Bytes}, m = m' → Set.InjOn Sample.host.sha256 {m, m'} := by
    rintro m _ rfl _ (rfl | rfl) _ (rfl | rfl) _ <;> rfl
  obtain ⟨-, hdigests, hsigned, hsubmissions⟩ := messages_unambiguous Sample.host
  refine ⟨hdigests _ _ _ Sample.digests_injOn, ?_, ?_⟩
  · exact hsigned Sample.operator _ _ (fun _ => hsame _) (hinj (hsame _))
      Sample.authorization_accepted
  · exact (hsubmissions _ _ Sample.submission_injOn (Sample.statement_unsealed _)).1

end Kageb
