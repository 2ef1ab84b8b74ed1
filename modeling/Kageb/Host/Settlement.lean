import Kageb.Host.Package

/-! Settlement: a keyper recovers the orders of a locked package, nets them, and approves the
result of its own computation. -/

namespace Kageb

open Binary Checks Maps

/-- `RESULT_COMMITMENT_DOMAIN`, the bytes of `KAGEB_RESULT_COMMITMENT_V1\0`. -/
def resultCommitmentDomain : Bytes :=
  [75, 65, 71, 69, 66, 95, 82, 69, 83, 85, 76, 84, 95, 67, 79, 77, 77, 73, 84, 77, 69, 78, 84, 95,
    86, 49, 0]

/-- `RECOVERED_INTENTS_DOMAIN`, the bytes of `KAGEB_RECOVERED_INTENTS_V1\0`. -/
def recoveredIntentsDomain : Bytes :=
  [75, 65, 71, 69, 66, 95, 82, 69, 67, 79, 86, 69, 82, 69, 68, 95, 73, 78, 84, 69, 78, 84, 83, 95,
    86, 49, 0]

inductive SettlementValidationError where
  | invalidLock
  | invalidBatch
  | invalidBalance
  | invalidResult
  | invalidNonce
  | wrongKeyper
  | memberLimitExceeded
  deriving DecidableEq

structure SettlementBalanceV1 where
  participantId : Bytes32
  baseAtoms : UInt64
  quoteAtoms : UInt64
  deriving DecidableEq

/-- Two shares of one member, from different keypers. -/
structure DecryptionEvidenceV1 (host : Host) where
  first : ReleasedShareV1 host
  second : ReleasedShareV1 host
  index_ne : first.index ≠ second.index

namespace DecryptionEvidenceV1

variable {host : Host}

def new (first second : ReleasedShareV1 host) :
    Except SettlementValidationError (DecryptionEvidenceV1 host) :=
  if h : first.index = second.index then .error .invalidBatch else .ok ⟨first, second, h⟩

def shares (evidence : DecryptionEvidenceV1 host) : List (ReleasedShareV1 host) :=
  [evidence.first, evidence.second]

end DecryptionEvidenceV1

structure SettlementRequestV1 (host : Host) where
  package : LockPackageV1 host
  decryptionEvidence : List (DecryptionEvidenceV1 host)
  postBalances : List SettlementBalanceV1
  preBalanceRoot : Bytes32
  postBalanceRoot : Bytes32
  residual : Residual
  resultRoot : Bytes32
  resultCommitment : Bytes32
  settlementNonce : Bytes32
  settlementDigest : Bytes32

structure SettlementApprovalV1 where
  keyperKey : Bytes32
  payload : SettlementPayloadV1
  digest : Bytes32
  signature : Bytes64
  deriving DecidableEq

def SettlementApprovalV1.verify (host : Host) (approval : SettlementApprovalV1) : Bool :=
  host.validKey approval.keyperKey &&
    (approval.digest = approval.payload.digest host.sha256 &&
      host.verify approval.keyperKey approval.digest.bytes approval.signature)

structure RecomputedSettlement where
  postBalances : List SettlementBalanceV1
  preBalanceRoot : Bytes32
  postBalanceRoot : Bytes32
  residual : Residual
  resultRoot : Bytes32
  resultCommitment : Bytes32
  payload : SettlementPayloadV1
  deriving DecidableEq

def residualWire : Residual → UInt8 × UInt32
  | .none => (0, 0)
  | .buy lots => (1, lots)
  | .sell lots => (2, lots)

def encodeSettlementBalance (balance : SettlementBalanceV1) : Bytes :=
  balance.participantId.bytes ++ le64 balance.baseAtoms ++ le64 balance.quoteAtoms

def settlementBalanceRoot (host : Host) (balances : List SettlementBalanceV1) :
    Except SettlementValidationError Bytes32 :=
  (contentRoot host.sha256 .balanceSet (balances.map encodeSettlementBalance)).mapError
    fun _ => .invalidBalance

def resultLeaf (before : Map ParticipantId PoolBalance) (balance : SettlementBalanceV1) :
    Except SettlementValidationError Bytes := do
  let prior ← okOr before[balance.participantId]? .invalidBalance
  .ok (balance.participantId.bytes ++ le64 prior.baseAtoms ++ le64 prior.quoteAtoms ++
    le64 balance.baseAtoms ++ le64 balance.quoteAtoms)

def perParticipantResultRoot (host : Host) (before : Map ParticipantId PoolBalance)
    (after : List SettlementBalanceV1) : Except SettlementValidationError Bytes32 := do
  let leaves ← after.mapM (resultLeaf before)
  (contentRoot host.sha256 .resultSet leaves).mapError fun _ => .invalidResult

def recoveredIntentsRoot (host : Host) (recovered : List SignedIntentV1) : Bytes32 :=
  let leaves := sortedHashes host.sha256 (recovered.map SignedIntentV1.encode)
  host.sha256 (recoveredIntentsDomain ++ leBytes 8 leaves.length ++ leaves.flatMap ByteVec.bytes)

def resultCommitment (host : Host) (confirmed : ConfirmedLock)
    (recoveredRoot preBalanceRoot postBalanceRoot : Bytes32) (residual : Residual)
    (resultRoot : Bytes32) : Bytes32 :=
  let (side, lots) := residualWire residual
  host.sha256 (resultCommitmentDomain ++ confirmed.epochAccount.bytes ++
    confirmed.state.lockDigest.bytes ++ recoveredRoot.bytes ++ preBalanceRoot.bytes ++
    postBalanceRoot.bytes ++ [side] ++ le32 lots ++ resultRoot.bytes)

def BatchResult.postBalances (result : BatchResult) : List SettlementBalanceV1 :=
  result.balances.toList.map fun (participantId, balance) =>
    { participantId, baseAtoms := balance.baseAtoms, quoteAtoms := balance.quoteAtoms }

def ConfirmedLock.settlementPayload (confirmed : ConfirmedLock) (pool : PoolStateV1)
    (resultCommitment : Bytes32) (residual : Residual) (settlementNonce : Bytes32) :
    SettlementPayloadV1 where
  epochAccount := confirmed.epochAccount
  lockDigest := confirmed.state.lockDigest
  resultCommitment := resultCommitment
  residualSide := (residualWire residual).1
  residualLots := (residualWire residual).2
  baseLotAtoms := confirmed.state.baseLotAtoms
  quoteAtomsPerLot := confirmed.state.quoteAtomsPerLot
  baseMint := pool.baseMint
  quoteMint := pool.quoteMint
  poolBaseVault := pool.poolBaseVault
  poolQuoteVault := pool.poolQuoteVault
  venueBaseAccount := pool.venueBaseAccount
  venueQuoteAccount := pool.venueQuoteAccount
  venueAuthority := pool.venueAuthority
  settlementNonce := settlementNonce

section Recompute

variable {host : Host}

def recoverMember (package : LockPackageV1 host) (confirmed : ConfirmedLock)
    (member : EncryptedSubmissionV1 × DecryptionEvidenceV1 host) :
    Except SettlementValidationError SignedIntentV1 := do
  rejectIf (∃ share ∈ member.2.shares, share.epochAccount ≠ confirmed.epochAccount ∨
    share.lockDigest ≠ confirmed.state.lockDigest) .invalidBatch
  (package.epochPublicKeys.recoverSubmission member.1 member.2.shares).mapError
    fun _ => .invalidBatch

def byParticipant (members : Map Bytes32 EncryptedSubmissionV1) :
    List EncryptedSubmissionV1 → Except SettlementValidationError (Map Bytes32 EncryptedSubmissionV1)
  | [] => .ok members
  | s :: submissions => do
    rejectIf (s.authorization.participantId ∈ members) .invalidBatch
    byParticipant (members.insert s.authorization.participantId s) submissions

/-- The loop over the recovered intents: each is signed by the trader that submitted for its
participant, and no two name the same participant. -/
def collectOrders (host : Host) (epochId : Bytes32) (submissions : Map Bytes32 EncryptedSubmissionV1)
    (seen : Finset Bytes32) : List SignedIntentV1 →
    Except SettlementValidationError (List FundedOrder)
  | [] => .ok []
  | intent :: recovered => do
    let participant := intent.body.participantId
    let submission ← okOr submissions[participant]? .invalidBatch
    rejectIf (participant ∈ seen) .invalidBatch
    rejectIf (host.validKey submission.authorization.tradingKey = false) .invalidBatch
    (intent.verify host submission.authorization.tradingKey epochId participant).mapError
      fun _ => .invalidBatch
    let order ← (FundedOrder.new participant intent.body.side intent.body.limitPrice).mapError
      fun _ => .invalidBatch
    let orders ← collectOrders host epochId submissions (insert participant seen) recovered
    .ok (order :: orders)

def recompute (package : LockPackageV1 host) (evidence : List (DecryptionEvidenceV1 host))
    (settlementNonce : Bytes32) (confirmed : ConfirmedLock) :
    Except SettlementValidationError RecomputedSettlement := do
  let _ ← (package.validateLocked confirmed).mapError fun _ => .invalidLock
  rejectIf (settlementNonce = zero32 ∨ settlementNonce = confirmed.state.lockNonce) .invalidNonce
  rejectIf (evidence.length ≠ package.submissions.length ∨ evidence.length > maxBatchMembers)
    .invalidBatch
  let recovered ← (package.submissions.zip evidence).mapM (recoverMember package confirmed)
  let submissions ← byParticipant ∅ package.submissions
  let orders ← collectOrders host package.configuration.epochId submissions ∅ recovered
  let before := Map.ofList (package.balances.map fun b => (b.participantId, b.poolBalance))
  rejectIf (before.size ≠ package.balances.length) .invalidBalance
  let config ← (BatchConfig.new package.configuration.baseLotAtoms
    package.configuration.quoteAtomsPerLot).mapError fun _ => .invalidBatch
  let result ← (netBatch config before orders).mapError fun _ => .invalidBatch
  rejectIf (result.conserves before = false) .invalidBalance
  let postBalanceRoot ← settlementBalanceRoot host result.postBalances
  let resultRoot ← perParticipantResultRoot host before result.postBalances
  let commitment := resultCommitment host confirmed (recoveredIntentsRoot host recovered)
    package.preBalanceRoot postBalanceRoot result.residual resultRoot
  let pool ← okOr confirmed.pool .invalidLock
  .ok
    { postBalances := result.postBalances
      preBalanceRoot := package.preBalanceRoot
      postBalanceRoot
      residual := result.residual
      resultRoot
      resultCommitment := commitment
      payload :=
        confirmed.settlementPayload pool commitment result.residual settlementNonce }

def SettlementRequestV1.build (package : LockPackageV1 host)
    (decryptionEvidence : List (DecryptionEvidenceV1 host)) (settlementNonce : Bytes32)
    (confirmed : ConfirmedLock) :
    Except SettlementValidationError (SettlementRequestV1 host) := do
  let recomputed ← recompute package decryptionEvidence settlementNonce confirmed
  .ok
    { package
      decryptionEvidence
      postBalances := recomputed.postBalances
      preBalanceRoot := recomputed.preBalanceRoot
      postBalanceRoot := recomputed.postBalanceRoot
      residual := recomputed.residual
      resultRoot := recomputed.resultRoot
      resultCommitment := recomputed.resultCommitment
      settlementNonce
      settlementDigest := recomputed.payload.digest host.sha256 }

def ReferenceKeyper.signSettlement (keyper : ReferenceKeyper host)
    (request : SettlementRequestV1 host) (confirmed : ConfirmedLock)
    (secret : KeyperSecretShare host) : Except SettlementValidationError SettlementApprovalV1 := do
  let recomputed ← recompute request.package request.decryptionEvidence request.settlementNonce
    confirmed
  let digest := recomputed.payload.digest host.sha256
  rejectIf (request.postBalances ≠ recomputed.postBalances ∨
    request.preBalanceRoot ≠ recomputed.preBalanceRoot ∨
    request.postBalanceRoot ≠ recomputed.postBalanceRoot ∨
    request.residual ≠ recomputed.residual ∨ request.resultRoot ≠ recomputed.resultRoot ∨
    request.resultCommitment ≠ recomputed.resultCommitment ∨ request.settlementDigest ≠ digest)
    .invalidResult
  let pool ← okOr confirmed.pool .invalidLock
  let configured ← okOr pool.keypers.toList[keyper.index]? .wrongKeyper
  rejectIf (configured ≠ host.verifyingKey keyper.signingKey ∨ secret.index ≠ keyper.index ∨
    secret.epochAccount ≠ request.package.epochAccount ∨
    request.package.epochPublicKeys.matchesShare secret = false ∨
    keyper.journal.digest confirmed.epochAccount ≠ some confirmed.state.lockDigest) .wrongKeyper
  .ok
    { keyperKey := host.verifyingKey keyper.signingKey
      payload := recomputed.payload
      digest
      signature := host.sign keyper.signingKey digest.bytes }

/-! ### What is recomputed -/

def SignedIntentV1.order (intent : SignedIntentV1) : FundedOrder :=
  ⟨intent.body.participantId, intent.body.side, intent.body.limitPrice, intent.body.limitPrice_ne⟩

theorem collectOrders_ok {epochId : Bytes32} {submissions : Map Bytes32 EncryptedSubmissionV1}
    {seen : Finset Bytes32} {recovered : List SignedIntentV1} {orders : List FundedOrder}
    (h : collectOrders host epochId submissions seen recovered = .ok orders) :
    orders = recovered.map SignedIntentV1.order := by
  induction recovered generalizing seen orders with
  | nil => exact (Except.ok.inj h).symm
  | cons intent recovered ih =>
    simp only [collectOrders, bind_ok, Unique.exists_iff, mapError_eq_ok] at h
    obtain ⟨_, -, -, -, -, order, horder, rest, hrest, hok⟩ := h
    rw [← Except.ok.inj hok, ih hrest, List.map_cons]
    unfold FundedOrder.new at horder
    split at horder
    · cases horder
    · rw [← Except.ok.inj horder]
      rfl

/-- Some two shares recover `intent` from the submission. -/
def Recovers (k : EpochPublicKeys host) (s : EncryptedSubmissionV1) (intent : SignedIntentV1) :
    Prop :=
  ∃ a b, k.recoverSubmission s [a, b] = .ok intent

theorem recoverMembers_ok {package : LockPackageV1 host} {confirmed : ConfirmedLock}
    {submissions : List EncryptedSubmissionV1} {evidence : List (DecryptionEvidenceV1 host)}
    {recovered : List SignedIntentV1} (hlength : evidence.length = submissions.length)
    (h : (submissions.zip evidence).mapM (recoverMember package confirmed) = .ok recovered) :
    List.Forall₂ (Recovers package.epochPublicKeys) submissions recovered := by
  rw [mapM_ok] at h
  have hfst : (submissions.zip evidence).map Prod.fst = submissions :=
    List.map_fst_zip (by omega)
  rw [← hfst, List.forall₂_map_left_iff]
  refine h.imp fun member intent hmember => ?_
  simp only [recoverMember, bind_ok, Unique.exists_iff, mapError_eq_ok] at hmember
  exact ⟨_, _, hmember.2⟩

def LockPackageV1.before (package : LockPackageV1 host) : Map ParticipantId PoolBalance :=
  Map.ofList (package.balances.map fun b => (b.participantId, b.poolBalance))

/-- How the parts of a recomputed settlement come from the package and its recovered orders. -/
structure Recomputed (package : LockPackageV1 host) (settlementNonce : Bytes32)
    (confirmed : ConfirmedLock) (pool : PoolStateV1) (recovered : List SignedIntentV1)
    (result : BatchResult) (r : RecomputedSettlement) : Prop where
  locked : package.Locked confirmed pool
  recovers : List.Forall₂ (Recovers package.epochPublicKeys) package.submissions recovered
  participants : (package.balances.map BalanceRecordV1.participantId).Nodup
  netted : ∃ config, BatchConfig.new package.configuration.baseLotAtoms
      package.configuration.quoteAtomsPerLot = .ok config ∧
    Netted config package.before (recovered.map SignedIntentV1.order) result
  postBalances : r.postBalances = result.postBalances
  preBalanceRoot : r.preBalanceRoot = package.preBalanceRoot
  postBalanceRoot : settlementBalanceRoot host result.postBalances = .ok r.postBalanceRoot
  residual : r.residual = result.residual
  resultRoot : perParticipantResultRoot host package.before result.postBalances = .ok r.resultRoot
  resultCommitment : r.resultCommitment = Kageb.resultCommitment host confirmed
    (recoveredIntentsRoot host recovered) package.preBalanceRoot r.postBalanceRoot result.residual
    r.resultRoot
  payload : r.payload =
    confirmed.settlementPayload pool r.resultCommitment result.residual settlementNonce

theorem recompute_recovered {package : LockPackageV1 host}
    {evidence : List (DecryptionEvidenceV1 host)} {settlementNonce : Bytes32}
    {confirmed : ConfirmedLock} {r : RecomputedSettlement}
    (h : recompute package evidence settlementNonce confirmed = .ok r) :
    ∃ recovered, (package.submissions.zip evidence).mapM (recoverMember package confirmed) =
        .ok recovered ∧
      ∃ pool result, Recomputed package settlementNonce confirmed pool recovered result r := by
  simp only [recompute, bind_ok, Unique.exists_iff, mapError_eq_ok, rejectIf_eq_ok, okOr_eq_ok,
    not_or, not_not] at h
  obtain ⟨digest, hdigest, -, ⟨hlength, -⟩, recovered, hrecovered, submissions, -, orders, horders,
    hsize, config, hconfig, result, hresult, -, postRoot, hpost, root, hroot, pool, hpool, hok⟩ := h
  obtain ⟨pool', hlocked, -⟩ := LockPackageV1.validateLocked_ok hdigest
  obtain rfl : pool' = pool := Option.some.inj (hlocked.poolRead.symm.trans hpool)
  cases hok
  have hparticipants : (package.balances.map BalanceRecordV1.participantId).Nodup := by
    have := Map.size_ofList_eq_length.mp (hsize.trans (List.length_map _).symm)
    rwa [List.map_map] at this
  have hnetted := netBatch_ok hresult
  rw [collectOrders_ok horders] at hnetted
  exact ⟨recovered, hrecovered, pool', result, hlocked, recoverMembers_ok hlength hrecovered,
    hparticipants, ⟨config, hconfig, hnetted⟩, rfl, rfl, hpost, rfl, hroot, rfl, rfl⟩

theorem recompute_ok {package : LockPackageV1 host} {evidence : List (DecryptionEvidenceV1 host)}
    {settlementNonce : Bytes32} {confirmed : ConfirmedLock} {r : RecomputedSettlement}
    (h : recompute package evidence settlementNonce confirmed = .ok r) :
    ∃ pool recovered result,
      Recomputed package settlementNonce confirmed pool recovered result r := by
  obtain ⟨recovered, -, pool, result, hr⟩ := recompute_recovered h
  exact ⟨pool, recovered, result, hr⟩

end Recompute

end Kageb
