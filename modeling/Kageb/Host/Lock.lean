import Kageb.Host.Commitment
import Kageb.Host.Crypto
import Kageb.Host.Ledger
import Kageb.Lib.Files
import Kageb.Program.Runtime

/-! Lock packages: the members and balances that a coordinator proposes for an epoch, what a
keyper checks before it approves them, and what it reads from the chain to do so. -/

namespace Kageb

open Binary Binary.Codec Checks Maps

/-- `SNAPSHOT_DOMAIN`, the bytes of `KAGEB_BALANCE_SNAPSHOT_V1\0`. -/
def snapshotDomain : Bytes :=
  [75, 65, 71, 69, 66, 95, 66, 65, 76, 65, 78, 67, 69, 95, 83, 78, 65, 80, 83, 72, 79, 84, 95, 86,
    49, 0]

def maxBatchMembers : Nat := 64

inductive LockValidationError where
  | invalidBalance
  | invalidSnapshot
  | invalidConfiguration
  | invalidSubmission
  | duplicateParticipant
  | duplicateAuthorization
  | duplicateReceipt
  | memberCountMismatch
  | memberLimitExceeded
  | crowdBelowMinimum
  | memberRootMismatch
  | deadlinePassed
  | wrongKeyper
  | conflictingLock
  | corruptJournal
  | journalBusy
  | io (kind : Files.ErrorKind)
  | rpc
  | missingAccount
  | invalidOnchainEpoch
  | invalidOnchainLock
  deriving DecidableEq

@[ext] structure BalanceRecordV1 where
  participantId : Bytes32
  baseAtoms : UInt64
  quoteAtoms : UInt64
  reservedBaseAtoms : UInt64
  reservedQuoteAtoms : UInt64
  participantId_ne : participantId ≠ zero32
  reservedBaseAtoms_ne : reservedBaseAtoms ≠ 0
  reservedQuoteAtoms_ne : reservedQuoteAtoms ≠ 0
  reservedBaseAtoms_le : reservedBaseAtoms ≤ baseAtoms
  reservedQuoteAtoms_le : reservedQuoteAtoms ≤ quoteAtoms

instance : DecidableEq BalanceRecordV1 := fun a b =>
  decidable_of_iff
    (a.participantId = b.participantId ∧ a.baseAtoms = b.baseAtoms ∧ a.quoteAtoms = b.quoteAtoms ∧
      a.reservedBaseAtoms = b.reservedBaseAtoms ∧ a.reservedQuoteAtoms = b.reservedQuoteAtoms)
    BalanceRecordV1.ext_iff.symm

namespace BalanceRecordV1

def new (participantId : Bytes32)
    (baseAtoms quoteAtoms reservedBaseAtoms reservedQuoteAtoms : UInt64) :
    Except LockValidationError BalanceRecordV1 :=
  if h : participantId ≠ zero32 ∧ reservedBaseAtoms ≠ 0 ∧ reservedQuoteAtoms ≠ 0 ∧
      reservedBaseAtoms ≤ baseAtoms ∧ reservedQuoteAtoms ≤ quoteAtoms then
    .ok ⟨participantId, baseAtoms, quoteAtoms, reservedBaseAtoms, reservedQuoteAtoms, h.1, h.2.1,
      h.2.2.1, h.2.2.2.1, h.2.2.2.2⟩
  else .error .invalidBalance

def encode (b : BalanceRecordV1) : Bytes :=
  b.participantId.bytes ++ le64 b.baseAtoms ++ le64 b.quoteAtoms ++ le64 b.reservedBaseAtoms ++
    le64 b.reservedQuoteAtoms

def poolBalance (b : BalanceRecordV1) : PoolBalance := ⟨b.baseAtoms, b.quoteAtoms⟩

end BalanceRecordV1

def balanceRoot (host : Host) (records : List BalanceRecordV1) :
    Except LockValidationError Bytes32 :=
  (contentRoot host.sha256 .balanceSet (records.map BalanceRecordV1.encode)).mapError
    fun _ => .invalidBalance

def memberRoot (host : Host) (publicKeys : EpochPublicKeys host)
    (submissions : List EncryptedSubmissionV1) : Except LockValidationError Bytes32 := do
  let leaf ← publicKeys.commitmentLeaf.mapError fun _ => .invalidConfiguration
  (contentRoot host.sha256 .memberSet
    (leaf :: submissions.map (EncryptedSubmissionV1.commitmentBytes host))).mapError
    fun _ => .invalidSubmission

def snapshotMessage (epochId : Bytes32) (count : UInt32) (root : Bytes32) : Bytes :=
  snapshotDomain ++ epochId.bytes ++ le32 count ++ root.bytes

structure SignedBalanceSnapshotV1 where
  epochId : Bytes32
  recordCount : UInt32
  balanceRoot : Bytes32
  operatorKey : Bytes32
  signature : Bytes64
  deriving DecidableEq

def SignedBalanceSnapshotV1.verify (host : Host) (s : SignedBalanceSnapshotV1) (epochId : Bytes32)
    (records : List BalanceRecordV1) (operatorKey : Bytes32) : Except LockValidationError Unit := do
  let count ← okOr (count32 records.length) .invalidSnapshot
  rejectIf (s.epochId ≠ epochId ∨ s.recordCount ≠ count ∨ s.operatorKey ≠ operatorKey)
    .invalidSnapshot
  let root ← Kageb.balanceRoot host records
  rejectIf (s.balanceRoot ≠ root) .invalidSnapshot
  rejectIf (host.validKey s.operatorKey = false) .invalidSnapshot
  rejectIf (host.verify s.operatorKey (snapshotMessage s.epochId s.recordCount s.balanceRoot)
    s.signature = false) .invalidSnapshot

/-- A confirmed read of an open epoch, its pool and the clock. -/
structure ConfirmedOpenEpoch where
  epochAccount : Pubkey
  configuration : EpochConfigurationV1
  policy : AdmissionPolicyV1
  currentTimestamp : Int64
  confirmationSlot : UInt64
  deriving DecidableEq

/-- A confirmed read of a locked epoch, and of its pool when that was read too. -/
structure ConfirmedLock where
  epochAccount : Pubkey
  state : EpochStateV1
  pool : Option PoolStateV1
  confirmationSlot : UInt64
  deriving DecidableEq

/-- A confirmed read of an epoch that ended without a settlement. -/
structure ConfirmedTerminalEpoch where
  epochAccount : Pubkey
  epochId : Bytes32
  terminalState : EpochTerminalState
  confirmationSlot : UInt64
  deriving DecidableEq

structure LockPackageV1 (host : Host) where
  epochAccount : Pubkey
  configuration : EpochConfigurationV1
  epochPublicKeys : EpochPublicKeys host
  submissions : List EncryptedSubmissionV1
  balances : List BalanceRecordV1
  balanceSnapshot : SignedBalanceSnapshotV1
  preBalanceRoot : Bytes32
  memberRoot : Bytes32
  memberCount : UInt32
  lockNonce : Bytes32

/-- The loop over the submissions: each is admitted, and no two share a participant, a nonce or a
receipt. -/
def checkMembers (host : Host) (policy : AdmissionPolicyV1)
    (participants nonces receipts : Finset Bytes32) :
    List EncryptedSubmissionV1 → Except LockValidationError Unit
  | [] => .ok ()
  | s :: submissions => do
    (s.verifyAdmission host policy).mapError fun _ => .invalidSubmission
    rejectIf (s.authorization.participantId ∈ participants) .duplicateParticipant
    rejectIf (s.authorization.nonce ∈ nonces) .duplicateAuthorization
    rejectIf (s.receipt ∈ receipts) .duplicateReceipt
    checkMembers host policy (insert s.authorization.participantId participants)
      (insert s.authorization.nonce nonces) (insert s.receipt receipts) submissions

/-- The loop that matches every submission with a balance. -/
def checkBalances (balances : Map Bytes32 BalanceRecordV1) :
    List EncryptedSubmissionV1 → Except LockValidationError Unit
  | [] => .ok ()
  | s :: submissions => do
    let balance ← okOr balances[s.authorization.participantId]? .invalidBalance
    rejectIf (balance.reservedBaseAtoms ≠ s.authorization.baseAtoms ∨
      balance.reservedQuoteAtoms ≠ s.authorization.quoteAtoms ∨
      balance.baseAtoms < balance.reservedBaseAtoms ∨
      balance.quoteAtoms < balance.reservedQuoteAtoms) .invalidBalance
    checkBalances balances submissions

namespace LockPackageV1

variable {host : Host} (package : LockPackageV1 host)

def lockPayload : LockPayloadV1 where
  epochAccount := package.epochAccount
  configurationHash := package.configuration.digest host.sha256
  preBalanceRoot := package.preBalanceRoot
  memberRoot := package.memberRoot
  memberCount := package.memberCount
  lockDeadline := package.configuration.lockDeadline
  lockNonce := package.lockNonce

def validate (confirmed : ConfirmedOpenEpoch) : Except LockValidationError Bytes32 := do
  let configuration := package.configuration
  rejectIf (package.epochAccount ≠ confirmed.epochAccount ∨
    configuration ≠ confirmed.configuration ∨ configuration.minimumCount < 4 ∨
    configuration.lockThreshold ≠ 2 ∨ configuration.settlementThreshold ≠ 2 ∨
    configuration.pool = zero32 ∨ configuration.baseMint = zero32 ∨
    configuration.quoteMint = zero32 ∨ configuration.baseMint = configuration.quoteMint ∨
    zero32 ∈ configuration.keypers.toList ∨
    configuration.keypers.first = configuration.keypers.second ∨
    configuration.keypers.first = configuration.keypers.third ∨
    configuration.keypers.second = configuration.keypers.third ∨
    configuration.abortDeadline ≤ configuration.lockDeadline ∨ package.lockNonce = zero32)
    .invalidConfiguration
  rejectIf (confirmed.currentTimestamp ≥ configuration.lockDeadline) .deadlinePassed
  rejectIf (package.submissions.length > maxBatchMembers ∨
    package.balances.length > maxBatchMembers) .memberLimitExceeded
  rejectIf (package.memberCount.toNat ≠ package.submissions.length) .memberCountMismatch
  rejectIf (package.memberCount < configuration.minimumCount) .crowdBelowMinimum
  checkMembers host confirmed.policy ∅ ∅ ∅ package.submissions
  let memberRoot ← Kageb.memberRoot host package.epochPublicKeys package.submissions
  rejectIf (memberRoot ≠ package.memberRoot) .memberRootMismatch
  package.balanceSnapshot.verify host configuration.epochId package.balances
    confirmed.policy.operatorKey
  let root ← balanceRoot host package.balances
  rejectIf (root ≠ package.preBalanceRoot) .invalidBalance
  rejectIf (package.balances.length ≠ package.submissions.length) .invalidBalance
  let balances := Map.ofList (package.balances.map fun balance => (balance.participantId, balance))
  rejectIf (balances.size ≠ package.balances.length) .invalidBalance
  checkBalances balances package.submissions
  .ok (package.lockPayload.digest host.sha256)

end LockPackageV1

/-- The configuration that the records of an epoch and of its pool rebuild. -/
def EpochStateV1.configuration (state : EpochStateV1) (pool : PoolStateV1) :
    EpochConfigurationV1 where
  pool := state.pool
  epochId := state.epochId
  baseMint := pool.baseMint
  quoteMint := pool.quoteMint
  baseLotAtoms := pool.baseLotAtoms
  quoteAtomsPerLot := state.quoteAtomsPerLot
  minimumCount := state.minimumCount
  lockThreshold := pool.lockThreshold
  settlementThreshold := pool.settlementThreshold
  keypers := pool.keypers
  lockDeadline := state.lockDeadline
  abortDeadline := state.abortDeadline

-- `saturating_sub(1)`
def saturatingPred (t : Int64) : Int64 := if t = Int64.minValue then t else t - 1

def LockPackageV1.validateLocked {host : Host} (package : LockPackageV1 host)
    (confirmed : ConfirmedLock) : Except LockValidationError Bytes32 := do
  let pool ← okOr confirmed.pool .invalidOnchainLock
  let configuration := confirmed.state.configuration pool
  rejectIf (host.validKey pool.operator = false) .invalidOnchainLock
  let policy ← (AdmissionPolicyV1.new configuration.epochId pool.operator
    configuration.minimumCount.toNat configuration.baseLotAtoms configuration.quoteAtomsPerLot
    confirmed.confirmationSlot).mapError fun _ => .invalidOnchainLock
  let digest ← package.validate
    { epochAccount := confirmed.epochAccount
      configuration
      policy
      currentTimestamp := saturatingPred configuration.lockDeadline
      confirmationSlot := confirmed.confirmationSlot }
  rejectIf (digest ≠ confirmed.state.lockDigest ∨
    package.preBalanceRoot ≠ confirmed.state.preBalanceRoot ∨
    package.memberRoot ≠ confirmed.state.memberRoot ∨
    package.memberCount ≠ confirmed.state.memberCount) .invalidOnchainLock
  .ok digest

/-! ### Confirmed reads -/

/-- `Sysvar1111111111111111111111111111111111111`. -/
def sysvarOwnerId : Pubkey :=
  ⟨[6, 167, 213, 23, 24, 117, 247, 41, 199, 61, 147, 64, 143, 33, 97, 32, 6, 126, 216, 140, 118,
    224, 140, 40, 127, 193, 148, 96, 0, 0, 0, 0], rfl⟩

structure RpcAccountData where
  owner : Pubkey
  data : Bytes

structure RpcResponse (α : Type) where
  slot : UInt64
  value : α

/-- The two calls that the host makes at the confirmed commitment; `none` is a failed call, and an
account that does not exist is `none` in the answer. -/
structure RpcClient where
  getAccount : Pubkey → Option (RpcResponse (Option RpcAccountData))
  getMultipleAccounts : List Pubkey → Option (RpcResponse (List (Option RpcAccountData)))

namespace Host

variable (host : Host)

def decodeProgramEpoch (epochAccount : Pubkey) (account : RpcAccountData) :
    Except LockValidationError EpochStateV1 := do
  rejectIf (account.owner ≠ programId) .invalidOnchainEpoch
  let state ← (EpochStateV1.decode account.data).mapError fun _ => .invalidOnchainEpoch
  let (expected, bump) := host.epochAddress state.pool state.epochId
  rejectIf (expected ≠ epochAccount ∨ state.epochBump ≠ bump) .invalidOnchainEpoch
  .ok state

def confirmedOpenEpochFromAccounts (epochAccount : Pubkey) (epochData : RpcAccountData)
    (poolAddressFromInitialRead : Pubkey) (poolData clockData : RpcAccountData)
    (confirmationSlot : UInt64) : Except LockValidationError ConfirmedOpenEpoch := do
  let state ← host.decodeProgramEpoch epochAccount epochData
  rejectIf (state.pool ≠ poolAddressFromInitialRead) .invalidOnchainEpoch
  rejectIf (poolData.owner ≠ programId ∨ clockData.owner ≠ sysvarOwnerId) .invalidOnchainEpoch
  let pool ← (PoolStateV1.decode poolData.data).mapError fun _ => .invalidOnchainEpoch
  let clock ← okOr (host.deserializeClock clockData.data) .invalidOnchainEpoch
  let (expectedPool, poolBump) := host.poolAddress pool.operator pool.baseMint pool.quoteMint
  let vaultBump := (host.vaultAuthorityAddress state.pool).2
  let configuration := state.configuration pool
  rejectIf (expectedPool ≠ state.pool ∨ pool.poolBump ≠ poolBump ∨ pool.vaultBump ≠ vaultBump ∨
    pool.lockThreshold ≠ 2 ∨ pool.settlementThreshold ≠ 2 ∨ pool.baseLotAtoms = 0 ∨
    pool.baseMint = pool.quoteMint ∨ zero32 ∈ pool.keypers.toList ∨
    pool.keypers.first = pool.keypers.second ∨ pool.keypers.first = pool.keypers.third ∨
    pool.keypers.second = pool.keypers.third ∨ state.terminalState ≠ .open ∨
    state.residualSide ≠ 0 ∨ state.configurationHash ≠ configuration.digest host.sha256 ∨
    state.preBalanceRoot ≠ zero32 ∨ state.memberRoot ≠ zero32 ∨ state.lockDigest ≠ zero32 ∨
    state.resultCommitment ≠ zero32 ∨ state.settlementDigest ≠ zero32 ∨
    state.lockNonce ≠ zero32 ∨ state.settlementNonce ≠ zero32 ∨ state.memberCount ≠ 0 ∨
    state.minimumCount < 4 ∨ state.residualLots ≠ 0 ∨ state.baseLotAtoms ≠ pool.baseLotAtoms ∨
    state.quoteAtomsPerLot = 0 ∨ state.abortDeadline ≤ state.lockDeadline ∨
    clock.slot > confirmationSlot ∨ clock.unixTimestamp ≥ state.lockDeadline) .invalidOnchainEpoch
  rejectIf (host.validKey pool.operator = false) .invalidOnchainEpoch
  let policy ← (AdmissionPolicyV1.new state.epochId pool.operator state.minimumCount.toNat
    state.baseLotAtoms state.quoteAtomsPerLot clock.slot).mapError fun _ => .invalidOnchainEpoch
  .ok
    { epochAccount
      configuration
      policy
      currentTimestamp := clock.unixTimestamp
      confirmationSlot }

def confirmedTerminalEpochFromAccount (epochAccount : Pubkey) (account : RpcAccountData)
    (confirmationSlot : UInt64) : Except LockValidationError ConfirmedTerminalEpoch := do
  let state ← host.decodeProgramEpoch epochAccount account
  rejectIf (¬(state.terminalState = .expired ∨ state.terminalState = .aborted))
    .invalidOnchainEpoch
  .ok
    { epochAccount
      epochId := state.epochId
      terminalState := state.terminalState
      confirmationSlot }

def confirmedLockFromAccount (epochAccount : Pubkey) (account : RpcAccountData)
    (confirmationSlot : UInt64) : Except LockValidationError ConfirmedLock := do
  rejectIf (account.owner ≠ programId) .invalidOnchainLock
  let state ← (EpochStateV1.decode account.data).mapError fun _ => .invalidOnchainLock
  let (expected, bump) := host.epochAddress state.pool state.epochId
  let expectedLockDigest := LockPayloadV1.digest host.sha256
    { epochAccount
      configurationHash := state.configurationHash
      preBalanceRoot := state.preBalanceRoot
      memberRoot := state.memberRoot
      memberCount := state.memberCount
      lockDeadline := state.lockDeadline
      lockNonce := state.lockNonce }
  rejectIf (expected ≠ epochAccount ∨ state.epochBump ≠ bump ∨ state.terminalState ≠ .locked ∨
    state.minimumCount < 4 ∨ state.memberCount < state.minimumCount ∨ state.baseLotAtoms = 0 ∨
    state.quoteAtomsPerLot = 0 ∨ state.abortDeadline ≤ state.lockDeadline ∨
    state.configurationHash = zero32 ∨ state.lockNonce = zero32 ∨
    state.preBalanceRoot = zero32 ∨ state.memberRoot = zero32 ∨
    state.lockDigest ≠ expectedLockDigest) .invalidOnchainLock
  .ok { epochAccount, state, pool := none, confirmationSlot }

def confirmedLockFromAccounts (epochAccount : Pubkey)
    (epochData poolData clockData : RpcAccountData) (confirmationSlot : UInt64) :
    Except LockValidationError ConfirmedLock := do
  let confirmed ← host.confirmedLockFromAccount epochAccount epochData confirmationSlot
  rejectIf (poolData.owner ≠ programId ∨ clockData.owner ≠ sysvarOwnerId) .invalidOnchainLock
  let pool ← (PoolStateV1.decode poolData.data).mapError fun _ => .invalidOnchainLock
  let (expectedPool, poolBump) := host.poolAddress pool.operator pool.baseMint pool.quoteMint
  let vaultBump := (host.vaultAuthorityAddress confirmed.state.pool).2
  let clock ← okOr (host.deserializeClock clockData.data) .invalidOnchainLock
  let configuration := confirmed.state.configuration pool
  rejectIf (expectedPool ≠ confirmed.state.pool ∨ pool.poolBump ≠ poolBump ∨
    pool.vaultBump ≠ vaultBump ∨ pool.lockThreshold ≠ 2 ∨ pool.settlementThreshold ≠ 2 ∨
    pool.baseLotAtoms = 0 ∨ pool.baseMint = pool.quoteMint ∨
    configuration.digest host.sha256 ≠ confirmed.state.configurationHash ∨
    clock.slot > confirmationSlot ∨ clock.unixTimestamp > confirmed.state.abortDeadline)
    .invalidOnchainLock
  .ok { confirmed with pool := some pool }

/-- The three accounts of a read of an epoch, its pool and the clock. -/
def threeAccounts (response : RpcResponse (List (Option RpcAccountData))) :
    Except LockValidationError (RpcAccountData × RpcAccountData × RpcAccountData) :=
  match response.value with
  | [epoch, pool, clock] => do
    let epoch ← okOr epoch .missingAccount
    let pool ← okOr pool .missingAccount
    let clock ← okOr clock .missingAccount
    .ok (epoch, pool, clock)
  | _ => .error .rpc

def fetchConfirmedLock (rpc : RpcClient) (epochAccount : Pubkey) :
    Except LockValidationError ConfirmedLock := do
  let initial ← okOr (rpc.getAccount epochAccount) .rpc
  let account ← okOr initial.value .missingAccount
  let initialLock ← host.confirmedLockFromAccount epochAccount account initial.slot
  let response ← okOr (rpc.getMultipleAccounts [epochAccount, initialLock.state.pool, clockId]) .rpc
  rejectIf (response.slot < initialLock.confirmationSlot) .rpc
  let (epoch, pool, clock) ← threeAccounts response
  host.confirmedLockFromAccounts epochAccount epoch pool clock response.slot

def fetchConfirmedOpenEpoch (rpc : RpcClient) (epochAccount : Pubkey) :
    Except LockValidationError ConfirmedOpenEpoch := do
  let initial ← okOr (rpc.getAccount epochAccount) .rpc
  let account ← okOr initial.value .missingAccount
  let initialState ← host.decodeProgramEpoch epochAccount account
  let response ← okOr (rpc.getMultipleAccounts [epochAccount, initialState.pool, clockId]) .rpc
  rejectIf (response.slot < initial.slot) .rpc
  let (epoch, pool, clock) ← threeAccounts response
  host.confirmedOpenEpochFromAccounts epochAccount epoch initialState.pool pool clock response.slot

def fetchConfirmedTerminalEpoch (rpc : RpcClient) (epochAccount : Pubkey) :
    Except LockValidationError ConfirmedTerminalEpoch := do
  let response ← okOr (rpc.getAccount epochAccount) .rpc
  let account ← okOr response.value .missingAccount
  host.confirmedTerminalEpochFromAccount epochAccount account response.slot

end Host

/-! ### Keypers -/

/-- The digest that a keyper has recorded for each epoch account, as one handle knows it. -/
structure LockJournal where
  records : Map Pubkey Bytes32

def LockJournal.digest (journal : LockJournal) (epoch : Pubkey) : Option Bytes32 :=
  journal.records[epoch]?

structure ReferenceKeyper (host : Host) where
  index : Nat
  signingKey : host.SigningKey
  journal : LockJournal

structure LockApprovalV1 where
  keyperKey : Bytes32
  digest : Bytes32
  signature : Bytes64
  deriving DecidableEq

def LockApprovalV1.verify (host : Host) (approval : LockApprovalV1) : Bool :=
  host.validKey approval.keyperKey &&
    host.verify approval.keyperKey approval.digest.bytes approval.signature

namespace ReferenceKeyper

variable {host : Host} (keyper : ReferenceKeyper host)

/-- What `sign_lock` checks before it records the digest. -/
def checkLock (package : LockPackageV1 host) (confirmed : ConfirmedOpenEpoch)
    (secret : KeyperSecretShare host) : Except LockValidationError Bytes32 := do
  let configured ← okOr confirmed.configuration.keypers.toList[keyper.index]? .wrongKeyper
  rejectIf (configured ≠ host.verifyingKey keyper.signingKey ∨ secret.index ≠ keyper.index ∨
    secret.epochAccount ≠ package.epochAccount ∨
    package.epochPublicKeys.matchesShare secret = false) .wrongKeyper
  package.validate confirmed

/-- What `sign_lock` returns once the digest is recorded. -/
def approve (digest : Bytes32) : LockApprovalV1 where
  keyperKey := host.verifyingKey keyper.signingKey
  digest := digest
  signature := host.sign keyper.signingKey digest.bytes

def releaseShare (package : LockPackageV1 host) (confirmed : ConfirmedLock)
    (secret : KeyperSecretShare host) (memberIndex : Nat) :
    Except LockValidationError (ReleasedShareV1 host) := do
  let digest ← package.validateLocked confirmed
  let configured ← okOr (confirmed.pool.bind fun pool => pool.keypers.toList[keyper.index]?)
    .wrongKeyper
  rejectIf (configured ≠ host.verifyingKey keyper.signingKey ∨
    keyper.journal.digest package.epochAccount ≠ some digest ∨ keyper.index ≠ secret.index ∨
    secret.epochAccount ≠ package.epochAccount ∨
    package.epochPublicKeys.matchesShare secret = false) .wrongKeyper
  let submission ← okOr package.submissions[memberIndex]? .invalidSubmission
  rejectIf (¬(package.submissions.map fun member => host.sha256 member.ciphertext).Nodup)
    .invalidSubmission
  (secret.release package.epochAccount confirmed.state.lockDigest submission.ciphertext).mapError
    fun _ => .invalidSubmission

end ReferenceKeyper

end Kageb
