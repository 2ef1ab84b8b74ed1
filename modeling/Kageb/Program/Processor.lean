import Kageb.Program.Ed25519

/-! The program: six instructions on the accounts that a caller names, in the order of the source.
An instruction that returns an error leaves the chain as it was. -/

namespace Kageb

open Binary Checks

def requireAccountFlags (account : AccountInfo) (isSigner isWritable isExecutable : Bool) :
    Except ProgramError Unit := do
  rejectIf (account.isSigner ≠ isSigner)
    (if isSigner then KagebError.missingSignature else KagebError.invalidAccounts : KagebError)
  rejectIf (account.isWritable ≠ isWritable ∨ account.executable ≠ isExecutable)
    KagebError.invalidAccounts

def requireProgramAccount (account : AccountInfo) (program : Pubkey) : Except ProgramError Unit :=
  rejectIf (account.owner ≠ program ∨ account.data.length ≠ stateLen ∨ account.executable = true)
    KagebError.invalidOwner

def requireDistinct (accounts : List AccountInfo) : Except ProgramError Unit :=
  rejectIf (¬(accounts.map (·.key)).Nodup) KagebError.invalidAccounts

def threeDistinct (keys : Keypers) : Bool :=
  keys.first ≠ keys.second && keys.first ≠ keys.third && keys.second ≠ keys.third

def validateMint (account : AccountInfo) : Except ProgramError Unit :=
  rejectIf (account.owner ≠ tokenProgramId ∨ account.executable = true ∨
    account.data.length ≠ 82 ∨ account.data[44]? ≠ some 0 ∨ account.data[45]? ≠ some 1)
    KagebError.invalidTokenAccount

def validateTokenAccount (account : AccountInfo) (expectedMint expectedAuthority : Pubkey) :
    Except ProgramError Unit :=
  rejectIf (account.owner ≠ tokenProgramId ∨ account.executable = true ∨
    account.data.length ≠ 165 ∨ slice account.data 0 32 ≠ expectedMint.bytes ∨
    slice account.data 32 64 ≠ expectedAuthority.bytes ∨ account.data[108]? ≠ some 1)
    KagebError.invalidTokenAccount

def validResidual (side : UInt8) (lots : UInt32) : Bool :=
  side = 0 && lots = 0 || (side = 1 || side = 2) && 1 ≤ lots

def checkedMul (a b : UInt64) : Option UInt64 :=
  if a.toNat * b.toNat < 2 ^ 64 then some (a * b) else none

/-- The chain after the data of the account at `key` is overwritten. -/
def Chain.write (c : Chain) (key : Pubkey) (data : Bytes) : Chain := fun k =>
  if k = key then { c k with data } else c k

namespace Runtime

variable (rt : Runtime)

def validatePoolState (account : AccountInfo) (state : PoolStateV1) : Except ProgramError Unit := do
  let (expectedPool, canonicalPoolBump) :=
    rt.poolAddress state.operator state.baseMint state.quoteMint
  let (_, canonicalVaultBump) := rt.vaultAuthorityAddress account.key
  rejectIf (expectedPool ≠ account.key ∨ state.poolBump ≠ canonicalPoolBump ∨
    state.vaultBump ≠ canonicalVaultBump) KagebError.invalidPda
  rejectIf (state.lockThreshold ≠ 2 ∨ state.settlementThreshold ≠ 2 ∨ state.baseLotAtoms = 0 ∨
    state.baseMint = state.quoteMint ∨ zero32 ∈ state.keypers.toList ∨
    threeDistinct state.keypers = false) KagebError.invalidState

def expectedConfiguration (pool : Pubkey) (poolState : PoolStateV1) (state : EpochStateV1) :
    EpochConfigurationV1 where
  pool := pool
  epochId := state.epochId
  baseMint := poolState.baseMint
  quoteMint := poolState.quoteMint
  baseLotAtoms := poolState.baseLotAtoms
  quoteAtomsPerLot := state.quoteAtomsPerLot
  minimumCount := state.minimumCount
  lockThreshold := poolState.lockThreshold
  settlementThreshold := poolState.settlementThreshold
  keypers := poolState.keypers
  lockDeadline := state.lockDeadline
  abortDeadline := state.abortDeadline

def validateEpochState (account : AccountInfo) (state : EpochStateV1) (pool : AccountInfo)
    (poolState : PoolStateV1) : Except ProgramError Unit := do
  rejectIf (state.pool ≠ pool.key) KagebError.invalidState
  let (expectedEpoch, canonicalBump) := rt.epochAddress pool.key state.epochId
  rejectIf (expectedEpoch ≠ account.key ∨ state.epochBump ≠ canonicalBump) KagebError.invalidPda
  rejectIf (state.minimumCount < 4 ∨ state.baseLotAtoms ≠ poolState.baseLotAtoms ∨
    state.quoteAtomsPerLot = 0 ∨ state.abortDeadline ≤ state.lockDeadline) KagebError.invalidState
  rejectIf (state.configurationHash ≠
    (expectedConfiguration pool.key poolState state).digest rt.sha256) KagebError.invalidState

def initializePdaAccount (c : Chain) (payer pda systemProgram : AccountInfo) (program : Pubkey)
    (signerSeeds : List Bytes) : Except ProgramError Chain := do
  rejectIf (pda.owner ≠ systemProgramId ∨ pda.data.length ≠ 0 ∨ pda.executable = true)
    KagebError.invalidState
  let requiredLamports ← rt.minimumBalance stateLen
  let existingLamports := pda.lamports
  let funded ←
    (if existingLamports < requiredLamports then
      rt.invoke c (.transfer payer.key pda.key (requiredLamports - existingLamports))
        [payer.toAccountMeta, pda.toAccountMeta, systemProgram.toAccountMeta] none
    else .ok c)
  let allocated ← rt.invoke funded (.allocate pda.key (UInt64.ofNat stateLen))
    [pda.toAccountMeta, systemProgram.toAccountMeta] (some signerSeeds)
  let assigned ← rt.invoke allocated (.assign pda.key program)
    [pda.toAccountMeta, systemProgram.toAccountMeta] (some signerSeeds)
  rejectIf ((assigned pda.key).owner ≠ program ∨ (assigned pda.key).data.length ≠ stateLen)
    KagebError.invalidState
  .ok assigned

def initializePool (c : Chain) (accounts : List AccountMeta) (args : InitializePoolArgs) :
    Except ProgramError Chain :=
  match accounts.map c.info with
  | [payer, operator, pool, vaultAuthority, baseMint, quoteMint, poolBaseVault, poolQuoteVault,
      venueAuthority, venueBaseAccount, venueQuoteAccount, systemProgram, tokenProgram] => do
    requireAccountFlags payer true true false
    requireAccountFlags operator true false false
    requireAccountFlags pool false true false
    requireAccountFlags vaultAuthority false false false
    requireAccountFlags baseMint false false false
    requireAccountFlags quoteMint false false false
    requireAccountFlags poolBaseVault false false false
    requireAccountFlags poolQuoteVault false false false
    requireAccountFlags venueAuthority false false false
    requireAccountFlags venueBaseAccount false false false
    requireAccountFlags venueQuoteAccount false false false
    requireAccountFlags systemProgram false false true
    requireAccountFlags tokenProgram false false true
    requireDistinct (accounts.map c.info)
    rejectIf (systemProgram.key ≠ systemProgramId ∨ systemProgram.executable = false ∨
      tokenProgram.key ≠ tokenProgramId ∨ tokenProgram.executable = false)
      KagebError.invalidAccounts
    rejectIf (args.lockThreshold ≠ 2 ∨ args.settlementThreshold ≠ 2 ∨ args.baseLotAtoms = 0 ∨
      zero32 ∈ args.keypers.toList ∨ threeDistinct args.keypers = false ∨
      baseMint.key = quoteMint.key) KagebError.invalidConfiguration
    let (expectedPool, poolBump) := rt.poolAddress operator.key baseMint.key quoteMint.key
    let (expectedVaultAuthority, vaultBump) := rt.vaultAuthorityAddress pool.key
    rejectIf (pool.key ≠ expectedPool ∨ vaultAuthority.key ≠ expectedVaultAuthority)
      KagebError.invalidPda
    validateMint baseMint
    validateMint quoteMint
    validateTokenAccount poolBaseVault baseMint.key vaultAuthority.key
    validateTokenAccount poolQuoteVault quoteMint.key vaultAuthority.key
    validateTokenAccount venueBaseAccount baseMint.key venueAuthority.key
    validateTokenAccount venueQuoteAccount quoteMint.key venueAuthority.key
    let c ← rt.initializePdaAccount c payer pool systemProgram programId
      [[112, 111, 111, 108], operator.key.bytes, baseMint.key.bytes, quoteMint.key.bytes,
        [poolBump]]
    let state : PoolStateV1 :=
      { poolBump
        vaultBump
        lockThreshold := args.lockThreshold
        settlementThreshold := args.settlementThreshold
        operator := operator.key
        baseMint := baseMint.key
        quoteMint := quoteMint.key
        poolBaseVault := poolBaseVault.key
        poolQuoteVault := poolQuoteVault.key
        venueAuthority := venueAuthority.key
        venueBaseAccount := venueBaseAccount.key
        venueQuoteAccount := venueQuoteAccount.key
        keypers := args.keypers
        baseLotAtoms := args.baseLotAtoms }
    .ok (c.write pool.key state.encode)
  | _ => .error KagebError.invalidAccounts

def createEpoch (c : Chain) (accounts : List AccountMeta) (args : CreateEpochArgs) :
    Except ProgramError Chain :=
  match accounts.map c.info with
  | [payer, operator, pool, epoch, systemProgram, clockAccount] => do
    requireAccountFlags payer true true false
    requireAccountFlags operator true false false
    requireAccountFlags pool false false false
    requireAccountFlags epoch false true false
    requireAccountFlags systemProgram false false true
    requireAccountFlags clockAccount false false false
    requireDistinct (accounts.map c.info)
    requireProgramAccount pool programId
    rejectIf (systemProgram.key ≠ systemProgramId ∨ systemProgram.executable = false ∨
      clockAccount.key ≠ clockId) KagebError.invalidAccounts
    let poolState ← PoolStateV1.decode pool.data
    rt.validatePoolState pool poolState
    rejectIf (poolState.operator ≠ operator.key) KagebError.invalidConfiguration
    let clock ← rt.clockFromAccountInfo clockAccount
    rejectIf (args.minimumCount < 4 ∨ args.quoteAtomsPerLot = 0 ∨
      args.lockDeadline ≤ clock.unixTimestamp ∨ args.abortDeadline ≤ args.lockDeadline)
      KagebError.invalidConfiguration
    let (expectedEpoch, epochBump) := rt.epochAddress pool.key args.epochId
    rejectIf (epoch.key ≠ expectedEpoch) KagebError.invalidPda
    let c ← rt.initializePdaAccount c payer epoch systemProgram programId
      [[101, 112, 111, 99, 104], pool.key.bytes, args.epochId.bytes, [epochBump]]
    let configuration : EpochConfigurationV1 :=
      { pool := pool.key
        epochId := args.epochId
        baseMint := poolState.baseMint
        quoteMint := poolState.quoteMint
        baseLotAtoms := poolState.baseLotAtoms
        quoteAtomsPerLot := args.quoteAtomsPerLot
        minimumCount := args.minimumCount
        lockThreshold := poolState.lockThreshold
        settlementThreshold := poolState.settlementThreshold
        keypers := poolState.keypers
        lockDeadline := args.lockDeadline
        abortDeadline := args.abortDeadline }
    let state : EpochStateV1 :=
      { epochBump
        terminalState := .open
        residualSide := 0
        pool := pool.key
        epochId := args.epochId
        configurationHash := configuration.digest rt.sha256
        preBalanceRoot := zero32
        memberRoot := zero32
        lockDigest := zero32
        resultCommitment := zero32
        settlementDigest := zero32
        lockNonce := zero32
        settlementNonce := zero32
        memberCount := 0
        minimumCount := args.minimumCount
        residualLots := 0
        baseLotAtoms := poolState.baseLotAtoms
        quoteAtomsPerLot := args.quoteAtomsPerLot
        lockDeadline := args.lockDeadline
        abortDeadline := args.abortDeadline }
    .ok (c.write epoch.key state.encode)
  | _ => .error KagebError.invalidAccounts

def lock (tx : InstructionsSysvar) (c : Chain) (accounts : List AccountMeta)
    (payload : LockPayloadV1) : Except ProgramError Chain :=
  match accounts.map c.info with
  | [payer, pool, epoch, instructionsAccount, clockAccount] => do
    requireAccountFlags payer true false false
    requireAccountFlags pool false false false
    requireAccountFlags epoch false true false
    requireAccountFlags instructionsAccount false false false
    requireAccountFlags clockAccount false false false
    requireDistinct (accounts.map c.info)
    requireProgramAccount pool programId
    requireProgramAccount epoch programId
    rejectIf (instructionsAccount.key ≠ instructionsId ∨ clockAccount.key ≠ clockId)
      KagebError.invalidAccounts
    let poolState ← PoolStateV1.decode pool.data
    rt.validatePoolState pool poolState
    let epochState ← EpochStateV1.decode epoch.data
    rt.validateEpochState epoch epochState pool poolState
    rejectIf (epochState.terminalState ≠ .open) KagebError.invalidState
    let clock ← rt.clockFromAccountInfo clockAccount
    rejectIf (clock.unixTimestamp ≥ epochState.lockDeadline) KagebError.deadlinePassed
    rejectIf (payload.epochAccount ≠ epoch.key ∨
      payload.configurationHash ≠ epochState.configurationHash ∨
      payload.lockDeadline ≠ epochState.lockDeadline ∨ payload.lockNonce = zero32 ∨
      payload.preBalanceRoot = zero32 ∨ payload.memberRoot = zero32) KagebError.invalidLock
    rejectIf (payload.memberCount < epochState.minimumCount) KagebError.crowdBelowMinimum
    let digest := payload.digest rt.sha256
    let count ← countPrecedingKeypers tx poolState.keypers digest
    rejectIf (count < poolState.lockThreshold) KagebError.insufficientQuorum
    let epochState := { epochState with
      terminalState := .locked
      preBalanceRoot := payload.preBalanceRoot
      memberRoot := payload.memberRoot
      memberCount := payload.memberCount
      lockDigest := digest
      lockNonce := payload.lockNonce }
    .ok (c.write epoch.key epochState.encode)
  | _ => .error KagebError.invalidAccounts

def transferChecked (c : Chain) (source mint destination authority tokenProgram : AccountInfo)
    (amount : UInt64) (signerSeeds : Option (List Bytes)) : Except ProgramError Chain :=
  rt.invoke c (.transferChecked source.key mint.key destination.key authority.key amount 0)
    [source.toAccountMeta, mint.toAccountMeta, destination.toAccountMeta, authority.toAccountMeta,
      tokenProgram.toAccountMeta] signerSeeds

def settle (tx : InstructionsSysvar) (c : Chain) (accounts : List AccountMeta)
    (payload : SettlementPayloadV1) : Except ProgramError Chain :=
  match accounts.map c.info with
  | [payer, pool, epoch, vaultAuthority, poolBaseVault, poolQuoteVault, venueAuthority,
      venueBaseAccount, venueQuoteAccount, baseMint, quoteMint, tokenProgram, instructionsAccount,
      clockAccount] => do
    requireAccountFlags payer true false false
    requireAccountFlags pool false false false
    requireAccountFlags epoch false true false
    requireAccountFlags vaultAuthority false false false
    requireAccountFlags poolBaseVault false true false
    requireAccountFlags poolQuoteVault false true false
    requireAccountFlags venueBaseAccount false true false
    requireAccountFlags venueQuoteAccount false true false
    requireAccountFlags venueAuthority true false false
    requireAccountFlags baseMint false false false
    requireAccountFlags quoteMint false false false
    requireAccountFlags tokenProgram false false true
    requireAccountFlags instructionsAccount false false false
    requireAccountFlags clockAccount false false false
    requireDistinct (accounts.map c.info)
    requireProgramAccount pool programId
    requireProgramAccount epoch programId
    rejectIf (tokenProgram.key ≠ tokenProgramId ∨ tokenProgram.executable = false ∨
      instructionsAccount.key ≠ instructionsId ∨ clockAccount.key ≠ clockId)
      KagebError.invalidAccounts
    let clock ← rt.clockFromAccountInfo clockAccount
    let poolState ← PoolStateV1.decode pool.data
    rt.validatePoolState pool poolState
    let epochState ← EpochStateV1.decode epoch.data
    rt.validateEpochState epoch epochState pool poolState
    rejectIf (epochState.terminalState ≠ .locked) KagebError.invalidState
    rejectIf (clock.unixTimestamp > epochState.abortDeadline) KagebError.deadlinePassed
    let (expectedVaultAuthority, canonicalVaultBump) := rt.vaultAuthorityAddress pool.key
    rejectIf (expectedVaultAuthority ≠ vaultAuthority.key ∨
      canonicalVaultBump ≠ poolState.vaultBump) KagebError.invalidPda
    rejectIf (baseMint.key ≠ poolState.baseMint ∨ quoteMint.key ≠ poolState.quoteMint ∨
      poolBaseVault.key ≠ poolState.poolBaseVault ∨
      poolQuoteVault.key ≠ poolState.poolQuoteVault ∨
      venueAuthority.key ≠ poolState.venueAuthority ∨
      venueBaseAccount.key ≠ poolState.venueBaseAccount ∨
      venueQuoteAccount.key ≠ poolState.venueQuoteAccount) KagebError.invalidAccounts
    validateMint baseMint
    validateMint quoteMint
    validateTokenAccount poolBaseVault baseMint.key vaultAuthority.key
    validateTokenAccount poolQuoteVault quoteMint.key vaultAuthority.key
    validateTokenAccount venueBaseAccount baseMint.key venueAuthority.key
    validateTokenAccount venueQuoteAccount quoteMint.key venueAuthority.key
    rejectIf (payload.epochAccount ≠ epoch.key ∨ payload.lockDigest ≠ epochState.lockDigest ∨
      payload.resultCommitment = zero32 ∨ payload.baseLotAtoms ≠ epochState.baseLotAtoms ∨
      payload.quoteAtomsPerLot ≠ epochState.quoteAtomsPerLot ∨
      payload.baseMint ≠ poolState.baseMint ∨ payload.quoteMint ≠ poolState.quoteMint ∨
      payload.poolBaseVault ≠ poolState.poolBaseVault ∨
      payload.poolQuoteVault ≠ poolState.poolQuoteVault ∨
      payload.venueAuthority ≠ poolState.venueAuthority ∨
      payload.venueBaseAccount ≠ poolState.venueBaseAccount ∨
      payload.venueQuoteAccount ≠ poolState.venueQuoteAccount ∨
      payload.settlementNonce = zero32 ∨ payload.settlementNonce = epochState.lockNonce ∨
      validResidual payload.residualSide payload.residualLots = false)
      KagebError.invalidSettlement
    let digest := payload.digest rt.sha256
    let count ← countPrecedingKeypers tx poolState.keypers digest
    rejectIf (count < poolState.settlementThreshold) KagebError.insufficientQuorum
    let lots := payload.residualLots.toUInt64
    let baseAmount ← okOr (checkedMul payload.baseLotAtoms lots)
      (KagebError.arithmeticOverflow : ProgramError)
    let quoteAmount ← okOr (checkedMul payload.quoteAtomsPerLot lots)
      (KagebError.arithmeticOverflow : ProgramError)
    let vaultSeeds := [[118, 97, 117, 108, 116], pool.key.bytes, [poolState.vaultBump]]
    let moved ←
      (if payload.residualSide = 0 then .ok c
      else if payload.residualSide = 1 then do
        let c ← rt.transferChecked c poolQuoteVault quoteMint venueQuoteAccount vaultAuthority
          tokenProgram quoteAmount (some vaultSeeds)
        rt.transferChecked c venueBaseAccount baseMint poolBaseVault venueAuthority tokenProgram
          baseAmount none
      else if payload.residualSide = 2 then do
        let c ← rt.transferChecked c poolBaseVault baseMint venueBaseAccount vaultAuthority
          tokenProgram baseAmount (some vaultSeeds)
        rt.transferChecked c venueQuoteAccount quoteMint poolQuoteVault venueAuthority
          tokenProgram quoteAmount none
      else .error KagebError.invalidSettlement)
    let epochState := { epochState with
      terminalState := .settled
      residualSide := payload.residualSide
      residualLots := payload.residualLots
      resultCommitment := payload.resultCommitment
      settlementDigest := digest
      settlementNonce := payload.settlementNonce }
    .ok (moved.write epoch.key epochState.encode)
  | _ => .error KagebError.invalidAccounts

/-- The payload that a compact settlement stands for, with the missing fields read from the chain. -/
def rebuildSettlement (epoch : Pubkey) (poolState : PoolStateV1) (epochState : EpochStateV1)
    (compact : CompactSettlementPayload) : SettlementPayloadV1 where
  epochAccount := epoch
  lockDigest := epochState.lockDigest
  resultCommitment := compact.resultCommitment
  residualSide := compact.residualSide
  residualLots := compact.residualLots
  baseLotAtoms := epochState.baseLotAtoms
  quoteAtomsPerLot := epochState.quoteAtomsPerLot
  baseMint := poolState.baseMint
  quoteMint := poolState.quoteMint
  poolBaseVault := poolState.poolBaseVault
  poolQuoteVault := poolState.poolQuoteVault
  venueBaseAccount := poolState.venueBaseAccount
  venueQuoteAccount := poolState.venueQuoteAccount
  venueAuthority := poolState.venueAuthority
  settlementNonce := compact.settlementNonce

def settleCompact (tx : InstructionsSysvar) (c : Chain) (accounts : List AccountMeta)
    (compact : CompactSettlementPayload) : Except ProgramError Chain :=
  match accounts with
  | [_, pool, epoch, _, _, _, _, _, _, _, _, _, _, _] => do
    let poolState ← PoolStateV1.decode (c.info pool).data
    let epochState ← EpochStateV1.decode (c.info epoch).data
    rt.settle tx c accounts (rebuildSettlement epoch.key poolState epochState compact)
  | _ => .error KagebError.invalidAccounts

def expireOrAbort (c : Chain) (accounts : List AccountMeta) (abort : Bool) :
    Except ProgramError Chain :=
  match accounts.map c.info with
  | [caller, pool, epoch, clockAccount] => do
    requireAccountFlags caller true false false
    requireAccountFlags pool false false false
    requireAccountFlags epoch false true false
    requireAccountFlags clockAccount false false false
    requireDistinct (accounts.map c.info)
    requireProgramAccount pool programId
    requireProgramAccount epoch programId
    rejectIf (clockAccount.key ≠ clockId) KagebError.invalidAccounts
    let poolState ← PoolStateV1.decode pool.data
    rt.validatePoolState pool poolState
    let state ← EpochStateV1.decode epoch.data
    rt.validateEpochState epoch state pool poolState
    let clock ← rt.clockFromAccountInfo clockAccount
    let (requiredState, deadline, terminalState) :=
      if abort then (EpochTerminalState.locked, state.abortDeadline, EpochTerminalState.aborted)
      else (EpochTerminalState.open, state.lockDeadline, EpochTerminalState.expired)
    rejectIf (state.terminalState ≠ requiredState) KagebError.invalidState
    rejectIf (clock.unixTimestamp ≤ deadline) KagebError.deadlineNotReached
    .ok (c.write epoch.key { state with terminalState }.encode)
  | _ => .error KagebError.invalidAccounts

def processInstruction (tx : InstructionsSysvar) (c : Chain) (program : Pubkey)
    (accounts : List AccountMeta) (data : Bytes) : Except ProgramError Chain := do
  rejectIf (program ≠ programId) .incorrectProgramId
  let instruction ← KagebInstruction.decode data
  match instruction with
  | .initializePool args => rt.initializePool c accounts args
  | .createEpoch args => rt.createEpoch c accounts args
  | .lock payload => rt.lock tx c accounts payload
  | .settle payload => rt.settleCompact tx c accounts payload
  | .expire => rt.expireOrAbort c accounts false
  | .abort => rt.expireOrAbort c accounts true

/-- The chain after a call of the program; one that fails is rolled back. -/
def execute (tx : InstructionsSysvar) (c : Chain) (accounts : List AccountMeta) (data : Bytes) :
    Chain :=
  match rt.processInstruction tx c programId accounts data with
  | .ok c' => c'
  | .error _ => c

theorem execute_ok {tx : InstructionsSysvar} {c : Chain} {accounts : List AccountMeta}
    {data : Bytes} (h : (rt.processInstruction tx c programId accounts data).isOk = true) :
    rt.processInstruction tx c programId accounts data = .ok (rt.execute tx c accounts data) := by
  unfold execute
  cases hcall : rt.processInstruction tx c programId accounts data with
  | ok c' => rfl
  | error e =>
    rw [hcall] at h
    cases h

end Runtime

end Kageb
