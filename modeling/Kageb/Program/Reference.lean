import Kageb.Program.Transition

/-! A runtime that can be run: the system program and the token program on the instructions that
the program sends them, for any hash. It is lawful, so what is proved of every lawful runtime can
be evaluated. -/

namespace Kageb

open Binary Checks

/-- `Chain` with the account at `key` replaced. -/
def Chain.set (c : Chain) (key : Pubkey) (account : Account) : Chain := fun k =>
  if k = key then account else c k

def Chain.transferLamports (c : Chain) (source destination : Pubkey) (lamports : UInt64) : Chain :=
  fun k =>
    if k = source then { c k with lamports := (c k).lamports - lamports }
    else if k = destination then { c k with lamports := (c k).lamports + lamports }
    else c k

/-- What a runtime needs to derive addresses and digests. -/
structure Hashes where
  sha256 : Bytes → Bytes32
  programAddress : List Bytes → Pubkey → Pubkey

namespace Hashes

variable (hashes : Hashes)

/-- `account` signs: the caller marked it as a signer, or it is the address of the seeds. -/
def signs (account : Pubkey) (metas : List AccountMeta) (seeds : Option (List Bytes)) : Prop :=
  (∃ m ∈ metas, m.key = account ∧ m.isSigner = true) ∨
    seeds.map (fun s => hashes.programAddress s programId) = some account

instance (account : Pubkey) (metas : List AccountMeta) (seeds : Option (List Bytes)) :
    Decidable (hashes.signs account metas seeds) :=
  inferInstanceAs (Decidable (_ ∨ _))

def invoke (c : Chain) (cpi : Cpi) (metas : List AccountMeta) (seeds : Option (List Bytes)) :
    Except ProgramError Chain :=
  match cpi with
  | .transfer source destination lamports => do
    rejectIf ((c source).owner ≠ systemProgramId ∨ (c source).lamports < lamports ∨
      ¬hashes.signs source metas seeds) (.runtime 1)
    .ok (c.transferLamports source destination lamports)
  | .allocate account space => do
    rejectIf ((c account).owner ≠ systemProgramId ∨ (c account).data ≠ [] ∨
      ¬hashes.signs account metas seeds) (.runtime 2)
    .ok (c.set account { c account with data := List.replicate space.toNat 0 })
  | .assign account owner => do
    rejectIf ((c account).owner ≠ systemProgramId ∨ ¬hashes.signs account metas seeds) (.runtime 3)
    .ok (c.set account { c account with owner })
  | .transferChecked source mint destination authority amount decimals => do
    rejectIf ((c source).owner ≠ tokenProgramId ∨ (c destination).owner ≠ tokenProgramId ∨
      (c source).data.length ≠ 165 ∨ (c destination).data.length ≠ 165 ∨
      slice (c source).data 0 32 ≠ mint.bytes ∨ slice (c destination).data 0 32 ≠ mint.bytes ∨
      (c mint).data[44]? ≠ some decimals ∨ slice (c source).data 32 64 ≠ authority.bytes ∨
      ¬hashes.signs authority metas seeds ∨ c.tokenAmount source < amount.toNat ∨
      2 ^ 64 ≤ c.tokenAmount destination + amount.toNat) (.runtime 4)
    .ok (c.moveTokens source destination amount.toNat)

/-- The clock sysvar is its slot and its timestamp here; the rent is one lamport a byte. -/
def runtime : Runtime where
  sha256 := hashes.sha256
  findProgramAddress seeds program := (hashes.programAddress (seeds ++ [[255]]) program, 255)
  deserializeClock data :=
    ((Codec.u64.pair Codec.i64).read data).map fun (slot, unixTimestamp) => { slot, unixTimestamp }
  minimumBalance len := .ok (UInt64.ofNat len)
  invoke := hashes.invoke

theorem runtime_lawful : hashes.runtime.Lawful where
  transfer := by
    intro c c' source destination lamports metas seeds h k
    obtain ⟨-, -, hok⟩ := bind_ok.mp h
    cases hok
    unfold Chain.transferLamports
    split_ifs <;> exact ⟨rfl, rfl, rfl⟩
  allocate := by
    intro c c' account space metas seeds h k hk
    obtain ⟨-, -, hok⟩ := bind_ok.mp h
    cases hok
    simp [Chain.set, hk]
  assign := by
    intro c c' account owner metas seeds h k hk
    obtain ⟨-, -, hok⟩ := bind_ok.mp h
    cases hok
    simp [Chain.set, hk]
  transferChecked := by
    intro c c' source mint destination authority amount decimals metas seeds h hne
    obtain ⟨_, hchecks, hok⟩ := bind_ok.mp h
    simp only [rejectIf_eq_ok, not_or, not_not, Nat.not_lt, Nat.not_le] at hchecks
    obtain ⟨-, -, hsource, hdestination, -, -, -, -, -, hle, hlt⟩ := hchecks
    cases hok
    exact ⟨by omega, by omega, hle, hlt, fun k => Account.SameRecord.refl _⟩

end Hashes

/-! ### A market -/

namespace Sample

/-- A hash that is easy to evaluate and never zero. -/
def sha256 (message : Bytes) : Bytes32 :=
  ⟨leBytes 32 (message.foldl (fun (h : Nat) b => (h * 257 + b.toNat + 1) % (2 ^ 256 - 1)) 7 + 1),
    leBytes_length _ _⟩

theorem sha256_ne (message : Bytes) : sha256 message ≠ zero32 := by
  have hfold : ∀ (start : Nat), start < 2 ^ 256 - 1 →
      message.foldl (fun (h : Nat) b => (h * 257 + b.toNat + 1) % (2 ^ 256 - 1)) start <
        2 ^ 256 - 1 := by
    induction message with
    | nil => exact fun start h => h
    | cons b message ih => exact fun start _ => ih _ (Nat.mod_lt _ (by decide))
  have hlt := hfold 7 (by decide)
  intro h
  have hvalue := congrArg (fun v : Bytes32 => leValue v.bytes) h
  simp only [sha256] at hvalue
  rw [leValue_leBytes (by omega)] at hvalue
  have hzero : leValue zero32.bytes = 0 := by decide
  omega

/-- The last byte tells the address of seeds from the key of a signer. -/
def programAddress (seeds : List Bytes) (program : Pubkey) : Pubkey :=
  ⟨(sha256 (seeds.flatten ++ program.bytes)).bytes.take 31 ++ [255], by simp⟩

def hashes : Hashes where
  sha256 := sha256
  programAddress := programAddress

def rt : Runtime := hashes.runtime

def key (b : UInt8) : Pubkey := ByteVec.fill 32 b

theorem key_81_ne : key 81 ≠ zero32 := by decide

theorem key_91_ne : key 91 ≠ zero32 := by decide

theorem key_92_ne : key 92 ≠ zero32 := by decide

theorem key_95_ne : key 95 ≠ zero32 := by decide

def payer : Pubkey := key 1
def operator : Pubkey := key 2
def baseMint : Pubkey := key 3
def quoteMint : Pubkey := key 4
def baseVault : Pubkey := key 5
def quoteVault : Pubkey := key 6
def venueAuthority : Pubkey := key 7
def venueBase : Pubkey := key 8
def venueQuote : Pubkey := key 9
def keypers : Keypers := ⟨key 10, key 11, key 12⟩
def epochId : Bytes32 := key 20

theorem epochId_ne : epochId ≠ zero32 := by decide

def pool : Pubkey := (rt.poolAddress operator baseMint quoteMint).1
def vaultAuthority : Pubkey := (rt.vaultAuthorityAddress pool).1
def epoch : Pubkey := (rt.epochAddress pool epochId).1

def mintData : Bytes := List.replicate 45 0 ++ [1] ++ List.replicate 36 0

def tokenData (mint authority : Pubkey) (amount : Nat) : Bytes :=
  mint.bytes ++ authority.bytes ++ leBytes 8 amount ++ List.replicate 36 0 ++ [1] ++
    List.replicate 56 0

def empty : Account := { owner := systemProgramId, lamports := 0, executable := false, data := [] }

def tokenAccount (mint authority : Pubkey) (amount : Nat) : Account :=
  { empty with owner := tokenProgramId, data := tokenData mint authority amount }

def clockData (unixTimestamp : Int64) : Bytes := (Codec.u64.pair Codec.i64).encode (1, unixTimestamp)

/-- The accounts before the pool is made; every other address is unused. -/
def accounts : List (Pubkey × Account) :=
  [(payer, { empty with lamports := 10000 }),
    (baseMint, { empty with owner := tokenProgramId, data := mintData }),
    (quoteMint, { empty with owner := tokenProgramId, data := mintData }),
    (baseVault, tokenAccount baseMint vaultAuthority 50),
    (quoteVault, tokenAccount quoteMint vaultAuthority 900),
    (venueBase, tokenAccount baseMint venueAuthority 70),
    (venueQuote, tokenAccount quoteMint venueAuthority 800),
    (systemProgramId, { empty with executable := true }),
    (tokenProgramId, { empty with executable := true }),
    (clockId, { empty with data := clockData 5 })]

def chain : Chain := fun k => ((accounts.find? fun entry => entry.1 = k).map (·.2)).getD empty

def signer (k : Pubkey) : AccountMeta := ⟨k, true, false⟩
def readonly (k : Pubkey) : AccountMeta := ⟨k, false, false⟩
def writable (k : Pubkey) : AccountMeta := ⟨k, false, true⟩

/-- The signature of a keyper here is two hashes that bind its key to the message. -/
def sign (keyper message : Bytes) : Bytes :=
  (sha256 (keyper ++ message)).bytes ++ (sha256 (message ++ keyper)).bytes

def verify (keyper signature message : Bytes) : Prop := signature = sign keyper message

instance (keyper signature message : Bytes) : Decidable (verify keyper signature message) :=
  inferInstanceAs (Decidable (_ = _))

/-- An approval in the strict layout. -/
def approval (keyper : Pubkey) (digest : Bytes32) : Instruction where
  programId := ed25519ProgramId
  accounts := []
  data := [1, 0] ++ leBytes 2 48 ++ leBytes 2 0xffff ++ leBytes 2 16 ++ leBytes 2 0xffff ++
    leBytes 2 112 ++ leBytes 2 32 ++ leBytes 2 0xffff ++ keyper.bytes ++
    sign keyper.bytes digest.bytes ++ digest.bytes

def transaction (approvals : List Instruction) (call : KagebInstruction)
    (h : approvals.length < 2 ^ 16) : InstructionsSysvar where
  instructions := approvals ++ [⟨programId, [], call.encode⟩]
  currentIndex := UInt16.ofNat approvals.length
  current_lt := by
    rw [UInt16.toNat_ofNat_of_lt' h]
    simp

def poolCall : KagebInstruction :=
  .initializePool { lockThreshold := 2, settlementThreshold := 2, baseLotAtoms := 10, keypers }

def poolAccounts : List AccountMeta :=
  [⟨payer, true, true⟩, signer operator, writable pool, readonly vaultAuthority, readonly baseMint,
    readonly quoteMint, readonly baseVault, readonly quoteVault, readonly venueAuthority,
    readonly venueBase, readonly venueQuote, readonly systemProgramId, readonly tokenProgramId]

def poolTx : InstructionsSysvar := transaction [] poolCall (by decide)

def poolChain : Chain := rt.execute poolTx chain poolAccounts poolCall.encode

def epochCall : KagebInstruction :=
  .createEpoch
    { epochId, minimumCount := 4, quoteAtomsPerLot := 100, lockDeadline := 10, abortDeadline := 20 }

def epochAccounts : List AccountMeta :=
  [⟨payer, true, true⟩, signer operator, readonly pool, writable epoch, readonly systemProgramId,
    readonly clockId]

def epochTx : InstructionsSysvar := transaction [] epochCall (by decide)

def epochChain : Chain := rt.execute epochTx poolChain epochAccounts epochCall.encode

def configuration : EpochConfigurationV1 :=
  { pool, epochId, baseMint, quoteMint, baseLotAtoms := 10, quoteAtomsPerLot := 100,
    minimumCount := 4, lockThreshold := 2, settlementThreshold := 2, keypers, lockDeadline := 10,
    abortDeadline := 20 }

def lockPayload : LockPayloadV1 :=
  { epochAccount := epoch
    configurationHash := configuration.digest sha256
    preBalanceRoot := key 30
    memberRoot := key 31
    memberCount := 5
    lockDeadline := 10
    lockNonce := key 32 }

def lockCall : KagebInstruction := .lock lockPayload

def lockAccounts : List AccountMeta :=
  [signer payer, readonly pool, writable epoch, readonly instructionsId, readonly clockId]

def lockTx : InstructionsSysvar :=
  transaction [approval keypers.first (lockPayload.digest sha256),
    approval keypers.third (lockPayload.digest sha256)] lockCall (by decide)

def lockChain : Chain := rt.execute lockTx epochChain lockAccounts lockCall.encode

/-- The pool buys two lots from the venue. -/
def compact : CompactSettlementPayload :=
  { resultCommitment := key 33, residualSide := 1, residualLots := 2, settlementNonce := key 34 }

def settlementPayload : SettlementPayloadV1 :=
  { epochAccount := epoch
    lockDigest := lockPayload.digest sha256
    resultCommitment := compact.resultCommitment
    residualSide := compact.residualSide
    residualLots := compact.residualLots
    baseLotAtoms := 10
    quoteAtomsPerLot := 100
    baseMint
    quoteMint
    poolBaseVault := baseVault
    poolQuoteVault := quoteVault
    venueBaseAccount := venueBase
    venueQuoteAccount := venueQuote
    venueAuthority
    settlementNonce := compact.settlementNonce }

def settleCall : KagebInstruction := .settle compact

def settleAccounts : List AccountMeta :=
  [signer payer, readonly pool, writable epoch, readonly vaultAuthority, writable baseVault,
    writable quoteVault, signer venueAuthority, writable venueBase, writable venueQuote,
    readonly baseMint, readonly quoteMint, readonly tokenProgramId, readonly instructionsId,
    readonly clockId]

def settleTx : InstructionsSysvar :=
  transaction [approval keypers.second (settlementPayload.digest sha256),
    approval keypers.third (settlementPayload.digest sha256)] settleCall (by decide)

def settleChain : Chain := rt.execute settleTx lockChain settleAccounts settleCall.encode

def poolState : PoolStateV1 :=
  { poolBump := 255
    vaultBump := 255
    lockThreshold := 2
    settlementThreshold := 2
    operator
    baseMint
    quoteMint
    poolBaseVault := baseVault
    poolQuoteVault := quoteVault
    venueAuthority
    venueBaseAccount := venueBase
    venueQuoteAccount := venueQuote
    keypers
    baseLotAtoms := 10 }

def openEpoch : EpochStateV1 :=
  { epochBump := 255
    terminalState := .open
    residualSide := 0
    pool
    epochId
    configurationHash := configuration.digest sha256
    preBalanceRoot := zero32
    memberRoot := zero32
    lockDigest := zero32
    resultCommitment := zero32
    settlementDigest := zero32
    lockNonce := zero32
    settlementNonce := zero32
    memberCount := 0
    minimumCount := 4
    residualLots := 0
    baseLotAtoms := 10
    quoteAtomsPerLot := 100
    lockDeadline := 10
    abortDeadline := 20 }

def lockedEpoch : EpochStateV1 := openEpoch.withLock lockPayload (lockPayload.digest sha256)

def settledEpoch : EpochStateV1 :=
  lockedEpoch.withSettlement compact (settlementPayload.digest sha256)

end Sample

end Kageb
