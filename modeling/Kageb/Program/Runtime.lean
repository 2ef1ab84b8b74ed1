import Kageb.Program.Instruction

/-! The chain that the program runs on: accounts, the calls that the program makes to the runtime
and to other programs, and what it relies on them for. -/

namespace Kageb

open Binary Checks

/-- `ID`, the address `HbMyCP5GxicksRpSVrchRTJTznP3zTrzCMb7FmZNRa77` of the program. -/
def programId : Pubkey :=
  ⟨[246, 136, 114, 172, 72, 143, 152, 90, 75, 63, 102, 159, 24, 176, 35, 233, 235, 245, 14, 97, 66,
    83, 112, 181, 15, 75, 143, 4, 88, 58, 165, 22], rfl⟩

/-- `TOKEN_PROGRAM_ID`, the address `TokenkegQfeZyiNwAJbNbGKPFXCWuBvf9Ss623VQ5DA`. -/
def tokenProgramId : Pubkey :=
  ⟨[6, 221, 246, 225, 215, 101, 161, 147, 217, 203, 225, 70, 206, 235, 121, 172, 28, 180, 133, 237,
    95, 91, 55, 145, 58, 140, 245, 133, 126, 255, 0, 169], rfl⟩

-- The address of the system program is 32 zero bytes.
def systemProgramId : Pubkey := zero32

/-- `SysvarC1ock11111111111111111111111111111111`. -/
def clockId : Pubkey :=
  ⟨[6, 167, 213, 23, 24, 199, 116, 201, 40, 86, 99, 152, 105, 29, 94, 182, 139, 94, 184, 163, 155,
    75, 109, 92, 115, 85, 91, 33, 0, 0, 0, 0], rfl⟩

/-- `Sysvar1nstructions1111111111111111111111111`. -/
def instructionsId : Pubkey :=
  ⟨[6, 167, 213, 23, 24, 123, 209, 102, 53, 218, 212, 4, 85, 253, 194, 192, 193, 36, 198, 143, 33,
    86, 117, 165, 219, 186, 203, 95, 8, 0, 0, 0], rfl⟩

/-- `Ed25519SigVerify111111111111111111111111111`. -/
def ed25519ProgramId : Pubkey :=
  ⟨[3, 125, 70, 214, 124, 147, 251, 190, 18, 249, 66, 143, 131, 141, 64, 255, 5, 112, 116, 73, 39,
    244, 138, 100, 252, 202, 112, 68, 128, 0, 0, 0], rfl⟩

structure Account where
  owner : Pubkey
  lamports : UInt64
  executable : Bool
  data : Bytes
  deriving DecidableEq

/-- `a` and `b` differ at most in their lamports. -/
def Account.SameRecord (a b : Account) : Prop :=
  a.owner = b.owner ∧ a.executable = b.executable ∧ a.data = b.data

/-- The account at every address; an address that was never used has an empty account of the
system program. -/
abbrev Chain := Pubkey → Account

structure AccountMeta where
  key : Pubkey
  isSigner : Bool
  isWritable : Bool
  deriving DecidableEq

/-- An account as an instruction sees it. -/
structure AccountInfo extends AccountMeta, Account

def Chain.info (c : Chain) (m : AccountMeta) : AccountInfo := { toAccountMeta := m, toAccount := c m.key }

structure Instruction where
  programId : Pubkey
  accounts : List AccountMeta
  data : Bytes
  deriving DecidableEq

/-- The instructions sysvar: the instructions of the running transaction, and the index of the one
that is running. -/
structure InstructionsSysvar where
  instructions : List Instruction
  currentIndex : UInt16
  current_lt : currentIndex.toNat < instructions.length

structure Clock where
  slot : UInt64
  unixTimestamp : Int64
  deriving DecidableEq

/-- The instructions that the program sends to the system program and to the token program. -/
inductive Cpi where
  | transfer (source destination : Pubkey) (lamports : UInt64)
  | allocate (account : Pubkey) (space : UInt64)
  | assign (account owner : Pubkey)
  | transferChecked (source mint destination authority : Pubkey) (amount : UInt64)
      (decimals : UInt8)
  deriving DecidableEq

/-- The parts of the runtime, of other programs and of libraries that the program calls. -/
structure Runtime where
  sha256 : Bytes → Bytes32
  findProgramAddress : List Bytes → Pubkey → Pubkey × UInt8
  -- `bincode::deserialize` at the type of the clock sysvar
  deserializeClock : Bytes → Option Clock
  -- `Rent::get()?.minimum_balance(len)`
  minimumBalance : Nat → Except ProgramError UInt64
  -- `invoke` with no seeds, `invoke_signed` with the seeds of one signer
  invoke : Chain → Cpi → List AccountMeta → Option (List Bytes) → Except ProgramError Chain

namespace Runtime

variable (rt : Runtime)

def poolAddress (operator baseMint quoteMint : Pubkey) : Pubkey × UInt8 :=
  rt.findProgramAddress [[112, 111, 111, 108], operator.bytes, baseMint.bytes, quoteMint.bytes]
    programId

def vaultAuthorityAddress (pool : Pubkey) : Pubkey × UInt8 :=
  rt.findProgramAddress [[118, 97, 117, 108, 116], pool.bytes] programId

def epochAddress (pool : Pubkey) (epochId : Bytes32) : Pubkey × UInt8 :=
  rt.findProgramAddress [[101, 112, 111, 99, 104], pool.bytes, epochId.bytes] programId

/-- `Clock::from_account_info`. -/
def clockFromAccountInfo (account : AccountInfo) : Except ProgramError Clock := do
  rejectIf (account.key ≠ clockId) (.runtime 0)
  okOr (rt.deserializeClock account.data) (.runtime 0)

end Runtime

/-! ### Token accounts -/

-- Bytes 64 to 72 of a token account are its amount.
def tokenAmount (data : Bytes) : Nat := leValue (slice data 64 72)

def withTokenAmount (data : Bytes) (amount : Nat) : Bytes :=
  data.take 64 ++ leBytes 8 amount ++ data.drop 72

def Chain.tokenAmount (c : Chain) (key : Pubkey) : Nat := Kageb.tokenAmount (c key).data

/-- The chain after `amount` moves from one token account to another. -/
def Chain.moveTokens (c : Chain) (source destination : Pubkey) (amount : Nat) : Chain := fun k =>
  if k = source then
    { c k with data := withTokenAmount (c k).data (c.tokenAmount source - amount) }
  else if k = destination then
    { c k with data := withTokenAmount (c k).data (c.tokenAmount destination + amount) }
  else c k

/-- What the program relies on: a call to the system program changes lamports, or the one account
it names; a token transfer between two accounts moves exactly its amount, or fails. -/
structure Runtime.Lawful (rt : Runtime) : Prop where
  transfer : ∀ {c c' : Chain} {source destination lamports metas seeds},
    rt.invoke c (.transfer source destination lamports) metas seeds = .ok c' →
    ∀ k, (c' k).SameRecord (c k)
  allocate : ∀ {c c' : Chain} {account space metas seeds},
    rt.invoke c (.allocate account space) metas seeds = .ok c' → ∀ k, k ≠ account → c' k = c k
  assign : ∀ {c c' : Chain} {account owner metas seeds},
    rt.invoke c (.assign account owner) metas seeds = .ok c' → ∀ k, k ≠ account → c' k = c k
  transferChecked : ∀ {c c' : Chain} {source mint destination authority : Pubkey}
    {amount : UInt64} {decimals metas seeds},
    rt.invoke c (.transferChecked source mint destination authority amount decimals) metas seeds
      = .ok c' → source ≠ destination →
    72 ≤ (c source).data.length ∧ 72 ≤ (c destination).data.length ∧
    amount.toNat ≤ c.tokenAmount source ∧ c.tokenAmount destination + amount.toNat < 2 ^ 64 ∧
    ∀ k, (c' k).SameRecord (c.moveTokens source destination amount.toNat k)

theorem Account.SameRecord.refl (a : Account) : a.SameRecord a := ⟨rfl, rfl, rfl⟩

theorem Account.SameRecord.trans {a b d : Account} (h : a.SameRecord b) (h' : b.SameRecord d) :
    a.SameRecord d :=
  ⟨h.1.trans h'.1, h.2.1.trans h'.2.1, h.2.2.trans h'.2.2⟩

theorem tokenAmount_withTokenAmount {data : Bytes} {amount : Nat} (hlen : 72 ≤ data.length)
    (h : amount < 2 ^ 64) : tokenAmount (withTokenAmount data amount) = amount := by
  have htake : (data.take 64).length = 64 := by simp; omega
  have hdrop : (withTokenAmount data amount).drop 64 = leBytes 8 amount ++ data.drop 72 := by
    rw [withTokenAmount, List.append_assoc, List.drop_append_of_le_length (by omega),
      List.drop_of_length_le (by omega), List.nil_append]
  have hslice : slice (withTokenAmount data amount) 64 72 = leBytes 8 amount := by
    rw [slice, hdrop, List.take_append_of_le_length (by simp), List.take_of_length_le (by simp)]
  rw [tokenAmount, hslice]
  exact leValue_leBytes h

theorem withTokenAmount_length {data : Bytes} {amount : Nat} (hlen : 72 ≤ data.length) :
    (withTokenAmount data amount).length = data.length := by
  simp [withTokenAmount]
  omega

end Kageb
