import Kageb.Host.Requests
import Kageb.Program.Acceptance

/-! The public observer: transactions as a node returns them, the decoder that makes a public trace
of a lock and a settlement, and what it has looked at when it accepts them. -/

namespace Kageb

open Binary Checks

/-! ### Confirmed transactions -/

structure CompiledInstruction where
  programIdIndex : UInt8
  accounts : List UInt8
  data : Bytes
  deriving DecidableEq

structure AddressTableLookup where
  accountKey : Pubkey
  writableIndexes : List UInt8
  readonlyIndexes : List UInt8
  deriving DecidableEq

inductive VersionedMessage where
  | legacy (accountKeys : List Pubkey) (instructions : List CompiledInstruction)
  | v0 (accountKeys : List Pubkey) (instructions : List CompiledInstruction)
      (addressTableLookups : List AddressTableLookup)
  deriving DecidableEq

namespace VersionedMessage

def staticAccountKeys : VersionedMessage → List Pubkey
  | legacy accountKeys _ => accountKeys
  | v0 accountKeys _ _ => accountKeys

def instructions : VersionedMessage → List CompiledInstruction
  | legacy _ instructions => instructions
  | v0 _ instructions _ => instructions

def addressTableLookups : VersionedMessage → List AddressTableLookup
  | legacy _ _ => []
  | v0 _ _ addressTableLookups => addressTableLookups

/-- The entries of tables that the lookups name, those to be written first. -/
def lookups (m : VersionedMessage) : List (Pubkey × UInt8) :=
  m.addressTableLookups.flatMap (fun l => l.writableIndexes.map fun i => (l.accountKey, i)) ++
    m.addressTableLookups.flatMap fun l => l.readonlyIndexes.map fun i => (l.accountKey, i)

/-- Every account that the transaction loads, when the tables hold these addresses. -/
def loadedKeys (tables : Pubkey → List Pubkey) (m : VersionedMessage) : Option (List Pubkey) := do
  let addresses ← m.lookups.mapM fun entry => (tables entry.1)[entry.2.toNat]?
  some (m.staticAccountKeys ++ addresses)

end VersionedMessage

/-- An instruction that a program called, the data in base 58. -/
inductive UiInstruction where
  | compiled (programIdIndex : UInt8) (accounts : List UInt8) (data : String)
  | parsed
  deriving DecidableEq

structure UiInnerInstructions where
  index : UInt8
  instructions : List UiInstruction
  deriving DecidableEq

inductive OptionSerializer (α : Type) where
  | some (a : α)
  | none
  | skip
  deriving DecidableEq

structure TransactionError where
  code : Nat
  deriving DecidableEq

/-- The fields of the status that are read. -/
structure UiTransactionStatusMeta where
  err : Option TransactionError
  status : Except TransactionError Unit
  innerInstructions : OptionSerializer (List UiInnerInstructions)

/-- `EncodedConfirmedTransactionWithStatusMeta`; what its `decode` returns stands for the encoded
transaction. -/
structure ConfirmedTransaction where
  statusMeta : Option UiTransactionStatusMeta
  message : Option VersionedMessage

inductive TokenInstruction where
  | transferChecked (amount : UInt64) (decimals : UInt8)
  | other
  deriving DecidableEq

/-- The parts of libraries that read what a node returns. -/
structure RpcLibrary where
  -- `bs58::decode(..).into_vec()`
  decodeBase58 : String → Option Bytes
  -- `TokenInstruction::unpack`
  unpackInstruction : Bytes → Option TokenInstruction

/-! ### The observer -/

inductive ObserverError where
  | failedTransaction
  | invalidEncoding
  | unexpectedInstruction
  | unexpectedAccount
  | unexpectedTokenEffect
  | invalidResidual
  deriving DecidableEq

structure KagebObserverAccounts extends SettleAccounts where
  feePayer : Pubkey
  baseLotAtoms : UInt64
  quoteAtomsPerLot : UInt64
  deriving DecidableEq

inductive PublicAction where
  | individual (wallet : Bytes32) (side : Side) (lots : UInt32)
  | aggregate (pool venue : Bytes32) (residual : Residual) (memberRoot resultCommitment : Bytes32)
      (keyperApprovals : UInt8)
  deriving DecidableEq

structure PublicTrace where
  actions : List PublicAction
  deriving DecidableEq

structure DecodedConfirmed where
  keys : List Pubkey
  instructions : List CompiledInstruction
  inner : List UiInnerInstructions

def OptionSerializer.toList {α : Type} : OptionSerializer (List α) → List α
  | some as => as
  | none => []
  | skip => []

def decodeConfirmed (confirmed : ConfirmedTransaction) : Except ObserverError DecodedConfirmed := do
  let statusMeta ← okOr confirmed.statusMeta .failedTransaction
  rejectIf (statusMeta.err.isSome ∨ statusMeta.status.isOk = false) .failedTransaction
  let message ← okOr confirmed.message .invalidEncoding
  .ok ⟨message.staticAccountKeys, message.instructions, statusMeta.innerInstructions.toList⟩

/-- `checked_add(1)` on a byte. -/
def nextApproval (count : UInt8) : Option UInt8 := if count = 255 then none else some (count + 1)

/-- The loop of `exact_kageb_instruction`: approvals, and then the one instruction of the program. -/
def exactKagebLoop (keys : List Pubkey) (discriminator : UInt8) :
    Nat → Option CompiledInstruction → UInt8 → List CompiledInstruction →
    Except ObserverError (CompiledInstruction × UInt8)
  | _, found, approvals, [] => do
    let found ← okOr found .unexpectedInstruction
    .ok (found, approvals)
  | index, found, approvals, instruction :: instructions => do
    let program ← okOr keys[instruction.programIdIndex.toNat]? .unexpectedInstruction
    if program = ed25519ProgramId then do
      rejectIf (found.isSome ∨ instruction.accounts ≠ []) .unexpectedInstruction
      let _ ← (parseStrictEd25519 ⟨program, [], instruction.data⟩).mapError
        fun _ => .unexpectedInstruction
      let approvals ← okOr (nextApproval approvals) .unexpectedInstruction
      exactKagebLoop keys discriminator (index + 1) found approvals instructions
    else if program = programId then do
      rejectIf (found.isSome ∨ instruction.data.head? ≠ some discriminator ∨
        index ≠ approvals.toNat) .unexpectedInstruction
      exactKagebLoop keys discriminator (index + 1) (some instruction) approvals instructions
    else .error .unexpectedInstruction

def exactKagebInstruction (transaction : DecodedConfirmed) (discriminator : UInt8) :
    Except ObserverError (CompiledInstruction × UInt8) :=
  exactKagebLoop transaction.keys discriminator 0 none 0 transaction.instructions

def requireAccounts (keys : List Pubkey) (indexes : List UInt8) (expected : List Pubkey) :
    Except ObserverError Unit :=
  rejectIf (indexes.length ≠ expected.length ∨
    ∃ entry ∈ indexes.zip expected, keys[entry.1.toNat]? ≠ some entry.2) .unexpectedAccount

def requireExactKeys (keys expected : List Pubkey) : Except ObserverError Unit :=
  let uniqueExpected := expected.zipIdx.countP fun entry => entry.1 ∉ expected.take entry.2
  rejectIf (keys.length ≠ uniqueExpected ∨ (∃ key ∈ keys, key ∉ expected) ∨
    ∃ key ∈ expected, key ∉ keys) .unexpectedAccount

def requireFeePayer (keys : List Pubkey) (expected : Pubkey) : Except ObserverError Unit :=
  rejectIf (keys.head? ≠ some expected) .unexpectedAccount

/-- A transfer that the observer demands. -/
structure TokenLeg where
  source : Pubkey
  mint : Pubkey
  destination : Pubkey
  authority : Pubkey
  amount : UInt64
  deriving DecidableEq

def TokenLeg.accounts (leg : TokenLeg) : List Pubkey :=
  [leg.source, leg.mint, leg.destination, leg.authority]

def Residual.lots : Residual → UInt32
  | none => 0
  | buy lots => lots
  | sell lots => lots

/-- The first half of `validate_settlement_token_effects`: the transfers of a residual. -/
def expectedLegs (accounts : KagebObserverAccounts) (residual : Residual) :
    Except ObserverError (List TokenLeg) := do
  let lots := residual.lots.toUInt64
  let baseAmount ← okOr (checkedMul accounts.baseLotAtoms lots) .unexpectedTokenEffect
  let quoteAmount ← okOr (checkedMul accounts.quoteAtomsPerLot lots) .unexpectedTokenEffect
  .ok (match residual with
    | .none => []
    | .buy _ =>
      [⟨accounts.poolQuoteVault, accounts.quoteMint, accounts.venueQuoteAccount,
          accounts.vaultAuthority, quoteAmount⟩,
        ⟨accounts.venueBaseAccount, accounts.baseMint, accounts.poolBaseVault,
          accounts.venueAuthority, baseAmount⟩]
    | .sell _ =>
      [⟨accounts.poolBaseVault, accounts.baseMint, accounts.venueBaseAccount,
          accounts.vaultAuthority, baseAmount⟩,
        ⟨accounts.venueQuoteAccount, accounts.quoteMint, accounts.poolQuoteVault,
          accounts.venueAuthority, quoteAmount⟩])

section Observe

variable (lib : RpcLibrary)

/-- One turn of the loop of `validate_settlement_token_effects`. -/
def requireLeg (keys : List Pubkey) (leg : TokenLeg) : UiInstruction → Except ObserverError Unit
  | .parsed => .error .unexpectedTokenEffect
  | .compiled programIdIndex accounts data => do
    rejectIf (keys[programIdIndex.toNat]? ≠ some tokenProgramId) .unexpectedTokenEffect
    requireAccounts keys accounts leg.accounts
    let data ← okOr (lib.decodeBase58 data) .unexpectedTokenEffect
    let token ← okOr (lib.unpackInstruction data) .unexpectedTokenEffect
    rejectIf (token ≠ .transferChecked leg.amount 0) .unexpectedTokenEffect

def requireLegs (keys : List Pubkey) : List (UiInstruction × TokenLeg) → Except ObserverError Unit
  | [] => .ok ()
  | (instruction, leg) :: rest => do
    requireLeg lib keys leg instruction
    requireLegs keys rest

def validateSettlementTokenEffects (inner : List UiInnerInstructions) (keys : List Pubkey)
    (settlementIndex : UInt8) (accounts : KagebObserverAccounts) (residual : Residual) :
    Except ObserverError Unit := do
  let expected ← expectedLegs accounts residual
  match inner with
  | [] => rejectIf (expected ≠ []) .unexpectedTokenEffect
  | [group] => do
    rejectIf (group.index ≠ settlementIndex) .unexpectedTokenEffect
    rejectIf (group.instructions.length ≠ expected.length) .unexpectedTokenEffect
    requireLegs lib keys (group.instructions.zip expected)
  | _ => .error .unexpectedTokenEffect

namespace KagebObserverAccounts

variable (accounts : KagebObserverAccounts)

/-- The keys of a lock transaction. -/
def lockKeys : List Pubkey :=
  [accounts.feePayer, accounts.payer, accounts.pool, accounts.epoch, instructionsId, clockId,
    ed25519ProgramId, programId]

/-- The accounts of its instruction. -/
def lockAccounts : List Pubkey :=
  [accounts.payer, accounts.pool, accounts.epoch, instructionsId, clockId]

def settlementKeys : List Pubkey :=
  [accounts.feePayer, accounts.payer, accounts.pool, accounts.epoch, accounts.vaultAuthority,
    accounts.poolBaseVault, accounts.poolQuoteVault, accounts.venueAuthority,
    accounts.venueBaseAccount, accounts.venueQuoteAccount, accounts.baseMint, accounts.quoteMint,
    tokenProgramId, instructionsId, clockId, ed25519ProgramId, programId]

def settlementAccounts : List Pubkey :=
  [accounts.payer, accounts.pool, accounts.epoch, accounts.vaultAuthority, accounts.poolBaseVault,
    accounts.poolQuoteVault, accounts.venueAuthority, accounts.venueBaseAccount,
    accounts.venueQuoteAccount, accounts.baseMint, accounts.quoteMint, tokenProgramId,
    instructionsId, clockId]

end KagebObserverAccounts

def observedLock (epoch : Pubkey) (data : Bytes) : Except ObserverError LockPayloadV1 := do
  let instruction ← (KagebInstruction.decode data).mapError fun _ => .unexpectedInstruction
  match instruction with
  | .lock payload => do
    rejectIf (¬(payload.epochAccount = epoch ∧ 4 ≤ payload.memberCount)) .unexpectedInstruction
    .ok payload
  | _ => .error .unexpectedInstruction

def observedSettlement (data : Bytes) : Except ObserverError CompactSettlementPayload := do
  let instruction ← (KagebInstruction.decode data).mapError fun _ => .unexpectedInstruction
  match instruction with
  | .settle payload => .ok payload
  | _ => .error .unexpectedInstruction

def observedResidual (side : UInt8) (lots : UInt32) : Except ObserverError Residual :=
  if side = 0 ∧ lots = 0 then .ok .none
  else if side = 1 ∧ lots ≠ 0 then .ok (.buy lots)
  else if side = 2 ∧ lots ≠ 0 then .ok (.sell lots)
  else .error .invalidResidual

def PublicTrace.fromConfirmedKageb (lock settlement : ConfirmedTransaction)
    (accounts : KagebObserverAccounts) : Except ObserverError PublicTrace := do
  let lock ← decodeConfirmed lock
  let settlement ← decodeConfirmed settlement
  requireFeePayer lock.keys accounts.feePayer
  requireFeePayer settlement.keys accounts.feePayer
  let (lockInstruction, lockApprovals) ← exactKagebInstruction lock 2
  let (settlementInstruction, settlementApprovals) ← exactKagebInstruction settlement 3
  rejectIf (lockApprovals ≠ 2 ∨ settlementApprovals ≠ 2) .unexpectedInstruction
  requireExactKeys lock.keys accounts.lockKeys
  requireAccounts lock.keys lockInstruction.accounts accounts.lockAccounts
  let lockPayload ← observedLock accounts.epoch lockInstruction.data
  requireExactKeys settlement.keys accounts.settlementKeys
  requireAccounts settlement.keys settlementInstruction.accounts accounts.settlementAccounts
  let compact ← observedSettlement settlementInstruction.data
  let residual ← observedResidual compact.residualSide compact.residualLots
  validateSettlementTokenEffects lib settlement.inner settlement.keys 2 accounts residual
  .ok ⟨[.aggregate accounts.pool accounts.venueAuthority residual lockPayload.memberRoot
    compact.resultCommitment settlementApprovals]⟩

end Observe

/-! ### What each check says -/

section Checks

theorem requireAccounts_ok {keys : List Pubkey} {indexes : List UInt8} {expected : List Pubkey}
    {u : Unit} : requireAccounts keys indexes expected = .ok u ↔
      indexes.map (fun index => keys[index.toNat]?) = expected.map some := by
  rw [requireAccounts, rejectIf_eq_ok, not_or, not_not, not_exists]
  induction indexes generalizing expected with
  | nil => cases expected <;> simp
  | cons index indexes ih =>
    cases expected with
    | nil => simp
    | cons key expected =>
      rw [List.map_cons, List.map_cons, List.cons.injEq, ← ih]
      simp only [List.length_cons, add_left_inj, List.zip_cons_cons, List.mem_cons, not_and,
        not_not, Prod.forall, Prod.mk.injEq]
      grind

/-- The positions where a key stands first are as many as there are keys. -/
theorem countP_first {α : Type} [DecidableEq α] (l : List α) :
    l.zipIdx.countP (fun entry => entry.1 ∉ l.take entry.2) = l.toFinset.card := by
  induction l using List.reverseRecOn with
  | nil => rfl
  | append_singleton l a ih =>
    have hsame : (l.zipIdx.countP fun entry => entry.1 ∉ (l ++ [a]).take entry.2) =
        l.zipIdx.countP fun entry => entry.1 ∉ l.take entry.2 := by
      refine List.countP_congr fun entry hentry => ?_
      have hlt : entry.2 < l.length :=
        (List.getElem?_eq_some_iff.mp (List.mk_mem_zipIdx_iff_getElem?.mp hentry)).1
      rw [List.take_append_of_le_length hlt.le]
    rw [List.zipIdx_append, List.countP_append, hsame, ih, List.toFinset_append]
    by_cases ha : a ∈ l <;> simp [ha]

/-- Each of the declared keys is listed once, and no other key is. -/
structure Declared (expected keys : List Pubkey) : Prop where
  nodup : keys.Nodup
  mem : ∀ key ∈ keys, key ∈ expected

theorem toFinset_eq_of {keys expected : List Pubkey} (hmem : ∀ key ∈ keys, key ∈ expected)
    (hall : ∀ key ∈ expected, key ∈ keys) : keys.toFinset = expected.toFinset := by
  ext key
  simp only [List.mem_toFinset]
  exact ⟨hmem key, hall key⟩

theorem requireExactKeys_ok {keys expected : List Pubkey} {u : Unit} :
    requireExactKeys keys expected = .ok u ↔
      Declared expected keys ∧ ∀ key ∈ expected, key ∈ keys := by
  simp only [requireExactKeys, rejectIf_eq_ok, not_or, not_not, not_exists, not_and, countP_first]
  constructor
  · rintro ⟨hlength, hmem, hall⟩
    -- as many keys as there are declared ones, and all of those among them
    have hcard : keys.toFinset.card = keys.length := by
      rw [toFinset_eq_of hmem hall, hlength]
    have hnodup := Multiset.toFinset_card_eq_card_iff_nodup.mp
      (show (keys : Multiset Pubkey).toFinset.card = Multiset.card (keys : Multiset Pubkey)
        from hcard)
    exact ⟨⟨hnodup, hmem⟩, hall⟩
  · rintro ⟨⟨hnodup, hmem⟩, hall⟩
    refine ⟨?_, hmem, hall⟩
    rw [← toFinset_eq_of hmem hall, List.toFinset_card_of_nodup hnodup]

/-- A strict approval at the top level of a transaction with these keys. -/
structure CompiledInstruction.IsApproval (keys : List Pubkey) (i : CompiledInstruction) : Prop where
  program : keys[i.programIdIndex.toNat]? = some ed25519ProgramId
  accounts : i.accounts = []
  strict : ∃ parsed, parseStrictEd25519 ⟨ed25519ProgramId, [], i.data⟩ = .ok parsed

structure CompiledInstruction.IsKageb (keys : List Pubkey) (discriminator : UInt8)
    (i : CompiledInstruction) : Prop where
  program : keys[i.programIdIndex.toNat]? = some programId
  discriminator : i.data.head? = some discriminator

variable {keys : List Pubkey} {discriminator : UInt8}

theorem nextApproval_eq_some {count next : UInt8} (h : nextApproval count = some next) :
    next.toNat = count.toNat + 1 := by
  unfold nextApproval at h
  split_ifs at h with hfull
  cases h
  have hlt := count.toNat_lt
  have hne : count.toNat ≠ 255 := fun heq => hfull (UInt8.toNat_inj.mp heq)
  rw [UInt8.toNat_add]
  simp
  omega

/-- Nothing follows the instruction of the program. -/
theorem exactKagebLoop_found {index : Nat} {found k : CompiledInstruction} {approvals n : UInt8}
    {instructions : List CompiledInstruction}
    (h : exactKagebLoop keys discriminator index (some found) approvals instructions = .ok (k, n)) :
    instructions = [] ∧ k = found ∧ n = approvals := by
  cases instructions with
  | nil =>
    cases h
    exact ⟨rfl, rfl, rfl⟩
  | cons i instructions =>
    simp only [exactKagebLoop, bind_ok, okOr_eq_ok] at h
    obtain ⟨program, -, h⟩ := h
    split_ifs at h
    · obtain ⟨_, hfirst, -⟩ := bind_ok.mp h
      simp at hfirst
    · obtain ⟨_, hfirst, -⟩ := bind_ok.mp h
      simp at hfirst

/-- Approvals come first, and the instruction of the program is the last one. -/
theorem exactKagebLoop_none {index : Nat} {k : CompiledInstruction} {approvals n : UInt8}
    {instructions : List CompiledInstruction}
    (h : exactKagebLoop keys discriminator index none approvals instructions = .ok (k, n)) :
    ∃ first, instructions = first ++ [k] ∧ (∀ i ∈ first, i.IsApproval keys) ∧
      k.IsKageb keys discriminator ∧ n.toNat = approvals.toNat + first.length := by
  induction instructions generalizing index approvals with
  | nil => cases h
  | cons i instructions ih =>
    simp only [exactKagebLoop, bind_ok, okOr_eq_ok] at h
    obtain ⟨program, hprogram, h⟩ := h
    split_ifs at h with hverifier hkageb
    · subst hverifier
      simp only [bind_ok, Unique.exists_iff, rejectIf_eq_ok, mapError_eq_ok, okOr_eq_ok, not_or,
        not_not] at h
      obtain ⟨⟨-, haccounts⟩, parsed, hparsed, next, hnext, hrest⟩ := h
      obtain ⟨first, rfl, hfirst, hk, hn⟩ := ih hrest
      have hsucc := nextApproval_eq_some hnext
      refine ⟨i :: first, rfl, ?_, hk, ?_⟩
      · rintro j (_ | ⟨_, hj⟩)
        · exact ⟨hprogram, haccounts, parsed, hparsed⟩
        · exact hfirst j hj
      · rw [hn, hsucc, List.length_cons]
        omega
    · subst hkageb
      simp only [bind_ok, Unique.exists_iff, rejectIf_eq_ok, not_or, not_not] at h
      obtain ⟨⟨-, hdata, -⟩, hrest⟩ := h
      obtain ⟨rfl, rfl, rfl⟩ := exactKagebLoop_found hrest
      exact ⟨[], rfl, by simp, ⟨hprogram, hdata⟩, by simp⟩

theorem exactKagebInstruction_two {t : DecodedConfirmed} {k : CompiledInstruction}
    (h : exactKagebInstruction t discriminator = .ok (k, 2)) :
    ∃ a₁ a₂, t.instructions = [a₁, a₂, k] ∧ a₁.IsApproval t.keys ∧ a₂.IsApproval t.keys ∧
      k.IsKageb t.keys discriminator := by
  obtain ⟨first, hinstructions, hfirst, hk, hlength⟩ := exactKagebLoop_none h
  have htwo : first.length = 2 := by
    have h2 : (2 : UInt8).toNat = (0 : UInt8).toNat + first.length := hlength
    simp at h2
    exact h2.symm
  obtain ⟨a₁, a₂, rfl⟩ := List.length_eq_two.mp htwo
  exact ⟨a₁, a₂, hinstructions, hfirst a₁ (by simp), hfirst a₂ (by simp), hk⟩

/-- The instruction is the transfer of the leg. -/
structure ShowsLeg (lib : RpcLibrary) (keys : List Pubkey) (i : UiInstruction) (leg : TokenLeg) :
    Prop where
  shown : ∃ programIdIndex accounts data bytes, i = .compiled programIdIndex accounts data ∧
    keys[programIdIndex.toNat]? = some tokenProgramId ∧
    accounts.map (fun index => keys[index.toNat]?) = leg.accounts.map some ∧
    lib.decodeBase58 data = some bytes ∧
    lib.unpackInstruction bytes = some (.transferChecked leg.amount 0)

variable {lib : RpcLibrary}

theorem requireLeg_ok {leg : TokenLeg} {i : UiInstruction} {u : Unit} :
    requireLeg lib keys leg i = .ok u ↔ ShowsLeg lib keys i leg := by
  cases i with
  | parsed =>
    constructor
    · intro h
      cases h
    · rintro ⟨_, _, _, _, h, -⟩
      cases h
  | compiled programIdIndex accounts data =>
    simp only [requireLeg, bind_ok, Unique.exists_iff, rejectIf_eq_ok, okOr_eq_ok, not_not,
      requireAccounts_ok]
    constructor
    · rintro ⟨hprogram, haccounts, bytes, hbytes, token, htoken, rfl⟩
      exact ⟨_, _, _, bytes, rfl, hprogram, haccounts, hbytes, htoken⟩
    · rintro ⟨_, _, _, bytes, ⟨⟩, hprogram, haccounts, hbytes, htoken⟩
      exact ⟨hprogram, haccounts, bytes, hbytes, _, htoken, rfl⟩

theorem requireLegs_ok {instructions : List UiInstruction} {legs : List TokenLeg}
    (hlength : instructions.length = legs.length) {u : Unit} :
    requireLegs lib keys (instructions.zip legs) = .ok u ↔
      List.Forall₂ (ShowsLeg lib keys) instructions legs := by
  induction instructions generalizing legs with
  | nil =>
    obtain rfl := List.length_eq_zero_iff.mp hlength.symm
    simp [requireLegs]
  | cons i instructions ih =>
    cases legs with
    | nil => cases hlength
    | cons leg legs =>
      simp only [List.zip_cons_cons, requireLegs, bind_ok, Unique.exists_iff, requireLeg_ok,
        ih (Nat.succ.inj hlength), List.forall₂_cons]

/-- The inner instructions are these transfers of the instruction at `index`, and nothing else. -/
def ShowsLegs (lib : RpcLibrary) (keys : List Pubkey) (index : UInt8)
    (inner : List UiInnerInstructions) (legs : List TokenLeg) : Prop :=
  inner = [] ∧ legs = [] ∨
    ∃ group, inner = [group] ∧ group.index = index ∧
      List.Forall₂ (ShowsLeg lib keys) group.instructions legs

theorem validateSettlementTokenEffects_ok {inner : List UiInnerInstructions} {index : UInt8}
    {accounts : KagebObserverAccounts} {residual : Residual} {u : Unit} :
    validateSettlementTokenEffects lib inner keys index accounts residual = .ok u ↔
      ∃ legs, expectedLegs accounts residual = .ok legs ∧ ShowsLegs lib keys index inner legs := by
  simp only [validateSettlementTokenEffects, bind_ok]
  refine exists_congr fun legs => and_congr_right fun _ => ?_
  rcases inner with _ | ⟨group, _ | ⟨second, rest⟩⟩
  · simp [ShowsLegs]
  · simp only [bind_ok, Unique.exists_iff, rejectIf_eq_ok, not_not, ShowsLegs, List.cons_ne_nil,
      false_and, false_or, List.cons.injEq, and_true]
    constructor
    · rintro ⟨hindex, hlength, hlegs⟩
      exact ⟨group, rfl, hindex, (requireLegs_ok hlength).mp hlegs⟩
    · rintro ⟨_, rfl, hindex, hlegs⟩
      exact ⟨hindex, hlegs.length_eq, (requireLegs_ok hlegs.length_eq).mpr hlegs⟩
  · simp [ShowsLegs]

theorem observedResidual_eq (side : UInt8) (lots : UInt32) :
    observedResidual side lots = (residualOf side lots).mapError fun _ => .invalidResidual := by
  unfold observedResidual residualOf
  split_ifs <;> rfl

theorem observedResidual_ok {side : UInt8} {lots : UInt32} {r : Residual} :
    observedResidual side lots = .ok r ↔ r.Proper ∧ residualWire r = (side, lots) := by
  rw [observedResidual_eq, mapError_eq_ok, residualOf_eq_ok]

end Checks

/-! ### Accepted traces -/

section Accepted

/-- What the observer has seen of a transaction that it accepts: two approvals and the instruction
of the program, on the declared keys and no others. -/
structure Seen (t : ConfirmedTransaction) (m : VersionedMessage) (inner : List UiInnerInstructions)
    (discriminator : UInt8) (declared accounts : List Pubkey) (k : CompiledInstruction) : Prop where
  message : t.message = some m
  succeeded : ∃ statusMeta, t.statusMeta = some statusMeta ∧ statusMeta.err = none ∧
    statusMeta.status.isOk = true ∧ statusMeta.innerInstructions.toList = inner
  instructions : ∃ a₁ a₂, m.instructions = [a₁, a₂, k] ∧ a₁.IsApproval m.staticAccountKeys ∧
    a₂.IsApproval m.staticAccountKeys
  program : k.IsKageb m.staticAccountKeys discriminator
  keys : Declared declared m.staticAccountKeys
  complete : ∀ key ∈ declared, key ∈ m.staticAccountKeys
  accounts : k.accounts.map (fun index => m.staticAccountKeys[index.toNat]?) = accounts.map some

variable {lib : RpcLibrary} {lock settlement : ConfirmedTransaction}
  {accounts : KagebObserverAccounts}

theorem decodeConfirmed_ok {t : ConfirmedTransaction} {d : DecodedConfirmed} :
    decodeConfirmed t = .ok d ↔ ∃ m statusMeta, t.message = some m ∧
      t.statusMeta = some statusMeta ∧ statusMeta.err = none ∧ statusMeta.status.isOk = true ∧
      d = ⟨m.staticAccountKeys, m.instructions, statusMeta.innerInstructions.toList⟩ := by
  simp only [decodeConfirmed, bind_ok, Unique.exists_iff, okOr_eq_ok, rejectIf_eq_ok, not_or,
    Bool.not_eq_false, Option.not_isSome_iff_eq_none, Except.ok.injEq]
  constructor
  · rintro ⟨statusMeta, hmeta, ⟨herr, hstatus⟩, m, hm, rfl⟩
    exact ⟨m, statusMeta, hm, hmeta, herr, hstatus, rfl⟩
  · rintro ⟨m, statusMeta, hm, hmeta, herr, hstatus, rfl⟩
    exact ⟨statusMeta, hmeta, ⟨herr, hstatus⟩, m, hm, rfl⟩

theorem observedSettlement_ok {data : Bytes} {compact : CompactSettlementPayload} :
    observedSettlement data = .ok compact ↔ KagebInstruction.decode data = .ok (.settle compact) := by
  simp only [observedSettlement, bind_ok, mapError_eq_ok]
  constructor
  · rintro ⟨instruction, hdecode, h⟩
    cases instruction <;> cases h
    exact hdecode
  · intro hdecode
    exact ⟨_, hdecode, rfl⟩

/-- The inner instructions of a settlement are the transfers of the residual that it states. -/
structure SettlesResidual (lib : RpcLibrary) (accounts : KagebObserverAccounts)
    (m : VersionedMessage) (inner : List UiInnerInstructions) (k : CompiledInstruction)
    (compact : CompactSettlementPayload) (residual : Residual) (legs : List TokenLeg) : Prop where
  payload : KagebInstruction.decode k.data = .ok (.settle compact)
  proper : residual.Proper
  wire : residualWire residual = (compact.residualSide, compact.residualLots)
  expected : expectedLegs accounts residual = .ok legs
  shown : ShowsLegs lib m.staticAccountKeys 2 inner legs

theorem fromConfirmedKageb_ok {trace : PublicTrace}
    (h : PublicTrace.fromConfirmedKageb lib lock settlement accounts = .ok trace) :
    (∃ m inner k payload, Seen lock m inner 2 accounts.lockKeys accounts.lockAccounts k ∧
      observedLock accounts.epoch k.data = .ok payload) ∧
    ∃ m inner k compact residual legs,
      Seen settlement m inner 3 accounts.settlementKeys accounts.settlementAccounts k ∧
      SettlesResidual lib accounts m inner k compact residual legs := by
  simp only [PublicTrace.fromConfirmedKageb, bind_ok, Unique.exists_iff, Prod.exists,
    rejectIf_eq_ok, not_or, not_not, requireExactKeys_ok, requireAccounts_ok,
    validateSettlementTokenEffects_ok, observedSettlement_ok, observedResidual_ok,
    decodeConfirmed_ok] at h
  obtain ⟨dLock, ⟨m, meta1, hm, hmeta, herr, hstatus, rfl⟩, dSettle,
    ⟨m', meta2, hm', hmeta', herr', hstatus', rfl⟩, -, -, k, n, hk, k', n', hk', ⟨rfl, rfl⟩,
    ⟨hkeys, hall⟩, haccounts, payload, hpayload, ⟨hkeys', hall'⟩, haccounts', compact, hcompact,
    residual, ⟨hproper, hwire⟩, ⟨legs, hlegs, hshown⟩, -⟩ := h
  obtain ⟨a₁, a₂, hinstructions, ha₁, ha₂, hprogram⟩ := exactKagebInstruction_two hk
  obtain ⟨b₁, b₂, hinstructions', hb₁, hb₂, hprogram'⟩ := exactKagebInstruction_two hk'
  exact ⟨⟨m, _, k, payload, ⟨hm, ⟨meta1, hmeta, herr, hstatus, rfl⟩,
      ⟨a₁, a₂, hinstructions, ha₁, ha₂⟩, hprogram, hkeys, hall, haccounts⟩, hpayload⟩,
    m', _, k', compact, residual, legs, ⟨hm', ⟨meta2, hmeta', herr', hstatus', rfl⟩,
      ⟨b₁, b₂, hinstructions', hb₁, hb₂⟩, hprogram', hkeys', hall', haccounts'⟩,
    ⟨hcompact, hproper, hwire, hlegs, hshown⟩⟩

/-- The accounts that a transaction loads, when the tables hold these addresses. -/
def ConfirmedTransaction.Loads (tables : Pubkey → List Pubkey) (t : ConfirmedTransaction)
    (keys : List Pubkey) : Prop :=
  ∃ m, t.message = some m ∧ m.loadedKeys tables = some keys

/-- The transaction loads nothing through address tables. -/
def ConfirmedTransaction.NoLookups (t : ConfirmedTransaction) : Prop :=
  ∀ m, t.message = some m → m.lookups = []

/-- The trace is the lock and the settlement that it says, and no other account is attached to
either of them. -/
def NothingAttached (lib : RpcLibrary) (lock settlement : ConfirmedTransaction)
    (accounts : KagebObserverAccounts) (lockLoads settlementLoads : List Pubkey) : Prop :=
  ((∃ m inner k, Seen lock m inner 2 accounts.lockKeys accounts.lockAccounts k) ∧
    ∃ m inner k compact residual legs,
      Seen settlement m inner 3 accounts.settlementKeys accounts.settlementAccounts k ∧
      SettlesResidual lib accounts m inner k compact residual legs) ∧
  Declared accounts.lockKeys lockLoads ∧ Declared accounts.settlementKeys settlementLoads

theorem length_of_mapM {α β : Type} {f : α → Option β} {as : List α} {bs : List β}
    (h : as.mapM f = some bs) : bs.length = as.length := by
  induction as generalizing bs with
  | nil =>
    cases h
    rfl
  | cons a as ih =>
    simp only [List.mapM_cons, Option.bind_eq_bind, Option.bind_eq_some_iff, Option.pure_def,
      Option.some.injEq] at h
    obtain ⟨b, -, bs, hbs, rfl⟩ := h
    rw [List.length_cons, List.length_cons, ih hbs]

/-- Where all declared keys are in the static list, a lookup only adds others or repeats one. -/
theorem Seen.declared_iff {t : ConfirmedTransaction} {m : VersionedMessage}
    {inner : List UiInnerInstructions} {discriminator : UInt8} {declared expected : List Pubkey}
    {k : CompiledInstruction} (h : Seen t m inner discriminator declared expected k)
    {tables : Pubkey → List Pubkey} {loads : List Pubkey} (hloads : t.Loads tables loads) :
    Declared declared loads ↔ t.NoLookups := by
  obtain ⟨m', hm', hloaded⟩ := hloads
  cases h.message.symm.trans hm'
  simp only [VersionedMessage.loadedKeys, Option.bind_eq_bind, Option.bind_eq_some_iff,
    Option.some.injEq] at hloaded
  obtain ⟨addresses, haddresses, rfl⟩ := hloaded
  have hlookups : t.NoLookups ↔ m.lookups = [] :=
    ⟨fun hnone => hnone m h.message, fun hnone m' hm' => by
      cases h.message.symm.trans hm'
      exact hnone⟩
  rw [hlookups, ← List.length_eq_zero_iff, ← length_of_mapM haddresses, List.length_eq_zero_iff]
  constructor
  · rintro ⟨hnodup, hmem⟩
    refine List.eq_nil_iff_forall_not_mem.mpr fun key hkey => ?_
    have hstatic := h.complete key (hmem key (List.mem_append_right _ hkey))
    exact (List.nodup_append.mp hnodup).2.2 key hstatic key hkey rfl
  · rintro rfl
    rw [List.append_nil]
    exact h.keys

/-- An accepted trace has nothing attached to it exactly if neither transaction loads accounts
through address tables. -/
theorem nothing_attached_iff {trace : PublicTrace}
    (haccepted : PublicTrace.fromConfirmedKageb lib lock settlement accounts = .ok trace)
    {tables : Pubkey → List Pubkey} {lockLoads settlementLoads : List Pubkey}
    (hlock : lock.Loads tables lockLoads) (hsettlement : settlement.Loads tables settlementLoads) :
    NothingAttached lib lock settlement accounts lockLoads settlementLoads ↔
      lock.NoLookups ∧ settlement.NoLookups := by
  obtain ⟨⟨m, inner, k, payload, hseen, -⟩, m', inner', k', compact, residual, legs, hseen',
    hsettles⟩ := fromConfirmedKageb_ok haccepted
  have hiff := hseen.declared_iff hlock
  have hiff' := hseen'.declared_iff hsettlement
  constructor
  · rintro ⟨-, hdeclared, hdeclared'⟩
    exact ⟨hiff.mp hdeclared, hiff'.mp hdeclared'⟩
  · rintro ⟨hnone, hnone'⟩
    exact ⟨⟨⟨m, inner, k, hseen⟩, m', inner', k', compact, residual, legs, hseen', hsettles⟩,
      hiff.mpr hnone, hiff'.mpr hnone'⟩

end Accepted

namespace Sample

/-- A library that reads two texts, as the transfers of two lots. -/
def rpcLibrary : RpcLibrary where
  decodeBase58 text := if text = "quote" then some [0] else if text = "base" then some [1] else none
  unpackInstruction bytes :=
    if bytes = [0] then some (.transferChecked 200 0)
    else if bytes = [1] then some (.transferChecked 20 0)
    else none

def observed : KagebObserverAccounts where
  toSettleAccounts := rt.settleAccounts payer pool epoch poolState
  feePayer := payer
  baseLotAtoms := 10
  quoteAtomsPerLot := 100

def compiledApproval (verifier : UInt8) (keyper : Pubkey) (digest : Bytes32) :
    CompiledInstruction :=
  ⟨verifier, [], (approval keyper digest).data⟩

def lockStaticKeys : List Pubkey :=
  [payer, pool, epoch, instructionsId, clockId, ed25519ProgramId, programId]

def lockMessage : VersionedMessage :=
  .legacy lockStaticKeys
    [compiledApproval 5 keypers.first (lockPayload.digest sha256),
      compiledApproval 5 keypers.third (lockPayload.digest sha256),
      ⟨6, [0, 1, 2, 3, 4], lockCall.encode⟩]

def settlementStaticKeys : List Pubkey :=
  [payer, pool, epoch, vaultAuthority, baseVault, quoteVault, venueAuthority, venueBase, venueQuote,
    baseMint, quoteMint, tokenProgramId, instructionsId, clockId, ed25519ProgramId, programId]

def settlementMessage (lookups : List AddressTableLookup) : VersionedMessage :=
  .v0 settlementStaticKeys
    [compiledApproval 14 keypers.second (settlementPayload.digest sha256),
      compiledApproval 14 keypers.third (settlementPayload.digest sha256),
      ⟨15, [0, 1, 2, 3, 4, 5, 6, 7, 8, 9, 10, 11, 12, 13], settleCall.encode⟩] lookups

def succeeded (inner : List UiInnerInstructions) : UiTransactionStatusMeta :=
  ⟨none, .ok (), .some inner⟩

def confirmedLock : ConfirmedTransaction := ⟨some (succeeded []), some lockMessage⟩

/-- The pool pays two hundred of quote and receives twenty of base. -/
def settlementInner : List UiInnerInstructions :=
  [⟨2, [.compiled 11 [5, 10, 8, 3] "quote", .compiled 11 [7, 9, 4, 6] "base"]⟩]

def confirmedSettlement (lookups : List AddressTableLookup) : ConfirmedTransaction :=
  ⟨some (succeeded settlementInner), some (settlementMessage lookups)⟩

/-- A table with the wallet of a participant. -/
def tables (_ : Pubkey) : List Pubkey := [key 60]

def walletLookup : AddressTableLookup := ⟨key 50, [0], []⟩

/-- What the observer says to the sample settlement, and that it does not know the wallet. -/
theorem observed_facts :
    (PublicTrace.fromConfirmedKageb rpcLibrary confirmedLock (confirmedSettlement [])
      observed).toOption.isSome ∧ key 60 ∉ observed.settlementKeys := by
  decide +kernel

end Sample

/-- The observer accepts the sample settlement, whatever it looks up. -/
theorem Sample.settlement_accepted (lookups : List AddressTableLookup) :
    (PublicTrace.fromConfirmedKageb rpcLibrary confirmedLock (confirmedSettlement lookups)
      observed).toOption.isSome := by
  have hdecoded : decodeConfirmed (confirmedSettlement lookups) =
      decodeConfirmed (confirmedSettlement []) := rfl
  have haccepted := observed_facts.1
  unfold PublicTrace.fromConfirmedKageb at haccepted ⊢
  rw [hdecoded]
  exact haccepted

theorem nothing_attached_static : NothingAttached Sample.rpcLibrary Sample.confirmedLock
    (Sample.confirmedSettlement []) Sample.observed Sample.lockStaticKeys
    Sample.settlementStaticKeys := by
  have haccepted := eq_ok_of_isSome ⟨[]⟩ (Sample.settlement_accepted [])
  have hlock : Sample.confirmedLock.Loads Sample.tables Sample.lockStaticKeys := ⟨_, rfl, rfl⟩
  have hsettlement : (Sample.confirmedSettlement []).Loads Sample.tables
      Sample.settlementStaticKeys := ⟨_, rfl, rfl⟩
  refine (nothing_attached_iff haccepted hlock hsettlement).mpr ⟨?_, ?_⟩
  · rintro m ⟨⟩
    rfl
  · rintro m ⟨⟩
    rfl

/-- A settlement that looks up the wallet of a participant is accepted. -/
theorem wallet_attached :
    (∃ trace, PublicTrace.fromConfirmedKageb Sample.rpcLibrary Sample.confirmedLock
      (Sample.confirmedSettlement [Sample.walletLookup]) Sample.observed = .ok trace) ∧
    ∃ loads, (Sample.confirmedSettlement [Sample.walletLookup]).Loads Sample.tables loads ∧
      Sample.key 60 ∈ loads ∧ Sample.key 60 ∉ Sample.observed.settlementKeys := by
  exact ⟨⟨_, eq_ok_of_isSome ⟨[]⟩ (Sample.settlement_accepted _)⟩,
    Sample.settlementStaticKeys ++ [Sample.key 60], ⟨_, rfl, rfl⟩, by simp,
    Sample.observed_facts.2⟩

end Kageb
