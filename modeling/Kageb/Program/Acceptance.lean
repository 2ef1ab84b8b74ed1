import Kageb.Program.Layout
import Kageb.Program.Quorum

/-! The instructions that a client builds, and what it takes for the program to accept a lock or a
settlement: the converse of what a successful one says. -/

namespace Kageb

open Binary Binary.Codec Checks

/-- `AccountMeta::new`. -/
def AccountMeta.new (key : Pubkey) (isSigner : Bool) : AccountMeta := ⟨key, isSigner, true⟩

def AccountMeta.newReadonly (key : Pubkey) (isSigner : Bool) : AccountMeta := ⟨key, isSigner, false⟩

def lockInstruction (payer pool epoch : Pubkey) (payload : LockPayloadV1) : Instruction where
  programId := programId
  accounts :=
    [.newReadonly payer true, .newReadonly pool false, .new epoch false,
      .newReadonly instructionsId false, .newReadonly clockId false]
  data := (KagebInstruction.lock payload).encode

structure SettleAccounts where
  payer : Pubkey
  pool : Pubkey
  epoch : Pubkey
  vaultAuthority : Pubkey
  poolBaseVault : Pubkey
  poolQuoteVault : Pubkey
  venueAuthority : Pubkey
  venueBaseAccount : Pubkey
  venueQuoteAccount : Pubkey
  baseMint : Pubkey
  quoteMint : Pubkey
  deriving DecidableEq

def settleInstruction (a : SettleAccounts) (payload : SettlementPayloadV1) : Instruction where
  programId := programId
  accounts :=
    [.newReadonly a.payer true, .newReadonly a.pool false, .new a.epoch false,
      .newReadonly a.vaultAuthority false, .new a.poolBaseVault false, .new a.poolQuoteVault false,
      .newReadonly a.venueAuthority true, .new a.venueBaseAccount false,
      .new a.venueQuoteAccount false, .newReadonly a.baseMint false, .newReadonly a.quoteMint false,
      .newReadonly tokenProgramId false, .newReadonly instructionsId false,
      .newReadonly clockId false]
  data := (KagebInstruction.settle (.ofPayload payload)).encode

/-- The program runs the instruction. -/
def Runtime.run (rt : Runtime) (tx : InstructionsSysvar) (c : Chain) (i : Instruction) :
    Except ProgramError Chain :=
  rt.processInstruction tx c i.programId i.accounts i.data

/-- Instructions of two different configured keypers that approve `digest`, in front of the running
one. -/
def TwoApprove (tx : InstructionsSysvar) (keypers : Keypers) (digest : Bytes32) : Prop :=
  ∃ k₁ ∈ keypers.toList, ∃ k₂ ∈ keypers.toList, k₁ ≠ k₂ ∧
    (∃ i ∈ tx.preceding, approves digest k₁ i = true) ∧
    ∃ i ∈ tx.preceding, approves digest k₂ i = true

theorem TwoApprove.count {tx : InstructionsSysvar} {keypers : Keypers} {digest : Bytes32}
    (h : TwoApprove tx keypers digest) :
    ∃ count, countPrecedingKeypers tx keypers digest = .ok count ∧ 2 ≤ count := by
  obtain ⟨k₁, hk₁, k₂, hk₂, hne, happroves₁, happroves₂⟩ := h
  refine ⟨_, countPrecedingKeypers_eq tx keypers digest, ?_⟩
  have hle := card_approvers_le tx.preceding keypers digest
  have hcard : 1 < (approvers tx.preceding keypers digest).card :=
    Finset.one_lt_card.mpr ⟨k₁, mem_approvers.mpr ⟨hk₁, happroves₁⟩, k₂,
      mem_approvers.mpr ⟨hk₂, happroves₂⟩, hne⟩
  rw [countMatchingKeypers_eq, UInt8.le_iff_toNat_le,
    UInt8.toNat_ofNat_of_lt' (lt_of_le_of_lt hle (by decide))]
  exact hcard

section

variable {rt : Runtime} {tx : InstructionsSysvar} {c : Chain} {payer pool epoch : Pubkey}
  {p : PoolStateV1} {e : EpochStateV1}

theorem requireAccountFlags_eq {k : Pubkey} {x : Bool} (s w : Bool) (h : (c k).executable = x) :
    requireAccountFlags (c.info ⟨k, s, w⟩) s w x = .ok () := by
  simp only [requireAccountFlags, bind_ok, Unique.exists_iff, rejectIf_eq_ok]
  exact ⟨by simp [Chain.info], by simp [Chain.info, h]⟩

theorem requireProgramAccount_eq {m : AccountMeta} {data : Bytes}
    (howner : (c m.key).owner = programId) (hdata : (c m.key).data = data)
    (hlength : data.length = stateLen) (hplain : (c m.key).executable = false) :
    requireProgramAccount (c.info m) programId = .ok () := by
  simp only [requireProgramAccount, rejectIf_eq_ok]
  simp [Chain.info, howner, hdata, hlength, hplain]

theorem requireDistinct_eq {infos : List AccountInfo} (h : (infos.map (·.key)).Nodup) :
    requireDistinct infos = .ok () :=
  rejectIf_eq_ok.mpr (not_not.mpr h)

theorem clockFromAccountInfo_eq {s w : Bool} {clock : Clock}
    (h : rt.deserializeClock (c clockId).data = some clock) :
    rt.clockFromAccountInfo (c.info ⟨clockId, s, w⟩) = .ok clock := by
  simp only [Runtime.clockFromAccountInfo, bind_ok, Unique.exists_iff, rejectIf_eq_ok, okOr_eq_ok]
  exact ⟨by simp [Chain.info], h⟩

/-- The accounts of an instruction on an epoch, as the runtime passes them on. -/
structure Chain.Plain (c : Chain) (keys : List Pubkey) : Prop where
  distinct : keys.Nodup
  data : ∀ k ∈ keys, (c k).executable = false

theorem Runtime.run_lock (payload : LockPayloadV1) :
    rt.run tx c (lockInstruction payer pool epoch payload) =
      rt.lock tx c (lockInstruction payer pool epoch payload).accounts payload := by
  unfold Runtime.run Runtime.processInstruction
  rw [rejectIf_bind_of_not (by simp [lockInstruction]),
    show (lockInstruction payer pool epoch payload).data = (KagebInstruction.lock payload).encode
      from rfl, KagebInstruction.decode_encode]
  rfl

theorem Runtime.run_settle (a : SettleAccounts) (payload : SettlementPayloadV1) :
    rt.run tx c (settleInstruction a payload) =
      rt.settleCompact tx c (settleInstruction a payload).accounts (.ofPayload payload) := by
  unfold Runtime.run Runtime.processInstruction
  rw [rejectIf_bind_of_not (by simp [settleInstruction]),
    show (settleInstruction a payload).data = (KagebInstruction.settle (.ofPayload payload)).encode
      from rfl, KagebInstruction.decode_encode]
  rfl

/-- A lock that meets what a successful one says is accepted. -/
theorem LockAccepted.run {payload : LockPayloadV1} (h : LockAccepted rt tx c epoch p e payload)
    (hnamed : rt.Named c pool epoch p e)
    (hplain : c.Plain [payer, pool, epoch, instructionsId, clockId]) :
    rt.run tx c (lockInstruction payer pool epoch payload) =
      .ok (c.write epoch (e.withLock payload (payload.digest rt.sha256)).encode) := by
  obtain ⟨clock, hclock, htime⟩ := h.clock
  obtain ⟨count, hcount, hquorum⟩ := h.quorum
  have hexec := hplain.data
  simp only [List.forall_mem_cons, List.not_mem_nil, IsEmpty.forall_iff, implies_true, and_true]
    at hexec
  obtain ⟨hpayer, hpool, hepoch, hinstructions, hclockAccount⟩ := hexec
  rw [Runtime.run_lock]
  simp only [lockInstruction, AccountMeta.new, AccountMeta.newReadonly, Runtime.lock,
    List.map_cons, List.map_nil, bind_ok, Unique.exists_iff]
  refine ⟨requireAccountFlags_eq _ _ hpayer, requireAccountFlags_eq _ _ hpool,
    requireAccountFlags_eq _ _ hepoch, requireAccountFlags_eq _ _ hinstructions,
    requireAccountFlags_eq _ _ hclockAccount, requireDistinct_eq hplain.distinct,
    requireProgramAccount_eq hnamed.poolAt.1 hnamed.poolAt.2 p.encode_length hpool,
    requireProgramAccount_eq hnamed.epochAt.1 hnamed.epochAt.2 e.encode_length hepoch, ?_, p,
    PoolStateV1.decode_eq_ok.mpr hnamed.poolAt.2,
    Runtime.validatePoolState_ok.mpr hnamed.poolValid, e,
    EpochStateV1.decode_eq_ok.mpr hnamed.epochAt.2,
    Runtime.validateEpochState_ok.mpr hnamed.epochValid, ?_, clock, clockFromAccountInfo_eq hclock,
    ?_, ?_, ?_, count, hcount, ?_, rfl⟩
  · simp [Chain.info]
  · simp [h.terminalState]
  · simpa using htime
  · simp [Chain.info, h.epochAccount, h.configurationHash, h.lockDeadline, h.lockNonce,
      h.preBalanceRoot, h.memberRoot]
  · simpa using h.memberCount
  · simpa using hquorum

/-! ### Settlements -/

/-- One call of `transfer_checked`. The authority has signed the transaction, or the program signs
for it. -/
structure Transfer where
  source : Pubkey
  mint : Pubkey
  destination : Pubkey
  authority : Pubkey
  amount : UInt64
  signed : Bool
  deriving DecidableEq

def Runtime.issue (rt : Runtime) (seeds : List Bytes) (c : Chain) (t : Transfer) :
    Except ProgramError Chain :=
  rt.invoke c (.transferChecked t.source t.mint t.destination t.authority t.amount 0)
    [.new t.source false, .newReadonly t.mint false, .new t.destination false,
      .newReadonly t.authority t.signed, .newReadonly tokenProgramId false]
    (if t.signed then none else some seeds)

/-- The transfers of a settlement, in the order in which the program issues them. -/
def settlementTransfers (a : SettleAccounts) (side : UInt8) (base quote : UInt64) :
    List Transfer :=
  if side = 1 then
    [⟨a.poolQuoteVault, a.quoteMint, a.venueQuoteAccount, a.vaultAuthority, quote, false⟩,
      ⟨a.venueBaseAccount, a.baseMint, a.poolBaseVault, a.venueAuthority, base, true⟩]
  else if side = 2 then
    [⟨a.poolBaseVault, a.baseMint, a.venueBaseAccount, a.vaultAuthority, base, false⟩,
      ⟨a.venueQuoteAccount, a.quoteMint, a.poolQuoteVault, a.venueAuthority, quote, true⟩]
  else []

/-- The seeds of the vault authority of a pool. -/
def vaultSeeds (pool : Pubkey) (p : PoolStateV1) : List Bytes :=
  [[118, 97, 117, 108, 116], pool.bytes, [p.vaultBump]]

/-- The accounts that a pool names for its settlements. -/
def Runtime.settleAccounts (rt : Runtime) (payer pool epoch : Pubkey) (p : PoolStateV1) :
    SettleAccounts where
  payer := payer
  pool := pool
  epoch := epoch
  vaultAuthority := (rt.vaultAuthorityAddress pool).1
  poolBaseVault := p.poolBaseVault
  poolQuoteVault := p.poolQuoteVault
  venueAuthority := p.venueAuthority
  venueBaseAccount := p.venueBaseAccount
  venueQuoteAccount := p.venueQuoteAccount
  baseMint := p.baseMint
  quoteMint := p.quoteMint

structure Chain.MintAt (c : Chain) (key : Pubkey) : Prop where
  owner : (c key).owner = tokenProgramId
  length : (c key).data.length = 82
  decimals : (c key).data[44]? = some 0
  initialized : (c key).data[45]? = some 1

/-- A settlement meets every check but those of its residual. -/
structure SettleReady (rt : Runtime) (tx : InstructionsSysvar) (c : Chain)
    (payer pool epoch : Pubkey) (p : PoolStateV1) (e : EpochStateV1)
    (compact : CompactSettlementPayload) : Prop where
  named : rt.Named c pool epoch p e
  tokens : rt.TokensValid c pool p
  baseMint : c.MintAt p.baseMint
  quoteMint : c.MintAt p.quoteMint
  plain : c.Plain [payer, pool, epoch, (rt.vaultAuthorityAddress pool).1, p.poolBaseVault,
    p.poolQuoteVault, p.venueAuthority, p.venueBaseAccount, p.venueQuoteAccount, p.baseMint,
    p.quoteMint, instructionsId, clockId]
  tokenProgram : (c tokenProgramId).executable = true
  locked : e.terminalState = .locked
  clock : ∃ clock, rt.deserializeClock (c clockId).data = some clock ∧
    clock.unixTimestamp ≤ e.abortDeadline
  resultCommitment : compact.resultCommitment ≠ zero32
  settlementNonce : compact.settlementNonce ≠ zero32
  freshNonce : compact.settlementNonce ≠ e.lockNonce
  quorum : ∃ count, countPrecedingKeypers tx p.keypers
      ((Runtime.rebuildSettlement epoch p e compact).digest rt.sha256) = .ok count ∧
    p.settlementThreshold ≤ count

theorem validateMint_eq {k : Pubkey} {s w : Bool} (h : c.MintAt k)
    (hplain : (c k).executable = false) : validateMint (c.info ⟨k, s, w⟩) = .ok () := by
  simp only [validateMint, rejectIf_eq_ok, Chain.info, h.owner, h.length, h.decimals,
    h.initialized, hplain]
  simp

theorem validateTokenAccount_eq {k mint authority : Pubkey} {s w : Bool}
    (h : c.TokenAt k mint authority) :
    validateTokenAccount (c.info ⟨k, s, w⟩) mint authority = .ok () := by
  simp only [validateTokenAccount, rejectIf_eq_ok, Chain.info, h.owner, h.executable, h.length,
    h.mint, h.authority, h.initialized]
  simp

theorem validResidual_side {side : UInt8} {lots : UInt32} (h : validResidual side lots = true) :
    side = 0 ∨ side = 1 ∨ side = 2 := by
  simp only [validResidual, Bool.or_eq_true, Bool.and_eq_true, decide_eq_true_eq] at h
  tauto

/-- What the program makes of a residual, once everything else is in order. -/
def Runtime.settleResidual (rt : Runtime) (c : Chain) (a : SettleAccounts) (p : PoolStateV1)
    (e : EpochStateV1) (compact : CompactSettlementPayload) : Except ProgramError Chain := do
  rejectIf (validResidual compact.residualSide compact.residualLots = false)
    KagebError.invalidSettlement
  let base ← okOr (checkedMul e.baseLotAtoms compact.residualLots.toUInt64)
    (KagebError.arithmeticOverflow : ProgramError)
  let quote ← okOr (checkedMul e.quoteAtomsPerLot compact.residualLots.toUInt64)
    (KagebError.arithmeticOverflow : ProgramError)
  let moved ← (settlementTransfers a compact.residualSide base quote).foldlM
    (rt.issue (vaultSeeds a.pool p)) c
  .ok (moved.write a.epoch (e.withSettlement compact
    ((Runtime.rebuildSettlement a.epoch p e compact).digest rt.sha256)).encode)

theorem SettleReady.run {payload : SettlementPayloadV1}
    (h : SettleReady rt tx c payer pool epoch p e (.ofPayload payload)) :
    rt.run tx c (settleInstruction (rt.settleAccounts payer pool epoch p) payload) =
      rt.settleResidual c (rt.settleAccounts payer pool epoch p) p e (.ofPayload payload) := by
  rw [Runtime.run_settle]
  simp only [settleInstruction]
  generalize CompactSettlementPayload.ofPayload payload = compact at h ⊢
  obtain ⟨clock, hclock, htime⟩ := h.clock
  obtain ⟨count, hcount, hquorum⟩ := h.quorum
  have hexec := h.plain.data
  simp only [List.forall_mem_cons, List.not_mem_nil, IsEmpty.forall_iff, implies_true, and_true]
    at hexec
  obtain ⟨hpayer, hpool, hepoch, hauthority, hbaseVault, hquoteVault, hvenue, hvenueBase,
    hvenueQuote, hbaseMint, hquoteMint, hinstructions, hclockAccount⟩ := hexec
  have hpoolData := PoolStateV1.decode_eq_ok.mpr h.named.poolAt.2
  have hepochData := EpochStateV1.decode_eq_ok.mpr h.named.epochAt.2
  have hdistinct : [payer, pool, epoch, (rt.vaultAuthorityAddress pool).1, p.poolBaseVault,
      p.poolQuoteVault, p.venueAuthority, p.venueBaseAccount, p.venueQuoteAccount, p.baseMint,
      p.quoteMint, tokenProgramId, instructionsId, clockId].Nodup := by
    have htoken : tokenProgramId ∉ [payer, pool, epoch, (rt.vaultAuthorityAddress pool).1,
        p.poolBaseVault, p.poolQuoteVault, p.venueAuthority, p.venueBaseAccount,
        p.venueQuoteAccount, p.baseMint, p.quoteMint, instructionsId, clockId] := fun hmem =>
      Bool.noConfusion (h.tokenProgram.symm.trans (h.plain.data _ hmem))
    exact (@List.nodup_middle _ _ [_, _, _, _, _, _, _, _, _, _, _] _).mpr
      (List.nodup_cons.mpr ⟨htoken, h.plain.distinct⟩)
  simp only [AccountMeta.new, AccountMeta.newReadonly, Runtime.settleCompact,
    Runtime.settleAccounts]
  refine (bind_of_ok hpoolData _).trans ?_
  refine (bind_of_ok hepochData _).trans ?_
  simp only [Runtime.settle, List.map_cons, List.map_nil]
  refine (bind_of_ok (requireAccountFlags_eq _ _ hpayer) _).trans ?_
  refine (bind_of_ok (requireAccountFlags_eq _ _ hpool) _).trans ?_
  refine (bind_of_ok (requireAccountFlags_eq _ _ hepoch) _).trans ?_
  refine (bind_of_ok (requireAccountFlags_eq _ _ hauthority) _).trans ?_
  refine (bind_of_ok (requireAccountFlags_eq _ _ hbaseVault) _).trans ?_
  refine (bind_of_ok (requireAccountFlags_eq _ _ hquoteVault) _).trans ?_
  refine (bind_of_ok (requireAccountFlags_eq _ _ hvenueBase) _).trans ?_
  refine (bind_of_ok (requireAccountFlags_eq _ _ hvenueQuote) _).trans ?_
  refine (bind_of_ok (requireAccountFlags_eq _ _ hvenue) _).trans ?_
  refine (bind_of_ok (requireAccountFlags_eq _ _ hbaseMint) _).trans ?_
  refine (bind_of_ok (requireAccountFlags_eq _ _ hquoteMint) _).trans ?_
  refine (bind_of_ok (requireAccountFlags_eq _ _ h.tokenProgram) _).trans ?_
  refine (bind_of_ok (requireAccountFlags_eq _ _ hinstructions) _).trans ?_
  refine (bind_of_ok (requireAccountFlags_eq _ _ hclockAccount) _).trans ?_
  refine (bind_of_ok (requireDistinct_eq (by exact hdistinct)) _).trans ?_
  refine (bind_of_ok (requireProgramAccount_eq h.named.poolAt.1 h.named.poolAt.2 p.encode_length
    hpool) _).trans ?_
  refine (bind_of_ok (requireProgramAccount_eq h.named.epochAt.1 h.named.epochAt.2 e.encode_length
    hepoch) _).trans ?_
  refine (rejectIf_bind_of_not (by simp [Chain.info, h.tokenProgram])).trans ?_
  refine (bind_of_ok (clockFromAccountInfo_eq hclock) _).trans ?_
  refine (bind_of_ok hpoolData _).trans ?_
  refine (bind_of_ok (Runtime.validatePoolState_ok.mpr h.named.poolValid) _).trans ?_
  refine (bind_of_ok hepochData _).trans ?_
  refine (bind_of_ok (Runtime.validateEpochState_ok.mpr h.named.epochValid) _).trans ?_
  refine (rejectIf_bind_of_not (by simp [h.locked])).trans ?_
  refine (rejectIf_bind_of_not (by simpa using htime)).trans ?_
  refine (rejectIf_bind_of_not (by simp [Chain.info, h.named.poolValid.vaultBump])).trans ?_
  refine (rejectIf_bind_of_not (by simp [Chain.info])).trans ?_
  refine (bind_of_ok (validateMint_eq h.baseMint hbaseMint) _).trans ?_
  refine (bind_of_ok (validateMint_eq h.quoteMint hquoteMint) _).trans ?_
  refine (bind_of_ok (validateTokenAccount_eq h.tokens.baseVault) _).trans ?_
  refine (bind_of_ok (validateTokenAccount_eq h.tokens.quoteVault) _).trans ?_
  refine (bind_of_ok (validateTokenAccount_eq h.tokens.venueBase) _).trans ?_
  refine (bind_of_ok (validateTokenAccount_eq h.tokens.venueQuote) _).trans ?_
  simp only [Runtime.settleResidual]
  by_cases hresidual : validResidual compact.residualSide compact.residualLots = false
  · refine (rejectIf_bind_of (by simp [Runtime.rebuildSettlement, hresidual])).trans ?_
    exact (rejectIf_bind_of hresidual).symm
  · refine (rejectIf_bind_of_not ?_).trans ?_
    · simpa [Runtime.rebuildSettlement, Chain.info] using
        ⟨h.resultCommitment, h.settlementNonce, h.freshNonce, by simpa using hresidual⟩
    refine (bind_of_ok hcount _).trans ?_
    refine (rejectIf_bind_of_not (by simpa using hquorum)).trans ?_
    refine Eq.trans ?_ (rejectIf_bind_of_not hresidual).symm
    congr 1
    funext base
    congr 1
    funext quote
    refine congrArg (· >>= _) ?_
    rw [show (Runtime.rebuildSettlement epoch p e compact).residualSide = compact.residualSide
      from rfl]
    rcases validResidual_side (Bool.not_eq_false _ ▸ hresidual) with hside | hside | hside
    · rw [hside, if_pos rfl]
      rfl
    · rw [hside, if_neg (by decide), if_pos rfl]
      exact bind_congr fun _ => (bind_pure _).symm
    · rw [hside, if_neg (by decide), if_neg (by decide), if_pos rfl]
      exact bind_congr fun _ => (bind_pure _).symm

/-! ### Transfers that go through -/

inductive TokenAccountState where
  | uninitialized
  | initialized
  | frozen
  deriving DecidableEq

/-- The fields of a token account that are read. -/
structure TokenAccount where
  mint : Pubkey
  owner : Pubkey
  state : TokenAccountState
  deriving DecidableEq

/-- The fields of a mint that are read. -/
structure Mint where
  decimals : UInt8
  mintAuthority : Option Pubkey
  freezeAuthority : Option Pubkey
  deriving DecidableEq

/-- `Account::unpack` and `Mint::unpack` of the token library. -/
structure TokenLibrary where
  unpackAccount : Bytes → Option TokenAccount
  unpackMint : Bytes → Option Mint

/-- Both accounts of a transfer are of its mint, and the source has the amount. An authority that
the token program owns could be a multisignature account, which needs other signers. -/
structure Chain.CanTransfer (c : Chain) (token : TokenLibrary) (t : Transfer)
    (receiver : Pubkey) : Prop where
  ne : t.source ≠ t.destination
  source : c.TokenAt t.source t.mint t.authority
  destination : c.TokenAt t.destination t.mint receiver
  mint : c.MintAt t.mint
  sourceUnpacks : (token.unpackAccount (c t.source).data).isSome
  destinationUnpacks : (token.unpackAccount (c t.destination).data).isSome
  mintUnpacks : (token.unpackMint (c t.mint).data).isSome
  authority : (c t.authority).owner ≠ tokenProgramId
  funds : t.amount.toNat ≤ c.tokenAmount t.source
  fits : c.tokenAmount t.destination + t.amount.toNat < 2 ^ 64

/-- The authority of a transfer signed the transaction, or its address is that of the seeds. -/
def Runtime.SignsFor (rt : Runtime) (seeds : List Bytes) (t : Transfer) : Prop :=
  t.signed = true ∨
    ∃ path bump, seeds = path ++ [[bump]] ∧ rt.findProgramAddress path programId = (t.authority, bump)

/-- What the program relies on the token program to accept. -/
def Runtime.Transfers (rt : Runtime) (token : TokenLibrary) : Prop :=
  ∀ c seeds t receiver, Chain.CanTransfer c token t receiver → rt.SignsFor seeds t →
    ∃ c', rt.issue seeds c t = .ok c'

theorem Chain.TokenAt.congr {c' : Chain} {k mint authority : Pubkey}
    (h : c.TokenAt k mint authority) (hsame : (c' k).SameRecord (c k)) :
    c'.TokenAt k mint authority := by
  obtain ⟨howner, hexecutable, hdata⟩ := hsame
  exact ⟨howner ▸ h.owner, hexecutable ▸ h.executable, hdata ▸ h.length, hdata ▸ h.mint,
    hdata ▸ h.authority, hdata ▸ h.initialized⟩

theorem Chain.CanTransfer.congr {c' : Chain} {token : TokenLibrary} {t : Transfer}
    {receiver : Pubkey} (h : c.CanTransfer token t receiver)
    (hsame : ∀ k ∈ [t.source, t.mint, t.destination, t.authority], (c' k).SameRecord (c k)) :
    c'.CanTransfer token t receiver := by
  simp only [List.forall_mem_cons, List.not_mem_nil, IsEmpty.forall_iff, implies_true, and_true]
    at hsame
  obtain ⟨hsource, hmint, hdestination, hauthority⟩ := hsame
  obtain ⟨howner, -, hdata⟩ := hmint
  refine ⟨h.ne, h.source.congr hsource, h.destination.congr hdestination,
    ⟨howner ▸ h.mint.owner, hdata ▸ h.mint.length, hdata ▸ h.mint.decimals,
      hdata ▸ h.mint.initialized⟩, hsource.2.2 ▸ h.sourceUnpacks,
    hdestination.2.2 ▸ h.destinationUnpacks, hdata ▸ h.mintUnpacks, hauthority.1 ▸ h.authority, ?_,
    ?_⟩
  · rw [Chain.tokenAmount_congr hsource]
    exact h.funds
  · rw [Chain.tokenAmount_congr hdestination]
    exact h.fits

theorem Chain.TokenAt.ne_of_mint {k k' mint mint' authority authority' : Pubkey}
    (h : c.TokenAt k mint authority) (h' : c.TokenAt k' mint' authority') (hne : mint ≠ mint') :
    k ≠ k' := by
  rintro rfl
  exact hne (ByteVec.ext (h.mint.symm.trans h'.mint))

theorem Chain.TokenAt.ne_mintAt {k k' mint authority : Pubkey} (h : c.TokenAt k mint authority)
    (h' : c.MintAt k') : k' ≠ k := by
  rintro rfl
  exact absurd (h.length.symm.trans h'.length) (by decide)

/-- A transfer leaves a transfer of another mint possible. -/
theorem Chain.CanTransfer.kept {c' : Chain} {token : TokenLibrary} {t u : Transfer}
    {receiver receiver' : Pubkey} (h : c.CanTransfer token t receiver)
    (h' : c.CanTransfer token u receiver') (hmint : u.mint ≠ t.mint)
    (hmoves : c.Moves t.source t.destination t.amount.toNat c') :
    c'.CanTransfer token u receiver' := by
  have hauthority : ∀ {k mint authority}, c.TokenAt k mint authority → u.authority ≠ k := by
    rintro k mint authority hat rfl
    exact h'.authority hat.owner
  refine h'.congr ?_
  simp only [List.forall_mem_cons, List.not_mem_nil, IsEmpty.forall_iff, implies_true, and_true]
  refine ⟨hmoves.frame _ ?_ ?_, hmoves.frame _ ?_ ?_, hmoves.frame _ ?_ ?_, hmoves.frame _ ?_ ?_⟩
  · exact h'.source.ne_of_mint h.source hmint
  · exact h'.source.ne_of_mint h.destination hmint
  · exact h.source.ne_mintAt h'.mint
  · exact h.destination.ne_mintAt h'.mint
  · exact h'.destination.ne_of_mint h.source hmint
  · exact h'.destination.ne_of_mint h.destination hmint
  · exact hauthority h.source
  · exact hauthority h.destination

/-- Transfers of different mints all go through if each one can. -/
theorem Runtime.issue_all (lawful : rt.Lawful) {token : TokenLibrary}
    (transfers : rt.Transfers token) {seeds : List Bytes} {ts : List Transfer}
    (hmints : ts.Pairwise fun t u => u.mint ≠ t.mint)
    (h : ∀ t ∈ ts, rt.SignsFor seeds t ∧ ∃ receiver, c.CanTransfer token t receiver) :
    ∃ c', ts.foldlM (rt.issue seeds) c = .ok c' ∧ ∀ k, (c' k).SameButAmount (c k) := by
  induction ts generalizing c with
  | nil => exact ⟨c, rfl, fun k => (Account.SameRecord.refl (c k)).sameButAmount⟩
  | cons t ts ih =>
    obtain ⟨hmint, hrest⟩ := List.pairwise_cons.mp hmints
    obtain ⟨hsigns, receiver, hcan⟩ := h t List.mem_cons_self
    obtain ⟨mid, hmid⟩ := transfers c seeds t receiver hcan hsigns
    have hmoves := lawful.moves hmid hcan.ne
    have hnext : ∀ u ∈ ts, rt.SignsFor seeds u ∧ ∃ receiver, mid.CanTransfer token u receiver := by
      intro u hu
      obtain ⟨hsigns', receiver', hcan'⟩ := h u (List.mem_cons_of_mem _ hu)
      exact ⟨hsigns', receiver', hcan.kept hcan' (hmint u hu) hmoves⟩
    obtain ⟨c', hc', hshape⟩ := ih hrest hnext
    refine ⟨c', ?_, fun k => (hshape k).trans (hmoves.shape k)⟩
    rw [List.foldlM_cons, hmid]
    exact hc'

/-- The accounts of a pool's tokens are in order, and the tokens of each mint are within the supply
that the token program keeps. -/
structure Runtime.TokensUsable (rt : Runtime) (token : TokenLibrary) (c : Chain) (pool : Pubkey)
    (p : PoolStateV1) : Prop where
  accounts : ∀ k ∈ [p.poolBaseVault, p.poolQuoteVault, p.venueBaseAccount, p.venueQuoteAccount],
    (token.unpackAccount (c k).data).isSome
  mints : ∀ k ∈ [p.baseMint, p.quoteMint], (token.unpackMint (c k).data).isSome
  authorities : ∀ k ∈ [(rt.vaultAuthorityAddress pool).1, p.venueAuthority],
    (c k).owner ≠ tokenProgramId
  baseSupply : c.tokenAmount p.poolBaseVault + c.tokenAmount p.venueBaseAccount < 2 ^ 64
  quoteSupply : c.tokenAmount p.poolQuoteVault + c.tokenAmount p.venueQuoteAccount < 2 ^ 64

/-- Every source of a settlement's transfers holds what leaves it. -/
def Chain.Funds (c : Chain) (ts : List Transfer) : Prop :=
  ∀ t ∈ ts, t.amount.toNat ≤ c.tokenAmount t.source

theorem Runtime.PoolValid.signsFor (h : rt.PoolValid pool p) {t : Transfer}
    (hauthority : t.authority = (rt.vaultAuthorityAddress pool).1) :
    rt.SignsFor (vaultSeeds pool p) t := by
  refine Or.inr ⟨[[118, 97, 117, 108, 116], pool.bytes], p.vaultBump, rfl, ?_⟩
  rw [hauthority, h.vaultBump]
  rfl

theorem settlementTransfers_mints {a : SettleAccounts} (hmints : a.baseMint ≠ a.quoteMint)
    (side : UInt8) (base quote : UInt64) :
    (settlementTransfers a side base quote).Pairwise fun t u => u.mint ≠ t.mint := by
  unfold settlementTransfers
  split_ifs <;> simp [hmints, hmints.symm]

theorem Runtime.TokensUsable.can (h : rt.PoolValid pool p) {token : TokenLibrary}
    (hvalid : rt.TokensValid c pool p) (hbaseMint : c.MintAt p.baseMint)
    (hquoteMint : c.MintAt p.quoteMint) (husable : rt.TokensUsable token c pool p) {side : UInt8}
    {base quote : UInt64}
    (hfunds : c.Funds (settlementTransfers (rt.settleAccounts payer pool epoch p) side base quote)) :
    ∀ t ∈ settlementTransfers (rt.settleAccounts payer pool epoch p) side base quote,
      rt.SignsFor (vaultSeeds pool p) t ∧ ∃ receiver, c.CanTransfer token t receiver := by
  obtain ⟨accounts, mints, authorities, hbaseSupply, hquoteSupply⟩ := husable
  have hdistinct := hvalid.distinct
  simp only [List.forall_mem_cons, List.not_mem_nil, IsEmpty.forall_iff, implies_true, and_true]
    at accounts mints authorities
  simp only [List.nodup_cons, List.mem_cons, List.not_mem_nil, or_false, not_or] at hdistinct
  obtain ⟨hbaseVault, hquoteVault, hvenueBase, hvenueQuote⟩ := accounts
  obtain ⟨⟨-, hbases, -⟩, ⟨-, hquotes⟩, -⟩ := hdistinct
  unfold settlementTransfers at hfunds ⊢
  split_ifs at hfunds ⊢ with hbuy hsell
  · -- the pool pays with quote and receives base
    have hpays := hfunds _ List.mem_cons_self
    have hreceives := hfunds _ (List.mem_cons_of_mem _ List.mem_cons_self)
    simp only [Runtime.settleAccounts, List.forall_mem_cons, List.not_mem_nil, IsEmpty.forall_iff,
      implies_true, and_true] at hpays hreceives ⊢
    refine ⟨⟨h.signsFor rfl, p.venueAuthority, ⟨hquotes, hvalid.quoteVault, hvalid.venueQuote,
      hquoteMint, hquoteVault, hvenueQuote, mints.2, authorities.1, hpays, ?_⟩⟩, ⟨.inl rfl, _,
      ⟨Ne.symm hbases, hvalid.venueBase, hvalid.baseVault, hbaseMint, hvenueBase, hbaseVault,
        mints.1, authorities.2, hreceives, ?_⟩⟩⟩
    · dsimp only at hpays ⊢
      omega
    · dsimp only at hreceives ⊢
      omega
  · have hpays := hfunds _ List.mem_cons_self
    have hreceives := hfunds _ (List.mem_cons_of_mem _ List.mem_cons_self)
    simp only [Runtime.settleAccounts, List.forall_mem_cons, List.not_mem_nil, IsEmpty.forall_iff,
      implies_true, and_true] at hpays hreceives ⊢
    refine ⟨⟨h.signsFor rfl, p.venueAuthority, ⟨hbases, hvalid.baseVault, hvalid.venueBase,
      hbaseMint, hbaseVault, hvenueBase, mints.1, authorities.1, hpays, ?_⟩⟩, ⟨.inl rfl, _,
      ⟨Ne.symm hquotes, hvalid.venueQuote, hvalid.quoteVault, hquoteMint, hvenueQuote, hquoteVault,
        mints.2, authorities.2, hreceives, ?_⟩⟩⟩
    · dsimp only at hpays ⊢
      omega
    · dsimp only at hreceives ⊢
      omega
  · exact fun t ht => absurd ht List.not_mem_nil

/-- A settlement that meets the checks and whose tokens are there is carried out. -/
theorem SettleReady.succeeds (lawful : rt.Lawful) {token : TokenLibrary}
    (transfers : rt.Transfers token) {payload : SettlementPayloadV1}
    (h : SettleReady rt tx c payer pool epoch p e (.ofPayload payload))
    (hresidual : validResidual payload.residualSide payload.residualLots = true) {base quote : UInt64}
    (hbase : checkedMul e.baseLotAtoms payload.residualLots.toUInt64 = some base)
    (hquote : checkedMul e.quoteAtomsPerLot payload.residualLots.toUInt64 = some quote)
    (husable : rt.TokensUsable token c pool p)
    (hfunds : c.Funds (settlementTransfers (rt.settleAccounts payer pool epoch p)
      payload.residualSide base quote)) :
    ∃ c', rt.run tx c (settleInstruction (rt.settleAccounts payer pool epoch p) payload) = .ok c' ∧
      c'.EpochAt epoch (e.withSettlement (.ofPayload payload)
        ((Runtime.rebuildSettlement epoch p e (.ofPayload payload)).digest rt.sha256)) := by
  obtain ⟨moved, hmoved, hshape⟩ := Runtime.issue_all lawful transfers
    (settlementTransfers_mints (a := rt.settleAccounts payer pool epoch p) h.named.poolValid.mints
      payload.residualSide base quote)
    (husable.can h.named.poolValid h.tokens h.baseMint h.quoteMint hfunds)
  refine ⟨_, ?_, .write _ ((hshape epoch).owner.trans h.named.epochAt.1)⟩
  rw [h.run]
  refine (rejectIf_bind_of_not (fun h => Bool.noConfusion (h.symm.trans hresidual))).trans ?_
  refine (bind_of_ok (okOr_eq_ok.mpr hbase) _).trans ?_
  refine (bind_of_ok (okOr_eq_ok.mpr hquote) _).trans ?_
  exact bind_of_ok hmoved _

end

/-! ### The sample market -/

instance (c : Chain) (k mint authority : Pubkey) : Decidable (c.TokenAt k mint authority) :=
  decidable_of_iff ((c k).owner = tokenProgramId ∧ (c k).executable = false ∧
      (c k).data.length = 165 ∧ slice (c k).data 0 32 = mint.bytes ∧
      slice (c k).data 32 64 = authority.bytes ∧ (c k).data[108]? = some 1)
    ⟨fun ⟨h₁, h₂, h₃, h₄, h₅, h₆⟩ => ⟨h₁, h₂, h₃, h₄, h₅, h₆⟩,
      fun h => ⟨h.owner, h.executable, h.length, h.mint, h.authority, h.initialized⟩⟩

instance (c : Chain) (k : Pubkey) : Decidable (c.MintAt k) :=
  decidable_of_iff ((c k).owner = tokenProgramId ∧ (c k).data.length = 82 ∧
      (c k).data[44]? = some 0 ∧ (c k).data[45]? = some 1)
    ⟨fun ⟨h₁, h₂, h₃, h₄⟩ => ⟨h₁, h₂, h₃, h₄⟩,
      fun h => ⟨h.owner, h.length, h.decimals, h.initialized⟩⟩

/-- The token program of the runtime that can be run accepts what it should. -/
theorem Hashes.runtime_transfers (hashes : Hashes) (token : TokenLibrary) :
    hashes.runtime.Transfers token := by
  intro c seeds t receiver hcan hsigns
  refine ⟨_, (rejectIf_bind_of_not ?_ : rejectIf _ _ >>= _ = _)⟩
  have hsigned : hashes.signs t.authority
      [.new t.source false, .newReadonly t.mint false, .new t.destination false,
        .newReadonly t.authority t.signed, .newReadonly tokenProgramId false]
      (if t.signed then none else some seeds) := by
    cases hsigned : t.signed with
    | true => exact .inl ⟨.newReadonly t.authority true, by simp, rfl, rfl⟩
    | false =>
      obtain htrue | ⟨path, bump, rfl, hpath⟩ := hsigns
      · exact absurd (hsigned.symm.trans htrue) (by decide)
      · have hbump : 255 = bump := congrArg Prod.snd hpath
        subst hbump
        exact .inr (congrArg some (congrArg Prod.fst hpath))
  have hfunds := hcan.funds
  have hfits := hcan.fits
  simp only [hcan.source.owner, hcan.destination.owner, hcan.source.length, hcan.destination.length,
    hcan.source.mint, hcan.destination.mint, hcan.mint.decimals, hcan.source.authority, hsigned,
    not_true_eq_false, ne_eq, false_or, not_or, Nat.not_lt, Nat.not_le]
  exact ⟨hfunds, hfits⟩

namespace Sample

/-- The counts and offsets in front of an approval's key, signature and digest. -/
def approvalHead : Bytes := [1, 0, 48, 0, 255, 255, 16, 0, 255, 255, 112, 0, 32, 0, 255, 255]

theorem approves_approval (keyper : Pubkey) (digest : Bytes32) :
    approves digest keyper (approval keyper digest) = true := by
  have hdata : (approval keyper digest).data =
      approvalHead ++ (keyper.bytes ++ (sign keyper.bytes digest.bytes ++ digest.bytes)) := by
    have hhead : [1, 0] ++ leBytes 2 48 ++ leBytes 2 0xffff ++ leBytes 2 16 ++ leBytes 2 0xffff ++
        leBytes 2 112 ++ leBytes 2 32 ++ leBytes 2 0xffff = approvalHead := by decide
    rw [← hhead]
    simp only [approval, List.append_assoc]
  have hword : ∀ offset value, offset + 2 ≤ 16 →
      UInt16.ofNat (leValue (slice approvalHead offset (offset + 2))) = value →
      requireU16 (approval keyper digest).data offset value = .ok () := by
    intro offset value hle hvalue
    have hhead : approvalHead.length = 16 := rfl
    have hslice : slice (approval keyper digest).data offset (offset + 2) =
        slice approvalHead offset (offset + 2) := by
      rw [hdata, slice, List.drop_append_of_le_length (by omega),
        List.take_append_of_le_length (by simp; omega), slice]
    simp only [requireU16, readU16, bind_ok, Unique.exists_iff, rejectIf_eq_ok, hslice, hvalue]
    refine ⟨value, ⟨?_, rfl⟩, by simp⟩
    rw [hdata, List.length_append]
    omega
  rw [approves_eq_true]
  unfold parseStrictEd25519
  simp only [bind_ok, Unique.exists_iff, rejectIf_eq_ok, okOr_eq_ok]
  refine ⟨?_, hword _ _ (by decide) (by decide), hword _ _ (by decide) (by decide),
    hword _ _ (by decide) (by decide), hword _ _ (by decide) (by decide),
    hword _ _ (by decide) (by decide), hword _ _ (by decide) (by decide),
    hword _ _ (by decide) (by decide), keyper, ?_, digest, ?_, rfl⟩
  · rw [hdata]
    simp [approval, approvalHead, sign, verifierDataLen]
  · rw [hdata, ← List.append_assoc, slice_append (show approvalHead.length = 16 from rfl) (by simp),
      ByteVec.ofBytes?_eq_some]
  · rw [hdata, ← List.append_assoc, ← List.append_assoc, ← List.append_nil digest.bytes,
      ← List.append_assoc, slice_append (by simp [approvalHead, sign]) (by simp),
      ByteVec.ofBytes?_eq_some]

end Sample

end Kageb
