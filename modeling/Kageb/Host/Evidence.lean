import Kageb.Host.Observer
import Kageb.Host.Rebuild
import Kageb.Host.Solvency

/-! The evidence of a settlement: the balances that a verifier compares with the residual of the
epoch. What a residual moves is worked out in four places (by the ledger for its vaults, by the
program for its transfers, by the observer for the legs that it demands and by the verifier for the
balances), and they agree wherever the two products fit in a word. -/

namespace Kageb

open Binary Checks Files Maps

/-! ### The bundle -/

inductive DevnetEvidenceError where
  | invalidPublicField
  | wrongKeyper
  | wrongTokenDelta
  | invalidTransaction
  | invalidTokenAccount
  deriving DecidableEq

/-- `Pubkey::from_str` and `Pubkey::to_string`. -/
structure KeyTexts where
  fromStr : String → Option Pubkey
  toText : Pubkey → String

def KeyTexts.parsePubkey (texts : KeyTexts) (encoded : String) :
    Except DevnetEvidenceError Pubkey :=
  okOr (texts.fromStr encoded) .invalidPublicField

structure EvidenceAccountsV1 where
  epoch : String
  vaultAuthority : String
  baseMint : String
  quoteMint : String
  poolBaseVault : String
  poolQuoteVault : String
  venueAuthority : String
  venueBaseAccount : String
  venueQuoteAccount : String

structure EvidenceConfigurationV1 where
  keypers : Vector String 3
  baseLotAtoms : UInt64
  quoteAtomsPerLot : UInt64

structure EvidenceCommitmentsV1 where
  lockDigest : String

structure EvidenceTokenBalancesV1 where
  poolBaseBefore : UInt64
  poolBaseAfter : UInt64
  poolQuoteBefore : UInt64
  poolQuoteAfter : UInt64
  venueBaseBefore : UInt64
  venueBaseAfter : UInt64
  venueQuoteBefore : UInt64
  venueQuoteAfter : UInt64
  deriving DecidableEq

/-- The parts of a bundle that are read here. -/
structure DevnetEvidenceContentV1 where
  accounts : EvidenceAccountsV1
  configuration : EvidenceConfigurationV1
  commitments : EvidenceCommitmentsV1
  tokenBalances : EvidenceTokenBalancesV1

structure PublicAccountSnapshotV1 where
  owner : Pubkey
  executable : Bool
  data : Bytes

structure DevnetPublicSnapshotV1 where
  baseMint : PublicAccountSnapshotV1
  quoteMint : PublicAccountSnapshotV1
  currentTokenAccounts : Vector PublicAccountSnapshotV1 4
  tokenBalances : EvidenceTokenBalancesV1

/-! ### The verifier -/

/-- Signed changes of the vaults of a pool and of the accounts of its venue. -/
structure TokenDeltas where
  poolBase : Int
  poolQuote : Int
  venueBase : Int
  venueQuote : Int
  deriving DecidableEq

def EvidenceTokenBalancesV1.deltas (b : EvidenceTokenBalancesV1) : TokenDeltas where
  poolBase := b.poolBaseAfter.toNat - b.poolBaseBefore.toNat
  poolQuote := b.poolQuoteAfter.toNat - b.poolQuoteBefore.toNat
  venueBase := b.venueBaseAfter.toNat - b.venueBaseBefore.toNat
  venueQuote := b.venueQuoteAfter.toNat - b.venueQuoteBefore.toNat

section Verify

variable (token : TokenLibrary) (texts : KeyTexts)

def validatePublicMint (mint : PublicAccountSnapshotV1) : Except DevnetEvidenceError Unit := do
  rejectIf (mint.owner ≠ tokenProgramId ∨ mint.executable = true) .invalidTokenAccount
  let mint ← okOr (token.unpackMint mint.data) .invalidTokenAccount
  rejectIf (mint.decimals ≠ 0 ∨ mint.mintAuthority.isSome ∨ mint.freezeAuthority.isSome)
    .invalidTokenAccount

/-- One turn of the loop of `validate_current_token_accounts`. -/
def validateCurrentTokenAccount (account : PublicAccountSnapshotV1) (mint authority : String) :
    Except DevnetEvidenceError Unit := do
  rejectIf (account.owner ≠ tokenProgramId ∨ account.executable = true) .invalidTokenAccount
  let unpacked ← okOr (token.unpackAccount account.data) .invalidTokenAccount
  -- the authority is only parsed if the mint is the expected one
  let mint ← texts.parsePubkey mint
  rejectIf (unpacked.mint ≠ mint) .invalidTokenAccount
  let authority ← texts.parsePubkey authority
  rejectIf (unpacked.owner ≠ authority ∨ unpacked.state ≠ .initialized) .invalidTokenAccount

def validateCurrentTokenAccounts (evidence : EvidenceAccountsV1)
    (accounts : Vector PublicAccountSnapshotV1 4) : Except DevnetEvidenceError Unit :=
  let expected := [(evidence.baseMint, evidence.vaultAuthority),
    (evidence.quoteMint, evidence.vaultAuthority), (evidence.baseMint, evidence.venueAuthority),
    (evidence.quoteMint, evidence.venueAuthority)]
  (accounts.toList.zip expected).forM fun (account, mint, authority) =>
    validateCurrentTokenAccount token texts account mint authority

/-- The first half of `validate_token_deltas`: the accounts are those of the bundle, and the
balances are those of the chain and lose nothing. -/
def validateTokenBalances (evidence : DevnetEvidenceContentV1) (snapshot : DevnetPublicSnapshotV1) :
    Except DevnetEvidenceError Unit := do
  validatePublicMint token snapshot.baseMint
  validatePublicMint token snapshot.quoteMint
  validateCurrentTokenAccounts token texts evidence.accounts snapshot.currentTokenAccounts
  let balances := evidence.tokenBalances
  let baseBefore ← okOr (checkedAdd balances.poolBaseBefore balances.venueBaseBefore)
    .wrongTokenDelta
  let baseAfter ← okOr (checkedAdd balances.poolBaseAfter balances.venueBaseAfter) .wrongTokenDelta
  let quoteBefore ← okOr (checkedAdd balances.poolQuoteBefore balances.venueQuoteBefore)
    .wrongTokenDelta
  let quoteAfter ← okOr (checkedAdd balances.poolQuoteAfter balances.venueQuoteAfter)
    .wrongTokenDelta
  rejectIf (balances ≠ snapshot.tokenBalances ∨ baseBefore ≠ baseAfter ∨ quoteBefore ≠ quoteAfter)
    .wrongTokenDelta

/-- The deltas that `validate_token_deltas` expects of an epoch. -/
def expectedDeltas (epoch : EpochStateV1) : Except DevnetEvidenceError TokenDeltas := do
  let lots := epoch.residualLots.toUInt64
  let base ← okOr (checkedMul epoch.baseLotAtoms lots) .wrongTokenDelta
  let quote ← okOr (checkedMul epoch.quoteAtomsPerLot lots) .wrongTokenDelta
  if epoch.residualSide = 0 ∧ epoch.residualLots = 0 then .ok ⟨0, 0, 0, 0⟩
  else if epoch.residualSide = 1 ∧ 1 ≤ epoch.residualLots then
    .ok ⟨base.toNat, -quote.toNat, -base.toNat, quote.toNat⟩
  else if epoch.residualSide = 2 ∧ 1 ≤ epoch.residualLots then
    .ok ⟨-base.toNat, quote.toNat, base.toNat, -quote.toNat⟩
  else .error .wrongTokenDelta

def validateTokenDeltas (evidence : DevnetEvidenceContentV1) (snapshot : DevnetPublicSnapshotV1)
    (epoch : EpochStateV1) : Except DevnetEvidenceError Unit := do
  validateTokenBalances token texts evidence snapshot
  let expected ← expectedDeltas epoch
  rejectIf (evidence.tokenBalances.deltas ≠ expected) .wrongTokenDelta

variable {token texts}

theorem validateTokenDeltas_ok {evidence : DevnetEvidenceContentV1}
    {snapshot : DevnetPublicSnapshotV1} {epoch : EpochStateV1} {u : Unit} :
    validateTokenDeltas token texts evidence snapshot epoch = .ok u ↔
      validateTokenBalances token texts evidence snapshot = .ok () ∧
        expectedDeltas epoch = .ok evidence.tokenBalances.deltas := by
  simp only [validateTokenDeltas, bind_ok, Unique.exists_iff, rejectIf_eq_ok, not_not]
  refine and_congr_right fun _ => ?_
  constructor
  · rintro ⟨expected, hexpected, rfl⟩
    exact hexpected
  · intro hexpected
    exact ⟨_, hexpected, rfl⟩

end Verify

/-! ### What a residual moves -/

/-- The transfers of a residual, as the program works them out before it issues any. -/
def residualTransfers (a : SettleAccounts) (baseLotAtoms quoteAtomsPerLot : UInt64) (side : UInt8)
    (lots : UInt32) : Except ProgramError (List Transfer) := do
  rejectIf (validResidual side lots = false) KagebError.invalidSettlement
  let base ← okOr (checkedMul baseLotAtoms lots.toUInt64)
    (KagebError.arithmeticOverflow : ProgramError)
  let quote ← okOr (checkedMul quoteAtomsPerLot lots.toUInt64)
    (KagebError.arithmeticOverflow : ProgramError)
  .ok (settlementTransfers a side base quote)

theorem Runtime.settleResidual_eq (rt : Runtime) (c : Chain) (a : SettleAccounts) (p : PoolStateV1)
    (e : EpochStateV1) (compact : CompactSettlementPayload) :
    rt.settleResidual c a p e compact =
      residualTransfers a e.baseLotAtoms e.quoteAtomsPerLot compact.residualSide
          compact.residualLots >>= fun transfers =>
        transfers.foldlM (rt.issue (vaultSeeds a.pool p)) c >>= fun moved =>
          .ok (moved.write a.epoch (e.withSettlement compact
            ((Runtime.rebuildSettlement a.epoch p e compact).digest rt.sha256)).encode) := by
  simp only [Runtime.settleResidual, residualTransfers, bind_assoc]
  rfl

def Transfer.leg (t : Transfer) : TokenLeg :=
  ⟨t.source, t.mint, t.destination, t.authority, t.amount⟩

/-- What a leg adds to an account. -/
def TokenLeg.effect (leg : TokenLeg) (account : Pubkey) : Int :=
  (if leg.destination = account then leg.amount.toNat else 0) -
    (if leg.source = account then leg.amount.toNat else 0)

namespace TokenDeltas

/-- What legs add to the accounts of a settlement. -/
def ofLegs (a : SettleAccounts) (legs : List TokenLeg) : TokenDeltas where
  poolBase := (legs.map (·.effect a.poolBaseVault)).sum
  poolQuote := (legs.map (·.effect a.poolQuoteVault)).sum
  venueBase := (legs.map (·.effect a.venueBaseAccount)).sum
  venueQuote := (legs.map (·.effect a.venueQuoteAccount)).sum

/-- The pool receives base for quote from its venue. -/
def exchange (base quote : Int) : TokenDeltas := ⟨base, -quote, -base, quote⟩

def vault (d : TokenDeltas) : VaultDelta := ⟨d.poolBase, d.poolQuote⟩

end TokenDeltas

/-- The amounts of both legs are words. -/
structure Moves (baseLotAtoms quoteAtomsPerLot : UInt64) (lots : UInt32) (base quote : UInt64) :
    Prop where
  base : base.toNat = baseLotAtoms.toNat * lots.toNat
  quote : quote.toNat = quoteAtomsPerLot.toNat * lots.toNat

theorem checkedMul_lots {perLot amount : UInt64} {lots : UInt32} :
    checkedMul perLot lots.toUInt64 = some amount ↔ amount.toNat = perLot.toNat * lots.toNat := by
  rw [← UInt32.toNat_toUInt64 lots]
  constructor
  · exact fun h => (checkedMul_eq_some h).2
  · intro h
    obtain ⟨product, hproduct, hvalue⟩ := checkedMul_of_lt (h ▸ amount.toNat_lt)
    rw [hproduct, UInt64.toNat_inj.mp (hvalue.trans h.symm)]

theorem exists_moves {baseLotAtoms quoteAtomsPerLot : UInt64} {lots : UInt32} :
    (∃ base quote, Moves baseLotAtoms quoteAtomsPerLot lots base quote) ↔
      baseLotAtoms.toNat * lots.toNat < 2 ^ 64 ∧ quoteAtomsPerLot.toNat * lots.toNat < 2 ^ 64 := by
  constructor
  · rintro ⟨base, quote, hbase, hquote⟩
    exact ⟨hbase ▸ base.toNat_lt, hquote ▸ quote.toNat_lt⟩
  · rintro ⟨hbase, hquote⟩
    exact ⟨.ofNat _, .ofNat _, UInt64.toNat_ofNat_of_lt' hbase, UInt64.toNat_ofNat_of_lt' hquote⟩

section Residual

variable {a : SettleAccounts} {baseLotAtoms quoteAtomsPerLot : UInt64} {side : UInt8}
  {lots : UInt32} {base quote : UInt64}

theorem residualTransfers_ok {transfers : List Transfer} :
    residualTransfers a baseLotAtoms quoteAtomsPerLot side lots = .ok transfers ↔
      validResidual side lots = true ∧ ∃ base quote,
        Moves baseLotAtoms quoteAtomsPerLot lots base quote ∧
          transfers = settlementTransfers a side base quote := by
  simp only [residualTransfers, bind_ok, Unique.exists_iff, rejectIf_eq_ok, okOr_eq_ok,
    checkedMul_lots, Bool.not_eq_false, Except.ok.injEq]
  refine and_congr_right fun _ => ?_
  constructor
  · rintro ⟨base, hbase, quote, hquote, rfl⟩
    exact ⟨base, quote, ⟨hbase, hquote⟩, rfl⟩
  · rintro ⟨base, quote, ⟨hbase, hquote⟩, rfl⟩
    exact ⟨base, hbase, quote, hquote, rfl⟩

/-- The pairs that the program accepts are those of the residuals. -/
theorem exists_residual :
    (∃ r : Residual, r.Proper ∧ residualWire r = (side, lots)) ↔
      validResidual side lots = true := by
  rw [validResidual_eq_true]
  constructor
  · rintro ⟨r, hproper, hwire⟩
    cases r <;> cases hwire
    · exact .inl ⟨rfl, rfl⟩
    · exact .inr ⟨.inl rfl, one_le_word.mpr hproper⟩
    · exact .inr ⟨.inr rfl, one_le_word.mpr hproper⟩
  · rintro (⟨rfl, rfl⟩ | ⟨rfl | rfl, hlots⟩)
    · exact ⟨.none, trivial, rfl⟩
    · exact ⟨.buy lots, one_le_word.mp hlots, rfl⟩
    · exact ⟨.sell lots, one_le_word.mp hlots, rfl⟩

/-- The observer demands what the program issues. -/
theorem expectedLegs_ok {o : KagebObserverAccounts} {r : Residual} {legs : List TokenLeg} :
    expectedLegs o r = .ok legs ↔ ∃ base quote,
      Moves o.baseLotAtoms o.quoteAtomsPerLot (residualWire r).2 base quote ∧
        legs = (settlementTransfers o.toSettleAccounts (residualWire r).1 base quote).map
          Transfer.leg := by
  have hlots : r.lots = (residualWire r).2 := by cases r <;> rfl
  simp only [expectedLegs, bind_ok, okOr_eq_ok, hlots, checkedMul_lots, Except.ok.injEq]
  constructor
  · rintro ⟨base, hbase, quote, hquote, rfl⟩
    refine ⟨base, quote, ⟨hbase, hquote⟩, ?_⟩
    cases r <;> rfl
  · rintro ⟨base, quote, ⟨hbase, hquote⟩, rfl⟩
    refine ⟨base, hbase, quote, hquote, ?_⟩
    cases r <;> rfl

theorem expectedDeltas_ok {e : EpochStateV1} {d : TokenDeltas} :
    expectedDeltas e = .ok d ↔
      validResidual e.residualSide e.residualLots = true ∧ ∃ base quote,
        Moves e.baseLotAtoms e.quoteAtomsPerLot e.residualLots base quote ∧
          d = .exchange (sideSign e.residualSide * base.toNat)
            (sideSign e.residualSide * quote.toNat) := by
  simp only [expectedDeltas, bind_ok, okOr_eq_ok, checkedMul_lots, validResidual_eq_true]
  have hsell : sideSign 2 = -1 := by decide
  constructor
  · rintro ⟨base, hbase, quote, hquote, h⟩
    split_ifs at h with hnone hbuy hsold
    · cases h
      exact ⟨.inl hnone, base, quote, ⟨hbase, hquote⟩, by
        simp [hnone.1, sideSign, TokenDeltas.exchange]⟩
    · cases h
      exact ⟨.inr ⟨.inl hbuy.1, hbuy.2⟩, base, quote, ⟨hbase, hquote⟩, by
        simp [hbuy.1, sideSign, TokenDeltas.exchange]⟩
    · cases h
      exact ⟨.inr ⟨.inr hsold.1, hsold.2⟩, base, quote, ⟨hbase, hquote⟩, by
        simp [hsold.1, hsell, TokenDeltas.exchange]⟩
  · rintro ⟨hvalid, base, quote, ⟨hbase, hquote⟩, rfl⟩
    refine ⟨base, hbase, quote, hquote, ?_⟩
    rcases hvalid with ⟨hside, hlots⟩ | ⟨hside | hside, hlots⟩
    · simp [hside, hlots, sideSign, TokenDeltas.exchange]
    · simp [hside, hlots, sideSign, TokenDeltas.exchange]
    · simp [hside, hlots, hsell, TokenDeltas.exchange]

/-- The transfers of a residual exchange its two amounts. -/
theorem ofLegs_settlementTransfers (hdistinct :
      [a.poolBaseVault, a.poolQuoteVault, a.venueBaseAccount, a.venueQuoteAccount].Nodup) :
    TokenDeltas.ofLegs a ((settlementTransfers a side base quote).map Transfer.leg) =
      .exchange (sideSign side * base.toNat) (sideSign side * quote.toNat) := by
  simp only [List.nodup_cons, List.mem_cons, List.not_mem_nil, or_false, not_or] at hdistinct
  obtain ⟨⟨hbq, hbvb, hbvq⟩, ⟨hqvb, hqvq⟩, hvbvq, -⟩ := hdistinct
  unfold settlementTransfers sideSign
  split_ifs
  · simp [TokenDeltas.ofLegs, Transfer.leg, TokenLeg.effect, TokenDeltas.exchange, hbq, hbvb, hbvq,
      hqvb, hqvq, hvbvq, Ne.symm hbq, Ne.symm hbvb, Ne.symm hbvq, Ne.symm hqvb, Ne.symm hqvq,
      Ne.symm hvbvq]
  · simp [TokenDeltas.ofLegs, Transfer.leg, TokenLeg.effect, TokenDeltas.exchange, hbq, hbvb, hbvq,
      hqvb, hqvq, hvbvq, Ne.symm hbq, Ne.symm hbvb, Ne.symm hbvq, Ne.symm hqvb, Ne.symm hqvq,
      Ne.symm hvbvq]
  · simp [TokenDeltas.ofLegs, TokenDeltas.exchange]

end Residual

/-! ### Agreement -/

/-- The program issues transfers for the residual of a batch, the observer demands these legs in
this order, the verifier demands their effect on the four balances, and the ledger counts their
effect on the vaults. -/
def EffectsAgree (a : SettleAccounts) (config : BatchConfig) (r : BatchResult) : Prop :=
  ∃ transfers,
    residualTransfers a config.baseLotAtoms config.quoteAtomsPerLot (residualWire r.residual).1
      (residualWire r.residual).2 = .ok transfers ∧
    (∀ (lib : RpcLibrary) (inner : List UiInnerInstructions) (keys : List Pubkey) (index : UInt8)
        (feePayer : Pubkey),
      validateSettlementTokenEffects lib inner keys index
          ⟨a, feePayer, config.baseLotAtoms, config.quoteAtomsPerLot⟩ r.residual = .ok () ↔
        ShowsLegs lib keys index inner (transfers.map Transfer.leg)) ∧
    (∀ (token : TokenLibrary) (texts : KeyTexts) (evidence : DevnetEvidenceContentV1)
        (snapshot : DevnetPublicSnapshotV1) (e : EpochStateV1), config.IsOf e →
      (e.residualSide, e.residualLots) = residualWire r.residual →
      (validateTokenDeltas token texts evidence snapshot e = .ok () ↔
        validateTokenBalances token texts evidence snapshot = .ok () ∧
          evidence.tokenBalances.deltas = .ofLegs a (transfers.map Transfer.leg))) ∧
    r.vaultDelta = (TokenDeltas.ofLegs a (transfers.map Transfer.leg)).vault

/-- The three that read a residual from the wire accept it. -/
structure WireAccepted (a : SettleAccounts) (feePayer : Pubkey) (e : EpochStateV1) : Prop where
  program : ∃ transfers, residualTransfers a e.baseLotAtoms e.quoteAtomsPerLot e.residualSide
    e.residualLots = .ok transfers
  observer : ∃ r legs, observedResidual e.residualSide e.residualLots = .ok r ∧
    expectedLegs ⟨a, feePayer, e.baseLotAtoms, e.quoteAtomsPerLot⟩ r = .ok legs
  verifier : ∃ deltas, expectedDeltas e = .ok deltas

/-- None of them does. -/
structure WireRefused (a : SettleAccounts) (feePayer : Pubkey) (e : EpochStateV1) : Prop where
  program : ∀ transfers, residualTransfers a e.baseLotAtoms e.quoteAtomsPerLot e.residualSide
    e.residualLots ≠ .ok transfers
  observer : ∀ r legs, observedResidual e.residualSide e.residualLots = .ok r →
    expectedLegs ⟨a, feePayer, e.baseLotAtoms, e.quoteAtomsPerLot⟩ r ≠ .ok legs
  verifier : ∀ deltas, expectedDeltas e ≠ .ok deltas

/-- The pair of an epoch is that of a residual, and its two products are words. -/
structure EpochStateV1.Movable (e : EpochStateV1) : Prop where
  pair : validResidual e.residualSide e.residualLots = true
  base : e.baseLotAtoms.toNat * e.residualLots.toNat < 2 ^ 64
  quote : e.quoteAtomsPerLot.toNat * e.residualLots.toNat < 2 ^ 64

section Agreement

variable {a : SettleAccounts} {feePayer : Pubkey} {e : EpochStateV1}

theorem program_accepts_iff : (∃ transfers, residualTransfers a e.baseLotAtoms e.quoteAtomsPerLot
    e.residualSide e.residualLots = .ok transfers) ↔ e.Movable := by
  simp only [residualTransfers_ok]
  constructor
  · rintro ⟨transfers, hvalid, base, quote, hmoves, -⟩
    obtain ⟨hbase, hquote⟩ := exists_moves.mp ⟨base, quote, hmoves⟩
    exact ⟨hvalid, hbase, hquote⟩
  · rintro ⟨hvalid, hbase, hquote⟩
    obtain ⟨base, quote, hmoves⟩ := exists_moves.mpr ⟨hbase, hquote⟩
    exact ⟨_, hvalid, base, quote, hmoves, rfl⟩

theorem observer_accepts_iff : (∃ r legs, observedResidual e.residualSide e.residualLots = .ok r ∧
    expectedLegs ⟨a, feePayer, e.baseLotAtoms, e.quoteAtomsPerLot⟩ r = .ok legs) ↔ e.Movable := by
  simp only [observedResidual_ok, expectedLegs_ok]
  constructor
  · rintro ⟨r, legs, ⟨hproper, hwire⟩, base, quote, hmoves, -⟩
    rw [hwire] at hmoves
    obtain ⟨hbase, hquote⟩ := exists_moves.mp ⟨base, quote, hmoves⟩
    exact ⟨exists_residual.mp ⟨r, hproper, hwire⟩, hbase, hquote⟩
  · rintro ⟨hvalid, hbase, hquote⟩
    obtain ⟨r, hproper, hwire⟩ := exists_residual.mpr hvalid
    obtain ⟨base, quote, hmoves⟩ := exists_moves.mpr ⟨hbase, hquote⟩
    exact ⟨r, _, ⟨hproper, hwire⟩, base, quote, hwire ▸ hmoves, rfl⟩

theorem verifier_accepts_iff : (∃ deltas, expectedDeltas e = .ok deltas) ↔ e.Movable := by
  simp only [expectedDeltas_ok]
  constructor
  · rintro ⟨deltas, hvalid, base, quote, hmoves, -⟩
    obtain ⟨hbase, hquote⟩ := exists_moves.mp ⟨base, quote, hmoves⟩
    exact ⟨hvalid, hbase, hquote⟩
  · rintro ⟨hvalid, hbase, hquote⟩
    obtain ⟨base, quote, hmoves⟩ := exists_moves.mpr ⟨hbase, hquote⟩
    exact ⟨_, hvalid, base, quote, hmoves, rfl⟩

theorem wire_cases : (e.Movable → WireAccepted a feePayer e) ∧
    (¬e.Movable → WireRefused a feePayer e) := by
  constructor
  · intro h
    exact ⟨program_accepts_iff.mpr h, observer_accepts_iff.mpr h, verifier_accepts_iff.mpr h⟩
  · intro h
    refine ⟨?_, ?_, ?_⟩
    · intro transfers hok
      exact h (program_accepts_iff.mp ⟨transfers, hok⟩)
    · intro r legs hr hok
      exact h (observer_accepts_iff.mp ⟨r, legs, hr, hok⟩)
    · intro deltas hok
      exact h (verifier_accepts_iff.mp ⟨deltas, hok⟩)

variable {config : BatchConfig} {before : Map ParticipantId PoolBalance}
  {orders : List FundedOrder} {r : BatchResult}

theorem Netted.proper (h : Netted config before orders r) : r.residual.Proper := by
  obtain ⟨n, -, -, hresidual, -⟩ := h.filled
  rw [hresidual]
  exact n.residual_proper

/-- What the ledger counts for the vaults is one side of an exchange with the venue. -/
theorem Netted.vaultDelta_eq (h : Netted config before orders r) {base quote : UInt64}
    (hmoves : Moves config.baseLotAtoms config.quoteAtomsPerLot (residualWire r.residual).2 base
      quote) :
    r.vaultDelta = (TokenDeltas.exchange (sideSign (residualWire r.residual).1 * base.toNat)
      (sideSign (residualWire r.residual).1 * quote.toNat)).vault := by
  obtain ⟨n, -, -, hresidual, hdelta⟩ := h.filled
  have hwire := n.residual_wire
  rw [← hresidual] at hwire
  rw [hdelta, hwire, hmoves.base, hmoves.quote]
  simp only [TokenDeltas.exchange, TokenDeltas.vault, Nat.cast_mul, VaultDelta.mk.injEq]
  constructor <;> ring

theorem effectsAgree_of_moves (h : Netted config before orders r) (hdistinct :
      [a.poolBaseVault, a.poolQuoteVault, a.venueBaseAccount, a.venueQuoteAccount].Nodup)
    {base quote : UInt64} (hmoves : Moves config.baseLotAtoms config.quoteAtomsPerLot
      (residualWire r.residual).2 base quote) : EffectsAgree a config r := by
  have hvalid : validResidual (residualWire r.residual).1 (residualWire r.residual).2 = true :=
    exists_residual.mp ⟨r.residual, h.proper, rfl⟩
  have hlegs : TokenDeltas.ofLegs a
      ((settlementTransfers a (residualWire r.residual).1 base quote).map Transfer.leg) = _ :=
    ofLegs_settlementTransfers hdistinct
  refine ⟨_, residualTransfers_ok.mpr ⟨hvalid, base, quote, hmoves, rfl⟩, ?_, ?_, ?_⟩
  · intro lib inner keys index feePayer
    rw [validateSettlementTokenEffects_ok, expectedLegs_ok.mpr ⟨base, quote, hmoves, rfl⟩]
    simp
  · intro token texts evidence snapshot e hconfig hwire
    have hside : e.residualSide = (residualWire r.residual).1 := congrArg Prod.fst hwire
    have hlots : e.residualLots = (residualWire r.residual).2 := congrArg Prod.snd hwire
    have hmoves' : Moves e.baseLotAtoms e.quoteAtomsPerLot e.residualLots base quote := by
      rw [← hconfig.1, ← hconfig.2, hlots]
      exact hmoves
    rw [← hside, ← hlots] at hvalid
    rw [validateTokenDeltas_ok, hlegs, expectedDeltas_ok.mpr ⟨hvalid, base, quote, hmoves', rfl⟩,
      Except.ok.injEq, hside]
    exact and_congr_right fun _ => eq_comm
  · rw [hlegs]
    exact h.vaultDelta_eq hmoves

/-- A settlement of the residual of a batch issues the transfers that the program works out for it.
The ledger, the program, the observer and the verifier agree on what the residual moves exactly if
both products are words; of the residuals on the wire the last three accept the same, namely the
proper pairs whose products are words. -/
theorem token_effects_agree_iff {rt : Runtime} {tx : InstructionsSysvar} {c : Chain}
    {payer pool epoch : Pubkey} {p : PoolStateV1} {e : EpochStateV1} {payload : SettlementPayloadV1}
    (hready : SettleReady rt tx c payer pool epoch p e (.ofPayload payload))
    (hbatch : netBatch config before orders = .ok r) (hconfig : config.IsOf e)
    (hwire : (payload.residualSide, payload.residualLots) = residualWire r.residual) :
    rt.run tx c (settleInstruction (rt.settleAccounts payer pool epoch p) payload) =
      (residualTransfers (rt.settleAccounts payer pool epoch p) config.baseLotAtoms
          config.quoteAtomsPerLot (residualWire r.residual).1 (residualWire r.residual).2 >>=
        fun transfers => transfers.foldlM (rt.issue (vaultSeeds pool p)) c >>= fun moved =>
          .ok (moved.write epoch (e.withSettlement (.ofPayload payload)
            ((Runtime.rebuildSettlement epoch p e (.ofPayload payload)).digest
              rt.sha256)).encode)) ∧
    (EffectsAgree (rt.settleAccounts payer pool epoch p) config r ↔
      config.baseLotAtoms.toNat * (residualWire r.residual).2.toNat < 2 ^ 64 ∧
        config.quoteAtomsPerLot.toNat * (residualWire r.residual).2.toNat < 2 ^ 64) ∧
    ∀ (a : SettleAccounts) (feePayer : Pubkey) (e' : EpochStateV1),
      (e'.Movable → WireAccepted a feePayer e') ∧ (¬e'.Movable → WireRefused a feePayer e') := by
  refine ⟨?_, ?_, fun _ _ _ => wire_cases⟩
  · have hside : payload.residualSide = (residualWire r.residual).1 := congrArg Prod.fst hwire
    have hlots : payload.residualLots = (residualWire r.residual).2 := congrArg Prod.snd hwire
    rw [hready.run, Runtime.settleResidual_eq, ← hside, ← hlots, hconfig.1, hconfig.2]
    rfl
  · constructor
    · rintro ⟨transfers, hprogram, -⟩
      obtain ⟨-, base, quote, hmoves, -⟩ := residualTransfers_ok.mp hprogram
      exact exists_moves.mp ⟨base, quote, hmoves⟩
    · intro hfits
      obtain ⟨base, quote, hmoves⟩ := exists_moves.mpr hfits
      exact effectsAgree_of_moves (netBatch_ok hbatch) hready.tokens.distinct hmoves

end Agreement

namespace Sample

/-- What the program rebuilds for the lock of the sample package. -/
def rebuilt (compact : CompactSettlementPayload) : SettlementPayloadV1 :=
  Runtime.rebuildSettlement epoch poolState packageEpoch compact

theorem rebuilt_ready {compact : CompactSettlementPayload}
    (hcommitment : compact.resultCommitment ≠ zero32) (hnonce : compact.settlementNonce ≠ zero32)
    (hfresh : compact.settlementNonce ≠ packageEpoch.lockNonce) :
    SettleReady host.toRuntime (relayTx (rebuilt compact)) packageChain payer pool epoch poolState
      packageEpoch (.ofPayload (rebuilt compact)) := by
  obtain ⟨⟨hbaseVault, hquoteVault, hvenueBase, hvenueQuote⟩, ⟨hbaseMint, hquoteMint⟩, -, -, -, -,
    ⟨hdistinct, hplain⟩, htoken, hclock, hepochAt, hpoolAt⟩ := packageChain_facts
  have hne : pool ≠ epoch := fun heq =>
    (List.nodup_cons.mp (List.nodup_cons.mp hdistinct).2).1 (List.mem_cons.mpr (.inl heq))
  obtain ⟨p, hsound⟩ := Runtime.sound_of_run host_lawful chain_genesis package_run epoch
    packageEpoch hepochAt
  obtain rfl : p = poolState := hsound.poolAt.unique hpoolAt
  obtain ⟨count, hcount, htwo⟩ := (relayTx_approved (rebuilt compact)).count
  exact
    { named := ⟨hne, hpoolAt, hepochAt, hsound.poolValid, hsound.epochValid⟩
      tokens := ⟨hbaseVault, hquoteVault, hvenueBase, hvenueQuote, by decide⟩
      baseMint := hbaseMint
      quoteMint := hquoteMint
      plain := ⟨hdistinct, hplain⟩
      tokenProgram := htoken
      locked := rfl
      clock := ⟨⟨1, 6⟩, hclock, by decide⟩
      resultCommitment := hcommitment
      settlementNonce := hnonce
      freshNonce := hfresh
      quorum := ⟨count, hcount, htwo⟩ }

def lotConfig : BatchConfig := ⟨10, 100, ten_ne, hundred_ne⟩

def buyersBalances : Map ParticipantId PoolBalance :=
  Map.ofList [(key 1, ⟨10, 100⟩), (key 2, ⟨30, 500⟩)]

def buyerOrders : List FundedOrder := [⟨key 2, .buy, 100, hundred_ne⟩, ⟨key 1, .buy, 120, by decide⟩]

end Sample

open Sample in
theorem token_effects_agree_buyers : ∃ r, netBatch lotConfig buyersBalances buyerOrders = .ok r ∧
    r.vaultDelta = ⟨20, -200⟩ ∧
    EffectsAgree (host.settleAccounts payer pool epoch poolState) lotConfig r := by
  have hsome : ((netBatch lotConfig buyersBalances buyerOrders).toOption.map fun r =>
      (r.residual, r.vaultDelta)) = some (.buy 2, ⟨20, -200⟩) := by decide
  cases hr : netBatch lotConfig buyersBalances buyerOrders with
  | error => rw [hr] at hsome; cases hsome
  | ok r =>
    rw [hr] at hsome
    obtain ⟨hresidual, hdelta⟩ := Prod.mk.inj (Option.some.inj hsome)
    have hready := @rebuilt_ready compact (by decide) (by decide) (by decide)
    have hwire : ((rebuilt compact).residualSide, (rebuilt compact).residualLots) =
        residualWire r.residual := by
      rw [hresidual]
      rfl
    refine ⟨r, rfl, hdelta, (token_effects_agree_iff hready hr ⟨rfl, rfl⟩ hwire).2.1.mpr ?_⟩
    rw [hresidual]
    decide

namespace Sample

/-- Just under half of the words. -/
def bulkyLot : UInt64 := 9223372036854775807

def bulkyConfig : BatchConfig := ⟨bulkyLot, 100, by decide, hundred_ne⟩

/-- Each of three buyers can hold one more lot. -/
def bulkyBalances : Map ParticipantId PoolBalance :=
  Map.ofList [(key 1, ⟨bulkyLot, 100⟩), (key 2, ⟨bulkyLot, 100⟩), (key 3, ⟨bulkyLot, 100⟩)]

def bulkyBuyers : List FundedOrder :=
  [⟨key 1, .buy, 100, hundred_ne⟩, ⟨key 2, .buy, 100, hundred_ne⟩, ⟨key 3, .buy, 100, hundred_ne⟩]

def bulkyPool : PoolStateV1 := { poolState with baseLotAtoms := bulkyLot }

def bulkyEpoch : EpochStateV1 :=
  { packageEpoch with
    baseLotAtoms := bulkyLot
    configurationHash := { configuration with baseLotAtoms := bulkyLot }.digest sha256 }

def bulkyChain : Chain := (packageChain.write pool bulkyPool.encode).write epoch bulkyEpoch.encode

def bulkyPayload : SettlementPayloadV1 :=
  Runtime.rebuildSettlement epoch bulkyPool bulkyEpoch { compact with residualLots := 3 }

def bulkyObserved : KagebObserverAccounts where
  toSettleAccounts := rt.settleAccounts payer pool epoch bulkyPool
  feePayer := payer
  baseLotAtoms := bulkyLot
  quoteAtomsPerLot := 100

end Sample

open Sample in
/-- Three lots for buyers who can each hold one: the ledger has a delta for the vaults, and the
program, the observer and the verifier refuse the residual. -/
theorem bulky_residual_refused :
    ((netBatch bulkyConfig bulkyBalances bulkyBuyers).toOption.map fun r =>
      (r.residual, r.vaultDelta)) = some (.buy 3, ⟨27670116110564327421, -300⟩) ∧
    host.run (relayTx bulkyPayload) bulkyChain
      (settleInstruction bulkyObserved.toSettleAccounts bulkyPayload) =
        .error KagebError.arithmeticOverflow ∧
    expectedLegs bulkyObserved (.buy 3) = .error .unexpectedTokenEffect ∧
    expectedDeltas { bulkyEpoch with residualSide := 1, residualLots := 3 } =
      .error .wrongTokenDelta := by
  have hrun : errorOf (host.run (relayTx bulkyPayload) bulkyChain
      (settleInstruction bulkyObserved.toSettleAccounts bulkyPayload)) =
        some KagebError.arithmeticOverflow := by decide +kernel
  refine ⟨by decide +kernel, eq_error_of_errorOf hrun, ?_, ?_⟩
  · decide +kernel
  · decide +kernel

end Kageb
