import Kageb.Host.Agreement
import Kageb.Program.Acceptance

/-! A settlement on its way to the chain. Its instruction carries four of the fifteen fields that the
keypers signed; the program fills in the others from the records of the epoch and of its pool, and
arrives at the payload that was signed. -/

namespace Kageb

open Binary Checks Runs

/-- The signed payload has its fields from the compact payload and the records of the chain. -/
structure SettlementPayloadV1.FilledFrom (payload : SettlementPayloadV1) (epoch : Pubkey)
    (p : PoolStateV1) (e : EpochStateV1) (compact : CompactSettlementPayload) : Prop where
  compact : compact = .ofPayload payload
  epochAccount : epoch = payload.epochAccount
  lockDigest : e.lockDigest = payload.lockDigest
  baseLotAtoms : e.baseLotAtoms = payload.baseLotAtoms
  quoteAtomsPerLot : e.quoteAtomsPerLot = payload.quoteAtomsPerLot
  baseMint : p.baseMint = payload.baseMint
  quoteMint : p.quoteMint = payload.quoteMint
  poolBaseVault : p.poolBaseVault = payload.poolBaseVault
  poolQuoteVault : p.poolQuoteVault = payload.poolQuoteVault
  venueBaseAccount : p.venueBaseAccount = payload.venueBaseAccount
  venueQuoteAccount : p.venueQuoteAccount = payload.venueQuoteAccount
  venueAuthority : p.venueAuthority = payload.venueAuthority

theorem rebuildSettlement_eq_iff {epoch : Pubkey} {p : PoolStateV1} {e : EpochStateV1}
    {compact : CompactSettlementPayload} {payload : SettlementPayloadV1} :
    Runtime.rebuildSettlement epoch p e compact = payload ↔
      payload.FilledFrom epoch p e compact := by
  constructor
  · rintro rfl
    exact ⟨rfl, rfl, rfl, rfl, rfl, rfl, rfl, rfl, rfl, rfl, rfl, rfl⟩
  · rintro ⟨rfl, hepoch, hlock, hbase, hquote, hbaseMint, hquoteMint, hbaseVault, hquoteVault,
      hvenueBase, hvenueQuote, hvenue⟩
    simp only [Runtime.rebuildSettlement, hepoch, hlock, hbase, hquote, hbaseMint, hquoteMint,
      hbaseVault, hquoteVault, hvenueBase, hvenueQuote, hvenue]
    rfl

theorem Netting.residual_valid (n : Netting) :
    validResidual (residualWire n.residual.1).1 (residualWire n.residual.1).2 = true := by
  unfold Netting.residual
  split_ifs with hbuys hsells
  · exact validResidual_eq_true.mpr (.inr ⟨.inl rfl, one_le_word.mpr (word_sub_ne_zero hbuys)⟩)
  · exact validResidual_eq_true.mpr (.inr ⟨.inr rfl, one_le_word.mpr (word_sub_ne_zero hsells)⟩)
  · exact validResidual_eq_true.mpr (.inl ⟨rfl, rfl⟩)

section Recomputed

variable {host : Host} {package : LockPackageV1 host} {evidence : List (DecryptionEvidenceV1 host)}
  {nonce : Bytes32} {confirmed : ConfirmedLock} {r : RecomputedSettlement}

theorem recompute_nonce (h : recompute package evidence nonce confirmed = .ok r) :
    nonce ≠ zero32 ∧ nonce ≠ confirmed.state.lockNonce := by
  simp only [recompute, bind_ok, Unique.exists_iff, rejectIf_eq_ok, not_or] at h
  obtain ⟨_, -, hnonce, -⟩ := h
  exact hnonce

/-- A lock that is still there is as it was read. -/
theorem ConfirmedLock.On.kept (lawful : host.toRuntime.Lawful) {c c' : Chain} {es : List Event}
    (run : Run host.ChainStep c es c') {pool : PoolStateV1} (h : confirmed.On c pool)
    {e : EpochStateV1} (he : c'.EpochAt confirmed.epochAccount e)
    (hlocked : e.terminalState = .locked) : e = confirmed.state ∧ c'.PoolAt e.pool pool := by
  obtain ⟨hpools, hepochs⟩ := Runtime.run_follows lawful run
  obtain ⟨e', he', hfollows⟩ := hepochs _ _ h.epochAt
  cases he'.unique he
  obtain rfl := hfollows.eq_of_locked h.locked hlocked
  exact ⟨rfl, hpools _ _ h.poolAt⟩

end Recomputed

/-- A settlement as a client sends it: two keypers approved it, its tokens are there, and the epoch
may still be settled. The venue signs as an account of the instruction. -/
structure SettlementSent (rt : Runtime) (token : TokenLibrary) (tx : InstructionsSysvar) (c : Chain)
    (payer epoch : Pubkey) (p : PoolStateV1) (e : EpochStateV1) (payload : SettlementPayloadV1) :
    Prop where
  approved : TwoApprove tx p.keypers (payload.digest rt.sha256)
  tokens : rt.TokensValid c e.pool p
  baseMint : c.MintAt p.baseMint
  quoteMint : c.MintAt p.quoteMint
  usable : rt.TokensUsable token c e.pool p
  plain : c.Plain [payer, e.pool, epoch, (rt.vaultAuthorityAddress e.pool).1, p.poolBaseVault,
    p.poolQuoteVault, p.venueAuthority, p.venueBaseAccount, p.venueQuoteAccount, p.baseMint,
    p.quoteMint, instructionsId, clockId]
  tokenProgram : (c tokenProgramId).executable = true
  clock : ∃ clock, rt.deserializeClock (c clockId).data = some clock ∧
    clock.unixTimestamp ≤ e.abortDeadline
  funded : ∃ base quote, checkedMul e.baseLotAtoms payload.residualLots.toUInt64 = some base ∧
    checkedMul e.quoteAtomsPerLot payload.residualLots.toUInt64 = some quote ∧
    c.Funds (settlementTransfers (rt.settleAccounts payer e.pool epoch p) payload.residualSide base
      quote)

section Rebuilt

variable {host : Host} {package : LockPackageV1 host} {evidence : List (DecryptionEvidenceV1 host)}
  {nonce : Bytes32} {lock : ConfirmedLock} {r : RecomputedSettlement} {c : Chain}
  {pool : PoolStateV1}

/-- A recomputed payload is what the records of the lock fill in. -/
theorem recompute_filled (h : recompute package evidence nonce lock = .ok r)
    (hpool : lock.pool = some pool) :
    r.payload.FilledFrom lock.epochAccount pool lock.state (.ofPayload r.payload) := by
  obtain ⟨pool', recovered, result, hr⟩ := recompute_ok h
  obtain rfl : pool' = pool := Option.some.inj (hr.locked.poolRead.symm.trans hpool)
  rw [hr.payload]
  exact ⟨rfl, rfl, rfl, rfl, rfl, rfl, rfl, rfl, rfl, rfl, rfl, rfl⟩

theorem recompute_residual (h : recompute package evidence nonce lock = .ok r) :
    validResidual r.payload.residualSide r.payload.residualLots = true := by
  obtain ⟨pool, recovered, result, hr⟩ := recompute_ok h
  obtain ⟨config, -, hnetted⟩ := hr.netted
  obtain ⟨n, -, -, hresidual, -⟩ := hnetted.filled
  rw [hr.payload]
  simp only [ConfirmedLock.settlementPayload, hresidual]
  exact n.residual_valid

/-- What is recomputed from a lock meets the checks of the program where the lock still stands. -/
theorem SettlementSent.ready {token : TokenLibrary} {tx : InstructionsSysvar} {payer : Pubkey}
    (h : recompute package evidence nonce lock = .ok r) (hpool : lock.pool = some pool)
    (hhash : ∀ m, host.sha256 m ≠ zero32)
    (hsound : host.EpochSound c lock.epochAccount lock.state pool)
    (hat : c.EpochAt lock.epochAccount lock.state) (hlocked : lock.state.terminalState = .locked)
    (hsent : SettlementSent host.toRuntime token tx c payer lock.epochAccount pool lock.state
      r.payload) :
    SettleReady host.toRuntime tx c payer lock.state.pool lock.epochAccount pool lock.state
      (.ofPayload r.payload) := by
  obtain ⟨pool', recovered, result, hr⟩ := recompute_ok h
  obtain ⟨hnonce, hfresh⟩ := recompute_nonce h
  obtain ⟨count, hcount, htwo⟩ := hsent.approved.count
  have hpayload := hr.payload
  have hrebuilt := rebuildSettlement_eq_iff.mpr (recompute_filled h hpool)
  refine
    { named := ⟨?_, hsound.poolAt, hat, hsound.poolValid, hsound.epochValid⟩
      tokens := hsent.tokens
      baseMint := hsent.baseMint
      quoteMint := hsent.quoteMint
      plain := hsent.plain
      tokenProgram := hsent.tokenProgram
      locked := hlocked
      clock := hsent.clock
      resultCommitment := ?_
      settlementNonce := ?_
      freshNonce := ?_
      quorum := ⟨count, hrebuilt ▸ hcount, hsound.poolValid.settlementThreshold ▸ htwo⟩ }
  · intro heq
    exact (heq ▸ hsound.poolAt).not_epochAt hat
  · rw [hpayload]
    exact (hr.resultCommitment ▸ hhash _ : r.resultCommitment ≠ zero32)
  · rw [hpayload]
    exact hnonce
  · rw [hpayload]
    exact hfresh

end Rebuilt

namespace Sample

def token : TokenLibrary where
  unpackAccount data := do
    let mint ← ByteVec.ofBytes? 32 (slice data 0 32)
    let owner ← ByteVec.ofBytes? 32 (slice data 32 64)
    if data.length = 165 ∧ data[108]? = some 1 then some ⟨mint, owner, .initialized⟩ else none
  unpackMint data :=
    if data.length = 82 ∧ data[45]? = some 1 then some ⟨data.getD 44 0, none, none⟩ else none

/-- Two keypers approve the payload in front of its instruction. -/
def relayTx (payload : SettlementPayloadV1) : InstructionsSysvar :=
  transaction [approval keypers.first (payload.digest sha256),
    approval keypers.second (payload.digest sha256)] (.settle (.ofPayload payload))
    (by rw [List.length_cons, List.length_singleton]; decide)

theorem relayTx_approved (payload : SettlementPayloadV1) :
    TwoApprove (relayTx payload) poolState.keypers (payload.digest host.sha256) :=
  ⟨keypers.first, by decide, keypers.second, by decide, by decide,
    ⟨_, List.mem_cons_self, approves_approval _ _⟩,
    ⟨_, List.mem_cons_of_mem _ List.mem_cons_self, approves_approval _ _⟩⟩

/-- Everything that is read from the chain of the sample package, evaluated once. -/
theorem packageChain_facts :
    (packageChain.TokenAt baseVault baseMint vaultAuthority ∧
      packageChain.TokenAt quoteVault quoteMint vaultAuthority ∧
      packageChain.TokenAt venueBase baseMint venueAuthority ∧
      packageChain.TokenAt venueQuote quoteMint venueAuthority) ∧
    (packageChain.MintAt baseMint ∧ packageChain.MintAt quoteMint) ∧
    (∀ k ∈ [baseVault, quoteVault, venueBase, venueQuote],
      (token.unpackAccount (packageChain k).data).isSome) ∧
    (∀ k ∈ [baseMint, quoteMint], (token.unpackMint (packageChain k).data).isSome) ∧
    (∀ k ∈ [vaultAuthority, venueAuthority], (packageChain k).owner ≠ tokenProgramId) ∧
    ([baseVault, quoteVault, venueBase, venueQuote].map packageChain.tokenAmount =
      [50, 900, 70, 800]) ∧
    ([payer, pool, epoch, vaultAuthority, baseVault, quoteVault, venueAuthority, venueBase,
        venueQuote, baseMint, quoteMint, instructionsId, clockId].Nodup ∧
      ∀ k ∈ [payer, pool, epoch, vaultAuthority, baseVault, quoteVault, venueAuthority, venueBase,
        venueQuote, baseMint, quoteMint, instructionsId, clockId],
        (packageChain k).executable = false) ∧
    (packageChain tokenProgramId).executable = true ∧
    host.deserializeClock (packageChain clockId).data = some ⟨1, 6⟩ ∧
    ((packageChain epoch).owner = programId ∧ (packageChain epoch).data = packageEpoch.encode) ∧
    (packageChain pool).owner = programId ∧ (packageChain pool).data = poolState.encode := by
  decide +kernel

theorem relay_sent {r : RecomputedSettlement} (hside : r.payload.residualSide = 1)
    (hlots : r.payload.residualLots = 2) :
    SettlementSent host.toRuntime token (relayTx r.payload) packageChain payer epoch poolState
      packageEpoch r.payload := by
  obtain ⟨⟨hbaseVault, hquoteVault, hvenueBase, hvenueQuote⟩, ⟨hbaseMint, hquoteMint⟩, haccounts,
    hmints, hauthorities, hamounts, ⟨hdistinct, hplain⟩, htoken, hclock, -, -⟩ :=
    packageChain_facts
  simp only [List.map_cons, List.map_nil, List.cons.injEq, and_true] at hamounts
  obtain ⟨hbase, hquote, hvenue, hvenue'⟩ := hamounts
  refine
    { approved := relayTx_approved r.payload
      tokens := ⟨hbaseVault, hquoteVault, hvenueBase, hvenueQuote, by decide⟩
      baseMint := hbaseMint
      quoteMint := hquoteMint
      usable := ⟨haccounts, hmints, hauthorities, ?_, ?_⟩
      plain := ⟨hdistinct, hplain⟩
      tokenProgram := htoken
      clock := ⟨⟨1, 6⟩, hclock, by decide⟩
      funded := ⟨20, 200, ?_, ?_, ?_⟩ }
  · exact lt_of_eq_of_lt (congrArg₂ (· + ·) hbase hvenue) (by decide)
  · exact lt_of_eq_of_lt (congrArg₂ (· + ·) hquote hvenue') (by decide)
  · rw [hlots]
    decide
  · rw [hlots]
    decide
  · rw [hside]
    intro t ht
    simp only [settlementTransfers, if_true, List.mem_cons, List.not_mem_nil, or_false] at ht
    rcases ht with rfl | rfl
    · show 200 ≤ packageChain.tokenAmount quoteVault
      omega
    · show 20 ≤ packageChain.tokenAmount venueBase
      omega

end Sample

end Kageb
