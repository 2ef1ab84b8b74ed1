import Kageb.Program.Lifecycle

/-! What the record of an epoch says in each of its states. The digests of a lock and of a
settlement are those of the payloads that the stored fields rebuild. -/

namespace Kageb

open Binary Checks Runs

namespace EpochStateV1

structure NoLock (e : EpochStateV1) : Prop where
  preBalanceRoot : e.preBalanceRoot = zero32
  memberRoot : e.memberRoot = zero32
  memberCount : e.memberCount = 0
  lockDigest : e.lockDigest = zero32
  lockNonce : e.lockNonce = zero32

structure NoResult (e : EpochStateV1) : Prop where
  residualSide : e.residualSide = 0
  residualLots : e.residualLots = 0
  resultCommitment : e.resultCommitment = zero32
  settlementDigest : e.settlementDigest = zero32
  settlementNonce : e.settlementNonce = zero32

/-- The lock payload that the record of an epoch rebuilds. -/
def lockPayload (epoch : Pubkey) (e : EpochStateV1) : LockPayloadV1 where
  epochAccount := epoch
  configurationHash := e.configurationHash
  preBalanceRoot := e.preBalanceRoot
  memberRoot := e.memberRoot
  memberCount := e.memberCount
  lockDeadline := e.lockDeadline
  lockNonce := e.lockNonce

/-- The settlement payload that the records of an epoch and of its pool rebuild. -/
def settlementPayload (epoch : Pubkey) (p : PoolStateV1) (e : EpochStateV1) :
    SettlementPayloadV1 where
  epochAccount := epoch
  lockDigest := e.lockDigest
  resultCommitment := e.resultCommitment
  residualSide := e.residualSide
  residualLots := e.residualLots
  baseLotAtoms := e.baseLotAtoms
  quoteAtomsPerLot := e.quoteAtomsPerLot
  baseMint := p.baseMint
  quoteMint := p.quoteMint
  poolBaseVault := p.poolBaseVault
  poolQuoteVault := p.poolQuoteVault
  venueBaseAccount := p.venueBaseAccount
  venueQuoteAccount := p.venueQuoteAccount
  venueAuthority := p.venueAuthority
  settlementNonce := e.settlementNonce

structure HasLock (sha256 : Bytes → Bytes32) (epoch : Pubkey) (e : EpochStateV1) : Prop where
  minimumCount : 4 ≤ e.minimumCount
  memberCount : e.minimumCount ≤ e.memberCount
  lockNonce : e.lockNonce ≠ zero32
  preBalanceRoot : e.preBalanceRoot ≠ zero32
  memberRoot : e.memberRoot ≠ zero32
  lockDigest : e.lockDigest = (e.lockPayload epoch).digest sha256

structure HasResult (sha256 : Bytes → Bytes32) (epoch : Pubkey) (p : PoolStateV1)
    (e : EpochStateV1) : Prop where
  residual : e.residualSide = 0 ∧ e.residualLots = 0 ∨
    (e.residualSide = 1 ∨ e.residualSide = 2) ∧ 1 ≤ e.residualLots
  settlementNonce : e.settlementNonce ≠ zero32
  freshNonce : e.settlementNonce ≠ e.lockNonce
  resultCommitment : e.resultCommitment ≠ zero32
  settlementDigest : e.settlementDigest = (e.settlementPayload epoch p).digest sha256

def Phase (sha256 : Bytes → Bytes32) (epoch : Pubkey) (p : PoolStateV1) (e : EpochStateV1) :
    Prop :=
  match e.terminalState with
  | .open | .expired => e.NoLock ∧ e.NoResult
  | .locked | .aborted => e.HasLock sha256 epoch ∧ e.NoResult
  | .settled => e.HasLock sha256 epoch ∧ e.HasResult sha256 epoch p

theorem Fresh.phase {sha256 : Bytes → Bytes32} {epoch : Pubkey} {p : PoolStateV1}
    {e : EpochStateV1} (h : e.Fresh) : e.Phase sha256 epoch p := by
  unfold Phase
  rw [h.terminalState]
  exact ⟨⟨h.preBalanceRoot, h.memberRoot, h.memberCount, h.lockDigest, h.lockNonce⟩,
    ⟨h.residualSide, h.residualLots, h.resultCommitment, h.settlementDigest, h.settlementNonce⟩⟩

theorem Phase.of_open {sha256 : Bytes → Bytes32} {epoch : Pubkey} {p : PoolStateV1}
    {e : EpochStateV1} (h : e.Phase sha256 epoch p) (hstate : e.terminalState = .open) :
    e.NoLock ∧ e.NoResult := by
  unfold Phase at h
  rw [hstate] at h
  exact h

theorem Phase.of_locked {sha256 : Bytes → Bytes32} {epoch : Pubkey} {p : PoolStateV1}
    {e : EpochStateV1} (h : e.Phase sha256 epoch p) (hstate : e.terminalState = .locked) :
    e.HasLock sha256 epoch ∧ e.NoResult := by
  unfold Phase at h
  rw [hstate] at h
  exact h

end EpochStateV1

theorem validResidual_eq_true {side : UInt8} {lots : UInt32} :
    validResidual side lots = true ↔
      side = 0 ∧ lots = 0 ∨ (side = 1 ∨ side = 2) ∧ 1 ≤ lots := by
  simp [validResidual]

theorem Runtime.EpochValid.congr {rt : Runtime} {epoch pool : Pubkey} {e e' : EpochStateV1}
    {p : PoolStateV1} (h : rt.EpochValid epoch e pool p) (hsame : e.SameConfiguration e') :
    rt.EpochValid epoch e' pool p := by
  have hconfiguration : Runtime.expectedConfiguration pool p e' =
      Runtime.expectedConfiguration pool p e := by
    simp only [Runtime.expectedConfiguration, hsame.epochId, hsame.quoteAtomsPerLot,
      hsame.minimumCount, hsame.lockDeadline, hsame.abortDeadline]
  refine ⟨hsame.pool.trans h.pool_eq, ?_, ?_, hsame.baseLotAtoms.trans h.baseLotAtoms, ?_, ?_, ?_⟩
  · rw [hsame.epochId, hsame.epochBump]
    exact h.address
  · rw [hsame.minimumCount]
    exact h.minimumCount
  · rw [hsame.quoteAtomsPerLot]
    exact h.quoteAtomsPerLot
  · rw [hsame.lockDeadline, hsame.abortDeadline]
    exact h.deadlines
  · rw [hsame.configurationHash, hconfiguration]
    exact h.configurationHash

/-- Every epoch has a pool; both are valid, and the record fits the state of the epoch. -/
structure Runtime.EpochSound (rt : Runtime) (c : Chain) (epoch : Pubkey) (e : EpochStateV1)
    (p : PoolStateV1) : Prop where
  poolAt : c.PoolAt e.pool p
  poolValid : rt.PoolValid e.pool p
  epochValid : rt.EpochValid epoch e e.pool p
  phase : e.Phase rt.sha256 epoch p

def Runtime.Sound (rt : Runtime) (c : Chain) : Prop :=
  ∀ k e, c.EpochAt k e → ∃ p, rt.EpochSound c k e p

section Preservation

variable {rt : Runtime} {tx : InstructionsSysvar} {c c' : Chain} {accounts : List AccountMeta}
  {instruction : KagebInstruction}

/-- The epoch that an instruction names is sound with the pool that it names. -/
theorem Runtime.Named.phase {pool epoch : Pubkey} {p : PoolStateV1} {e : EpochStateV1}
    (h : rt.Named c pool epoch p e) (hsound : rt.Sound c) : e.Phase rt.sha256 epoch p := by
  obtain ⟨p', hp'⟩ := hsound epoch e h.epochAt
  have hpool := hp'.poolAt
  rw [h.epochValid.pool_eq] at hpool
  rw [h.poolAt.unique hpool]
  exact hp'.phase

/-- After an edge of the epoch that an instruction names, only its phase has to be shown. -/
theorem Runtime.Named.sound_of_edge {pool epoch : Pubkey} {p : PoolStateV1}
    {e e' : EpochStateV1} (h : rt.Named c pool epoch p e) (hedge : e.Edge e')
    (hpool : c'.PoolAt pool p) (hphase : e'.Phase rt.sha256 epoch p) :
    rt.EpochSound c' epoch e' p := by
  have hsame := hedge.sameConfiguration
  have hkey : e'.pool = pool := hsame.pool.trans h.epochValid.pool_eq
  have hvalid := h.epochValid.congr hsame
  exact ⟨hkey ▸ hpool, hkey ▸ h.poolValid, hkey ▸ hvalid, hphase⟩

theorem LockAccepted.phase {epoch : Pubkey} {p : PoolStateV1} {e : EpochStateV1}
    {payload : LockPayloadV1} (h : LockAccepted rt tx c epoch p e payload)
    (hminimum : 4 ≤ e.minimumCount) (hresult : e.NoResult) :
    (e.withLock payload (payload.digest rt.sha256)).Phase rt.sha256 epoch p := by
  have hpayload : (e.withLock payload (payload.digest rt.sha256)).lockPayload epoch = payload := by
    obtain ⟨account, hash, pre, member, count, deadline, nonce⟩ := payload
    simp only [EpochStateV1.lockPayload, EpochStateV1.withLock, LockPayloadV1.mk.injEq, and_true,
      true_and]
    exact ⟨h.epochAccount.symm, h.configurationHash.symm, h.lockDeadline.symm⟩
  refine ⟨⟨hminimum, h.memberCount, h.lockNonce, h.preBalanceRoot, h.memberRoot, ?_⟩,
    ⟨hresult.residualSide, hresult.residualLots, hresult.resultCommitment,
      hresult.settlementDigest, hresult.settlementNonce⟩⟩
  rw [hpayload]
  rfl

theorem SettlementAccepted.phase {epoch : Pubkey} {p : PoolStateV1} {e : EpochStateV1}
    {compact : CompactSettlementPayload} (h : SettlementAccepted rt tx c epoch p e compact)
    (hlock : e.HasLock rt.sha256 epoch) :
    (e.withSettlement compact
      ((Runtime.rebuildSettlement epoch p e compact).digest rt.sha256)).Phase rt.sha256 epoch p :=
  ⟨⟨hlock.minimumCount, hlock.memberCount, hlock.lockNonce, hlock.preBalanceRoot,
      hlock.memberRoot, hlock.lockDigest⟩,
    ⟨validResidual_eq_true.mp h.residual, h.settlementNonce, h.freshNonce, h.resultCommitment,
      rfl⟩⟩

/-- The epoch that a successful instruction names is sound afterwards. -/
theorem Runtime.Step.sound_target (h : rt.Step tx c accounts instruction c')
    (hsound : rt.Sound c) {k : Pubkey} {e' : EpochStateV1}
    (hk : keyAt accounts instruction.target = some k) (he' : c'.EpochAt k e') :
    ∃ p, rt.EpochSound c' k e' p := by
  have hstep := h
  cases h with
  | @initializePool args pool p made named created valid tokens =>
    cases named.symm.trans hk
    have hat : (made.write k p.encode).PoolAt k p := ⟨by simpa using created.owner, by simp⟩
    exact (hat.not_epochAt he').elim
  | @createEpoch args pool epoch p e made named ne poolAt poolValid created valid fresh =>
    cases named.symm.trans hk
    cases he'.unique (.write e created.owner)
    have hpool := hstep.pool_kept poolAt
    have hkey := valid.pool_eq
    exact ⟨p, hkey ▸ hpool, hkey ▸ poolValid, hkey ▸ valid, fresh.phase⟩
  | @lock payload pool epoch p e named valid accepted =>
    cases named.symm.trans hk
    cases he'.unique (.write _ valid.epochAt.1)
    have hopen := (valid.phase hsound).of_open accepted.terminalState
    exact ⟨p, valid.sound_of_edge (EpochStateV1.withLock_edge accepted.terminalState)
      (hstep.pool_kept valid.poolAt) (accepted.phase valid.epochValid.minimumCount hopen.2)⟩
  | @settle compact pool epoch p e moved named valid tokens signer accepted residual =>
    cases named.symm.trans hk
    have hepoch := residual.programOwned tokens valid.epochAt.1
    cases he'.unique (.write _ (hepoch.1.trans valid.epochAt.1))
    have hlocked := (valid.phase hsound).of_locked accepted.terminalState
    exact ⟨p, valid.sound_of_edge (EpochStateV1.withSettlement_edge accepted.terminalState)
      (hstep.pool_kept valid.poolAt) (accepted.phase hlocked.1)⟩
  | @expire pool epoch p e named valid terminalState clock =>
    cases named.symm.trans hk
    cases he'.unique (.write _ valid.epochAt.1)
    obtain ⟨hlock, hresult⟩ := (valid.phase hsound).of_open terminalState
    exact ⟨p, valid.sound_of_edge (EpochStateV1.expire_edge terminalState)
      (hstep.pool_kept valid.poolAt)
      ⟨⟨hlock.preBalanceRoot, hlock.memberRoot, hlock.memberCount, hlock.lockDigest,
          hlock.lockNonce⟩,
        ⟨hresult.residualSide, hresult.residualLots, hresult.resultCommitment,
          hresult.settlementDigest, hresult.settlementNonce⟩⟩⟩
  | @abort pool epoch p e named valid terminalState clock =>
    cases named.symm.trans hk
    cases he'.unique (.write _ valid.epochAt.1)
    obtain ⟨hlock, hresult⟩ := (valid.phase hsound).of_locked terminalState
    exact ⟨p, valid.sound_of_edge (EpochStateV1.abort_edge terminalState)
      (hstep.pool_kept valid.poolAt)
      ⟨⟨hlock.minimumCount, hlock.memberCount, hlock.lockNonce, hlock.preBalanceRoot,
          hlock.memberRoot, hlock.lockDigest⟩,
        ⟨hresult.residualSide, hresult.residualLots, hresult.resultCommitment,
          hresult.settlementDigest, hresult.settlementNonce⟩⟩⟩

theorem Runtime.Step.sound (h : rt.Step tx c accounts instruction c') (hsound : rt.Sound c) :
    rt.Sound c' := by
  intro k e' he'
  obtain ⟨key, hnamed, -, hframe⟩ := h.target
  by_cases hkey : k = key
  · subst hkey
    exact h.sound_target hsound hnamed he'
  · have he := he'.congr (hframe k hkey (Or.inr he'.1)).symm
    obtain ⟨p, hp⟩ := hsound k e' he
    exact ⟨p, h.pool_kept hp.poolAt, hp.poolValid, hp.epochValid, hp.phase⟩

theorem Runtime.ChainStep.sound (lawful : rt.Lawful) {event : Event}
    (h : rt.ChainStep c event c') (hsound : rt.Sound c) : rt.Sound c' := by
  cases h with
  | other hother =>
    intro k e he
    obtain ⟨p, hp⟩ := hsound k e (hother.epochAt_iff.mp he)
    exact ⟨p, hother.poolAt_iff.mpr hp.poolAt, hp.poolValid, hp.epochValid, hp.phase⟩
  | invoke tx accounts data =>
    rcases Runtime.execute_cases lawful tx c accounts data with heq | ⟨instruction, -, hstep⟩
    · rw [heq]
      exact hsound
    · exact hstep.sound hsound

theorem Chain.Genesis.sound (h : c.Genesis) : rt.Sound c :=
  fun k _ hk => absurd hk.1 (h k)

theorem Runtime.sound_of_run (lawful : rt.Lawful) {c₀ : Chain} {es : List Event}
    (genesis : c₀.Genesis) (run : Run rt.ChainStep c₀ es c) : rt.Sound c :=
  run.invariant (fun hsound hstep => hstep.sound lawful hsound) genesis.sound

end Preservation

/-- In every reachable state each epoch has its pool, both pass the validation of the program, and
the record of the epoch has exactly the fields of its state, with the digests of the payloads that
it rebuilds. -/
theorem epoch_record_invariant {rt : Runtime} (lawful : rt.Lawful) {c₀ c : Chain}
    {es : List Event} (genesis : c₀.Genesis) (run : Run rt.ChainStep c₀ es c) {k : Pubkey}
    {e : EpochStateV1} (hk : c.EpochAt k e) :
    ∃ p, c.PoolAt e.pool p ∧
      (∀ pool : AccountMeta, pool.key = e.pool →
        rt.validatePoolState (c.info pool) p = .ok () ∧
        ∀ epoch : AccountMeta, epoch.key = k →
          rt.validateEpochState (c.info epoch) e (c.info pool) p = .ok ()) ∧
      (e.terminalState = .open ∨ e.terminalState = .expired → e.NoLock ∧ e.NoResult) ∧
      (e.terminalState = .locked ∨ e.terminalState = .aborted ∨ e.terminalState = .settled →
        e.HasLock rt.sha256 k) ∧
      (e.terminalState = .locked ∨ e.terminalState = .aborted → e.NoResult) ∧
      (e.terminalState = .settled → e.HasResult rt.sha256 k p) := by
  obtain ⟨p, hp⟩ := Runtime.sound_of_run lawful genesis run k e hk
  have hphase := hp.phase
  unfold EpochStateV1.Phase at hphase
  refine ⟨p, hp.poolAt, fun pool hpool => ⟨?_, fun epoch hepoch => ?_⟩, ?_, ?_, ?_, ?_⟩
  · exact Runtime.validatePoolState_ok.mpr (hpool ▸ hp.poolValid)
  · subst hepoch
    exact Runtime.validateEpochState_ok.mpr (hpool ▸ hp.epochValid)
  · rintro (h | h) <;> rw [h] at hphase <;> exact hphase
  · rintro (h | h | h) <;> rw [h] at hphase <;> exact hphase.1
  · rintro (h | h) <;> rw [h] at hphase <;> exact hphase.2
  · intro h
    rw [h] at hphase
    exact hphase.2

/-- The settled epoch of the sample market carries its result. -/
theorem epoch_record_invariant_settled :
    Sample.settleChain.EpochAt Sample.epoch Sample.settledEpoch ∧
      ∃ p, Sample.settleChain.PoolAt Sample.pool p ∧
        Sample.settledEpoch.HasLock Sample.sha256 Sample.epoch ∧
        Sample.settledEpoch.HasResult Sample.sha256 Sample.epoch p := by
  refine ⟨Sample.settleChain_epochAt, ?_⟩
  obtain ⟨p, hpool, -, -, hlock, -, hresult⟩ :=
    epoch_record_invariant Sample.hashes.runtime_lawful Sample.chain_genesis Sample.settle_run
      Sample.settleChain_epochAt
  exact ⟨p, hpool, hlock (Or.inr (Or.inr rfl)), hresult rfl⟩

end Kageb
