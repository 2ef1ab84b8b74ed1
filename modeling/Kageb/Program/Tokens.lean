import Kageb.Program.Quorum

/-! Tokens: what a settlement moves, that nothing else moves any, and what the program has done to
the vaults of a pool after a whole run. -/

namespace Kageb

open Binary Checks Runs

/-- The sign of a residual: the pool buys base, or sells it. -/
def sideSign (side : UInt8) : Int := if side = 1 then 1 else if side = 2 then -1 else 0

namespace EpochStateV1

/-- What the settlement of an epoch adds to the base vault of its pool. -/
def baseChange (e : EpochStateV1) : Int :=
  sideSign e.residualSide * (e.baseLotAtoms.toNat * e.residualLots.toNat : Nat)

/-- What the settlement of an epoch adds to the quote vault of its pool. -/
def quoteChange (e : EpochStateV1) : Int :=
  -(sideSign e.residualSide * (e.quoteAtomsPerLot.toNat * e.residualLots.toNat : Nat))

end EpochStateV1

/-- The tokens of a settlement: both legs move, and no other account changes. -/
structure Chain.Settles (c : Chain) (epoch : Pubkey) (p : PoolStateV1) (e : EpochStateV1)
    (c' : Chain) : Prop where
  baseVault : (c'.tokenAmount p.poolBaseVault : Int) = c.tokenAmount p.poolBaseVault + e.baseChange
  venueBase :
    (c'.tokenAmount p.venueBaseAccount : Int) = c.tokenAmount p.venueBaseAccount - e.baseChange
  quoteVault :
    (c'.tokenAmount p.poolQuoteVault : Int) = c.tokenAmount p.poolQuoteVault + e.quoteChange
  venueQuote :
    (c'.tokenAmount p.venueQuoteAccount : Int) = c.tokenAmount p.venueQuoteAccount - e.quoteChange
  shape : ∀ k, k ≠ epoch → (c' k).SameButAmount (c k)
  frame : ∀ k, k ≠ epoch → k ≠ p.poolBaseVault → k ≠ p.poolQuoteVault →
    k ≠ p.venueBaseAccount → k ≠ p.venueQuoteAccount → (c' k).SameRecord (c k)

/-- The legs of a residual on four different accounts. -/
theorem Chain.Residual.amounts {c c' : Chain} {p : PoolStateV1} {base quote : Nat} {side : UInt8}
    (h : c.Residual p base quote side c')
    (hdistinct :
      [p.poolBaseVault, p.poolQuoteVault, p.venueBaseAccount, p.venueQuoteAccount].Nodup) :
    (c'.tokenAmount p.poolBaseVault : Int) =
      c.tokenAmount p.poolBaseVault + sideSign side * base ∧
    (c'.tokenAmount p.venueBaseAccount : Int) =
      c.tokenAmount p.venueBaseAccount - sideSign side * base ∧
    (c'.tokenAmount p.poolQuoteVault : Int) =
      c.tokenAmount p.poolQuoteVault - sideSign side * quote ∧
    (c'.tokenAmount p.venueQuoteAccount : Int) =
      c.tokenAmount p.venueQuoteAccount + sideSign side * quote := by
  simp only [List.nodup_cons, List.mem_cons, List.not_mem_nil, or_false, not_or] at hdistinct
  obtain ⟨⟨hbq, hbvb, hbvq⟩, ⟨hqvb, hqvq⟩, hvbvq, -⟩ := hdistinct
  cases h with
  | none => simp [sideSign]
  | @buy mid _ hquote hbase =>
    have h1 := Chain.tokenAmount_congr (hquote.frame p.poolBaseVault hbq hbvq)
    have h2 := Chain.tokenAmount_congr (hquote.frame p.venueBaseAccount (Ne.symm hqvb) hvbvq)
    have h3 := Chain.tokenAmount_congr (hbase.frame p.poolQuoteVault hqvb (Ne.symm hbq))
    have h4 := Chain.tokenAmount_congr
      (hbase.frame p.venueQuoteAccount (Ne.symm hvbvq) (Ne.symm hbvq))
    have h5 := hquote.debit
    have h6 := hquote.credit
    have h7 := hbase.debit
    have h8 := hbase.credit
    simp only [sideSign, if_true]
    omega
  | @sell mid _ hbase hquote =>
    have h1 := Chain.tokenAmount_congr (hbase.frame p.poolQuoteVault (Ne.symm hbq) hqvb)
    have h2 := Chain.tokenAmount_congr
      (hbase.frame p.venueQuoteAccount (Ne.symm hbvq) (Ne.symm hvbvq))
    have h3 := Chain.tokenAmount_congr (hquote.frame p.poolBaseVault hbvq hbq)
    have h4 := Chain.tokenAmount_congr (hquote.frame p.venueBaseAccount hvbvq (Ne.symm hqvb))
    have h5 := hbase.debit
    have h6 := hbase.credit
    have h7 := hquote.debit
    have h8 := hquote.credit
    have hside : sideSign 2 = -1 := by decide
    rw [hside]
    omega

section Step

variable {rt : Runtime} {tx : InstructionsSysvar} {c c' : Chain} {accounts : List AccountMeta}
  {instruction : KagebInstruction}

theorem Chain.tokenAmount_write {k key : Pubkey} {data : Bytes} (h : k ≠ key) :
    (c.write key data).tokenAmount k = c.tokenAmount k := by
  simp only [Chain.tokenAmount, Chain.write_of_ne h]

theorem systemProgramId_ne_tokenProgramId : systemProgramId ≠ tokenProgramId := by decide

/-- Everything a successful settlement does. -/
structure Runtime.SettleStep (rt : Runtime) (tx : InstructionsSysvar) (c : Chain)
    (accounts : List AccountMeta) (compact : CompactSettlementPayload) (c' : Chain)
    (pool epoch : Pubkey) (p : PoolStateV1) (e e' : EpochStateV1) : Prop where
  named : keyAt accounts 2 = some epoch
  valid : rt.Named c pool epoch p e
  tokens : rt.TokensValid c pool p
  signer : ∃ m ∈ accounts, m.key = p.venueAuthority ∧ m.isSigner = true
  accepted : SettlementAccepted rt tx c epoch p e compact
  record : e' = e.withSettlement compact
    ((Runtime.rebuildSettlement epoch p e compact).digest rt.sha256)
  epochAt : c'.EpochAt epoch e'
  settles : c.Settles epoch p e' c'

theorem Runtime.Step.settleStep {compact : CompactSettlementPayload}
    (h : rt.Step tx c accounts (.settle compact) c') :
    ∃ pool epoch p e e', rt.SettleStep tx c accounts compact c' pool epoch p e e' := by
  cases h with
  | @settle _ pool epoch p e moved named valid tokens signer accepted residual =>
    have howner : (c epoch).owner ≠ tokenProgramId := by
      rw [valid.epochAt.1]
      exact programId_ne_tokenProgramId
    obtain ⟨hbv, hqv, hvb, hvq⟩ := tokens.ne_of_owner howner
    obtain ⟨h1, h2, h3, h4⟩ := residual.amounts tokens.distinct
    have hepoch := residual.programOwned tokens valid.epochAt.1
    refine ⟨pool, epoch, p, e, _, named, valid, tokens, signer, accepted, rfl,
      .write _ (hepoch.1.trans valid.epochAt.1), ?_, ?_, ?_, ?_, ?_, ?_⟩
    · rw [Chain.tokenAmount_write (Ne.symm hbv)]
      exact h1
    · rw [Chain.tokenAmount_write (Ne.symm hvb)]
      exact h2
    · rw [Chain.tokenAmount_write (Ne.symm hqv), h3]
      simp only [EpochStateV1.quoteChange, EpochStateV1.withSettlement]
      omega
    · rw [Chain.tokenAmount_write (Ne.symm hvq), h4]
      simp only [EpochStateV1.quoteChange, EpochStateV1.withSettlement]
      omega
    · intro k hk
      rw [Chain.write_of_ne hk]
      exact residual.shape k
    · intro k hk hkbv hkqv hkvb hkvq
      rw [Chain.write_of_ne hk]
      exact residual.frame hkbv hkqv hkvb hkvq

/-- Nothing but a settlement touches a token account. -/
theorem Runtime.Step.tokens_kept (h : rt.Step tx c accounts instruction c')
    (hinstruction : ∀ compact, instruction ≠ .settle compact) {k : Pubkey}
    (hk : (c k).owner = tokenProgramId) : (c' k).SameRecord (c k) := by
  have hepoch : ∀ {key e}, c.EpochAt key e → k ≠ key := by
    rintro key e hat rfl
    exact programId_ne_tokenProgramId (hat.1.symm.trans hk)
  have hvacant : ∀ {key made}, c.Created key made → k ≠ key := by
    rintro key made hmade rfl
    exact systemProgramId_ne_tokenProgramId (hmade.vacant.symm.trans hk)
  cases h with
  | initializePool named created =>
    rw [Chain.write_of_ne (hvacant created)]
    exact created.rest k (hvacant created)
  | createEpoch named ne poolAt poolValid created =>
    rw [Chain.write_of_ne (hvacant created)]
    exact created.rest k (hvacant created)
  | lock named valid =>
    rw [Chain.write_of_ne (hepoch valid.epochAt)]
    exact Account.SameRecord.refl _
  | settle => exact absurd rfl (hinstruction _)
  | expire named valid =>
    rw [Chain.write_of_ne (hepoch valid.epochAt)]
    exact Account.SameRecord.refl _
  | abort named valid =>
    rw [Chain.write_of_ne (hepoch valid.epochAt)]
    exact Account.SameRecord.refl _

end Step

/-! ### Whole runs -/

/-- Other programs may change how much a token account holds, but not its mint or its authority. -/
def Chain.TokensKept (c c' : Chain) : Prop :=
  ∀ k, (c k).owner = tokenProgramId →
    (c' k).owner = tokenProgramId ∧ (c' k).data.take 64 = (c k).data.take 64

/-- The chain, and how much calls of the program have added to each token account. -/
structure Books where
  chain : Chain
  caused : Pubkey → Int

def Books.call (b : Books) (c' : Chain) : Books where
  chain := c'
  caused k := b.caused k +
    if (b.chain k).owner = tokenProgramId then (c'.tokenAmount k : Int) - b.chain.tokenAmount k
    else 0

/-- A step of the chain with its books. The vault authorities are addresses without a key, which no
caller can sign for. -/
inductive Runtime.MarketStep (rt : Runtime) : Books → Event → Books → Prop
  | invoke (b : Books) (tx : InstructionsSysvar) (accounts : List AccountMeta) (data : Bytes)
      (signers : ∀ m ∈ accounts, m.isSigner = true →
        ∀ pool, m.key ≠ (rt.vaultAuthorityAddress pool).1) :
      MarketStep rt b (.invoke tx accounts data) (b.call (rt.execute tx b.chain accounts data))
  | other {b : Books} {c' : Chain} (interference : b.chain.Interference c')
      (kept : b.chain.TokensKept c') : MarketStep rt b .other { b with chain := c' }

theorem Runtime.MarketStep.chainStep {rt : Runtime} {b b' : Books} {event : Event}
    (h : rt.MarketStep b event b') : rt.ChainStep b.chain event b'.chain := by
  cases h with
  | invoke tx accounts data => exact .invoke b.chain tx accounts data
  | other interference => exact .other interference

/-- What the settlement of an epoch does to an account, by its place in the pool. -/
def PoolStateV1.change (p : PoolStateV1) (k : Pubkey) (e : EpochStateV1) : Int :=
  if k = p.poolBaseVault then e.baseChange else if k = p.poolQuoteVault then e.quoteChange else 0

/-- A token account that the vault authority of `pool` may spend from. -/
def Runtime.Under (rt : Runtime) (c : Chain) (pool k : Pubkey) : Prop :=
  (c k).owner = tokenProgramId ∧
    slice (c k).data 32 64 = (rt.vaultAuthorityAddress pool).1.bytes

/-- `settled` is the set of the settled epochs of `pool`. -/
def Chain.SettledOf (c : Chain) (pool : Pubkey) (settled : Finset (Pubkey × EpochStateV1)) :
    Prop :=
  ∀ k e, (k, e) ∈ settled ↔ c.EpochAt k e ∧ e.pool = pool ∧ e.terminalState = .settled

/-- The vaults of `p` are two token accounts under the authority of `pool`. -/
structure Runtime.VaultsUnder (rt : Runtime) (c : Chain) (pool : Pubkey) (p : PoolStateV1) :
    Prop where
  base : rt.Under c pool p.poolBaseVault
  quote : rt.Under c pool p.poolQuoteVault
  ne : p.poolQuoteVault ≠ p.poolBaseVault

/-- The books agree with the settled epochs of `pool`. -/
structure Runtime.Booked (rt : Runtime) (pool : Pubkey) (b : Books)
    (settled : Finset (Pubkey × EpochStateV1)) : Prop where
  settledOf : b.chain.SettledOf pool settled
  outside : ∀ k, (b.chain k).owner ≠ tokenProgramId → b.caused k = 0
  before : (∀ p, ¬b.chain.PoolAt pool p) → ∀ k, rt.Under b.chain pool k → b.caused k = 0
  vaults : ∀ p, b.chain.PoolAt pool p → rt.VaultsUnder b.chain pool p
  sum : ∀ p, b.chain.PoolAt pool p → ∀ k, rt.Under b.chain pool k →
    b.caused k = ∑ x ∈ settled, p.change k x.2

theorem slice_eq_drop_take (bs : Bytes) (start stop : Nat) :
    slice bs start stop = (bs.take stop).drop start := by
  rw [slice, List.drop_take]

section Books

variable {rt : Runtime} {b : Books} {c' : Chain} {pool : Pubkey}
  {settled : Finset (Pubkey × EpochStateV1)}

theorem Runtime.Under.of_take {c : Chain} {k : Pubkey} (h : rt.Under c pool k)
    (howner : (c' k).owner = tokenProgramId) (htake : (c' k).data.take 64 = (c k).data.take 64) :
    rt.Under c' pool k := by
  refine ⟨howner, ?_⟩
  rw [slice_eq_drop_take, htake, ← slice_eq_drop_take]
  exact h.2

theorem Chain.TokensKept.under {c : Chain} (h : c.TokensKept c') {k : Pubkey}
    (hk : rt.Under c pool k) : rt.Under c' pool k :=
  hk.of_take (h k hk.1).1 (h k hk.1).2

theorem Chain.TokensKept.under_iff {c : Chain} (h : c.TokensKept c') {k : Pubkey}
    (hk : (c k).owner = tokenProgramId) : rt.Under c' pool k ↔ rt.Under c pool k :=
  ⟨fun h' => h'.of_take hk (h k hk).2.symm, h.under⟩

theorem Chain.TokensKept.vaultsUnder {c : Chain} (h : c.TokensKept c') {p : PoolStateV1}
    (hp : rt.VaultsUnder c pool p) : rt.VaultsUnder c' pool p :=
  ⟨h.under hp.base, h.under hp.quote, hp.ne⟩

theorem Runtime.TokensValid.vaultsUnder {c : Chain} {p : PoolStateV1}
    (h : rt.TokensValid c pool p) : rt.VaultsUnder c pool p := by
  have hdistinct := h.distinct
  simp only [List.nodup_cons, List.mem_cons, not_or] at hdistinct
  exact ⟨⟨h.baseVault.owner, h.baseVault.authority⟩, ⟨h.quoteVault.owner, h.quoteVault.authority⟩,
    Ne.symm hdistinct.1.1⟩

theorem Books.call_self (b : Books) : b.call b.chain = b := by
  simp [Books.call]

/-- A step that moves no tokens and settles nothing keeps the books. -/
theorem Runtime.Booked.quiet (h : rt.Booked pool b settled) (hsound : rt.Sound b.chain)
    (hkept : b.chain.TokensKept c')
    (hsettled : ∀ k e, e.terminalState = .settled → (c'.EpochAt k e ↔ b.chain.EpochAt k e))
    (hpools : ∀ p, b.chain.PoolAt pool p → c'.PoolAt pool p)
    (hborn : ∀ p, c'.PoolAt pool p → b.chain.PoolAt pool p ∨
      (∀ q, ¬b.chain.PoolAt pool q) ∧ rt.VaultsUnder c' pool p) :
    rt.Booked pool { b with chain := c' } settled := by
  have hvaults : ∀ p, c'.PoolAt pool p → rt.VaultsUnder c' pool p := by
    intro p hp
    rcases hborn p hp with hold | ⟨-, hnew⟩
    · exact hkept.vaultsUnder (h.vaults p hold)
    · exact hnew
  refine ⟨?_, ?_, ?_, hvaults, ?_⟩
  · intro k e
    rw [h.settledOf k e]
    constructor
    · rintro ⟨he, hpool, hstate⟩
      exact ⟨(hsettled k e hstate).mpr he, hpool, hstate⟩
    · rintro ⟨he, hpool, hstate⟩
      exact ⟨(hsettled k e hstate).mp he, hpool, hstate⟩
  · intro k hk
    exact h.outside k fun howner => hk (hkept k howner).1
  · intro hno k hk
    by_cases howner : (b.chain k).owner = tokenProgramId
    · exact h.before (fun p hp => hno p (hpools p hp)) k ((hkept.under_iff howner).mp hk)
    · exact h.outside k howner
  · intro p hp k hk
    rcases hborn p hp with hold | ⟨hno, -⟩
    · by_cases howner : (b.chain k).owner = tokenProgramId
      · exact h.sum p hold k ((hkept.under_iff howner).mp hk)
      · have hbase : k ≠ p.poolBaseVault := by
          rintro rfl
          exact howner (h.vaults p hold).base.1
        have hquote : k ≠ p.poolQuoteVault := by
          rintro rfl
          exact howner (h.vaults p hold).quote.1
        rw [h.outside k howner]
        simp [PoolStateV1.change, hbase, hquote]
    · -- an epoch of `pool` would have its pool already
      have hempty : settled = ∅ := by
        refine Finset.eq_empty_of_forall_notMem fun ⟨k, e⟩ hmem => ?_
        obtain ⟨he, hpool, -⟩ := (h.settledOf k e).mp hmem
        obtain ⟨q, hq⟩ := hsound k e he
        exact hno q (hpool ▸ hq.poolAt)
      have hzero : b.caused k = 0 := by
        by_cases howner : (b.chain k).owner = tokenProgramId
        · exact h.before hno k ((hkept.under_iff howner).mp hk)
        · exact h.outside k howner
      rw [hempty, Finset.sum_empty]
      exact hzero

section Call

variable {tx : InstructionsSysvar} {accounts : List AccountMeta} {instruction : KagebInstruction}

theorem Runtime.Step.tokensKept (h : rt.Step tx b.chain accounts instruction c') :
    b.chain.TokensKept c' := by
  intro k hk
  by_cases hsettle : ∃ compact, instruction = .settle compact
  · obtain ⟨compact, rfl⟩ := hsettle
    obtain ⟨_, epoch, _, _, _, hstep⟩ := h.settleStep
    have hne : k ≠ epoch := by
      rintro rfl
      exact programId_ne_tokenProgramId (hstep.valid.epochAt.1.symm.trans hk)
    have hshape := hstep.settles.shape k hne
    exact ⟨hshape.owner.trans hk, hshape.before⟩
  · have hsame := h.tokens_kept (fun compact heq => hsettle ⟨compact, heq⟩) hk
    exact ⟨hsame.1.trans hk, by rw [hsame.2.2]⟩

theorem Books.call_quiet (hsame : ∀ k, (b.chain k).owner = tokenProgramId →
    (c' k).SameRecord (b.chain k)) : b.call c' = { b with chain := c' } := by
  have hcaused : (b.call c').caused = b.caused := by
    funext k
    simp only [Books.call]
    split
    case isTrue hk => rw [Chain.tokenAmount_congr (hsame k hk), sub_self, add_zero]
    case isFalse => exact add_zero _
  simp only [Books.call] at hcaused ⊢
  rw [hcaused]

/-- No other instruction makes a settled epoch or unmakes one. -/
theorem Runtime.Step.settled_iff {c : Chain} (h : rt.Step tx c accounts instruction c')
    (hinstruction : ∀ compact, instruction ≠ .settle compact) (k : Pubkey) (e : EpochStateV1)
    (hstate : e.terminalState = .settled) : c'.EpochAt k e ↔ c.EpochAt k e := by
  constructor
  · intro he
    rcases h.epoch_born he with ⟨e₀, he₀⟩ | ⟨hfresh, -⟩
    · obtain ⟨e', he', hedge⟩ := h.epoch_kept he₀
      cases he.unique he'
      rcases hedge with rfl | hedge
      · exact he₀
      · obtain ⟨key, hnamed, -, hframe⟩ := h.target
        by_cases hkey : k = key
        · subst hkey
          exfalso
          cases h with
          | initializePool named created =>
            cases named.symm.trans hnamed
            exact not_programOwned_of_vacant created.vacant he₀.1
          | createEpoch named _ _ _ created =>
            cases named.symm.trans hnamed
            exact not_programOwned_of_vacant created.vacant he₀.1
          | lock named valid =>
            cases named.symm.trans hnamed
            cases he.unique (.write _ valid.epochAt.1)
            cases hstate
          | settle => exact hinstruction _ rfl
          | expire named valid =>
            cases named.symm.trans hnamed
            cases he.unique (.write _ valid.epochAt.1)
            cases hstate
          | abort named valid =>
            cases named.symm.trans hnamed
            cases he.unique (.write _ valid.epochAt.1)
            cases hstate
        · exact he.congr (hframe k hkey (Or.inr he.1)).symm
    · exact absurd (hfresh.terminalState.symm.trans hstate) (by decide)
  · intro he
    obtain ⟨e', he', hedge⟩ := h.epoch_kept he
    rcases hedge with rfl | hedge
    · exact he'
    · exact absurd (Or.inl hstate) hedge.not_final

theorem Runtime.Booked.step_quiet (h : rt.Booked pool b settled) (hsound : rt.Sound b.chain)
    (hstep : rt.Step tx b.chain accounts instruction c')
    (hinstruction : ∀ compact, instruction ≠ .settle compact) :
    rt.Booked pool (b.call c') settled := by
  rw [Books.call_quiet fun k hk => hstep.tokens_kept hinstruction hk]
  have hkept := hstep.tokensKept
  refine h.quiet hsound hkept (hstep.settled_iff hinstruction) (fun p hp => hstep.pool_kept hp) ?_
  intro p hp
  by_cases hmade : ∃ args, instruction = .initializePool args
  · obtain ⟨args, rfl⟩ := hmade
    cases hstep with
    | @initializePool _ made p' chain named created valid tokens =>
      by_cases hkey : pool = made
      · subst hkey
        have hat : (chain.write pool p'.encode).PoolAt pool p' :=
          ⟨by simpa using created.owner, by simp⟩
        cases hp.unique hat
        exact Or.inr ⟨fun q hq => not_programOwned_of_vacant created.vacant hq.1,
          hkept.vaultsUnder tokens.vaultsUnder⟩
      · have hsame : ((chain.write made p'.encode) pool).SameRecord (b.chain pool) := by
          rw [Chain.write_of_ne hkey]
          exact created.rest pool hkey
        exact Or.inl (hp.congr hsame.symm)
  · exact Or.inl (hstep.pool_born (fun args heq => hmade ⟨args, heq⟩) hp)

/-- What a settlement does to an account under the authority of `pool`: nothing, unless `pool` is
the pool that settles. -/
theorem Runtime.SettleStep.change_under {compact : CompactSettlementPayload} {c : Chain}
    {pool' epoch k : Pubkey} {p : PoolStateV1} {e e' : EpochStateV1} {pools : Set Pubkey}
    (h : rt.SettleStep tx c accounts compact c' pool' epoch p e e')
    (signers : ∀ m ∈ accounts, m.isSigner = true →
      ∀ pool, m.key ≠ (rt.vaultAuthorityAddress pool).1)
    (hinj : Set.InjOn (fun pool => (rt.vaultAuthorityAddress pool).1) pools)
    (hpool : pool ∈ pools) (hpool' : pool' ∈ pools) (hk : rt.Under c pool k) :
    (c'.tokenAmount k : Int) - c.tokenAmount k = if pool' = pool then p.change k e' else 0 := by
  have hvault : slice (c k).data 32 64 = (rt.vaultAuthorityAddress pool').1.bytes →
      pool' = pool := by
    intro hauthority
    exact hinj hpool' hpool (ByteVec.bytes_inj.mp (hauthority.symm.trans hk.2))
  have hvenue : slice (c k).data 32 64 ≠ p.venueAuthority.bytes := by
    intro hauthority
    obtain ⟨m, hm, hkey, hsigner⟩ := h.signer
    refine signers m hm hsigner pool ?_
    rw [hkey]
    exact ByteVec.bytes_inj.mp (hauthority.symm.trans hk.2)
  have hdistinct := h.tokens.distinct
  simp only [List.nodup_cons, List.mem_cons, not_or] at hdistinct
  by_cases hbv : k = p.poolBaseVault
  · subst hbv
    rw [if_pos (hvault h.tokens.baseVault.authority), h.settles.baseVault, PoolStateV1.change,
      if_pos rfl]
    omega
  · by_cases hqv : k = p.poolQuoteVault
    · subst hqv
      rw [if_pos (hvault h.tokens.quoteVault.authority), h.settles.quoteVault, PoolStateV1.change,
        if_neg hbv, if_pos rfl]
      omega
    · have hvb : k ≠ p.venueBaseAccount := by
        rintro rfl
        exact hvenue h.tokens.venueBase.authority
      have hvq : k ≠ p.venueQuoteAccount := by
        rintro rfl
        exact hvenue h.tokens.venueQuote.authority
      have hepoch : k ≠ epoch := by
        rintro rfl
        exact programId_ne_tokenProgramId (h.valid.epochAt.1.symm.trans hk.1)
      rw [Chain.tokenAmount_congr (h.settles.frame k hepoch hbv hqv hvb hvq), sub_self,
        PoolStateV1.change, if_neg hbv, if_neg hqv, ite_self]

/-- After a settlement the settled epochs are those before and the one that it names. -/
theorem Runtime.SettleStep.settled_iff {compact : CompactSettlementPayload} {c : Chain}
    {pool' epoch : Pubkey} {p : PoolStateV1} {e e' : EpochStateV1}
    (h : rt.SettleStep tx c accounts compact c' pool' epoch p e e') (k : Pubkey)
    (x : EpochStateV1) (hstate : x.terminalState = .settled) :
    c'.EpochAt k x ↔ (k, x) = (epoch, e') ∨ c.EpochAt k x := by
  have htokens := h.tokens
  have hsame : ∀ k, k ≠ epoch → (c k).owner = programId → (c' k).SameRecord (c k) := by
    intro k hk howner
    obtain ⟨hbv, hqv, hvb, hvq⟩ := htokens.ne_of_owner (howner ▸ programId_ne_tokenProgramId)
    exact h.settles.frame k hk hbv hqv hvb hvq
  constructor
  · intro hx
    by_cases hk : k = epoch
    · subst hk
      exact Or.inl (by rw [hx.unique h.epochAt])
    · have howner : (c k).owner = programId := (h.settles.shape k hk).owner.symm.trans hx.1
      exact Or.inr (hx.congr (hsame k hk howner).symm)
  · rintro (heq | hx)
    · cases heq
      exact h.epochAt
    · have hk : k ≠ epoch := by
        rintro rfl
        cases hx.unique h.valid.epochAt
        exact absurd (h.accepted.terminalState.symm.trans hstate) (by decide)
      exact hx.congr (hsame k hk hx.1)

theorem Runtime.SettleStep.settledOf {compact : CompactSettlementPayload} {c : Chain}
    {pool' epoch : Pubkey} {p : PoolStateV1} {e e' : EpochStateV1}
    (h : rt.SettleStep tx c accounts compact c' pool' epoch p e e')
    (hold : c.SettledOf pool settled) [DecidableEq (Pubkey × EpochStateV1)] :
    c'.SettledOf pool (if pool' = pool then insert (epoch, e') settled else settled) := by
  intro k x
  have hpoolOf : e'.pool = pool' := by
    rw [h.record]
    exact h.valid.epochValid.pool_eq
  have hstate : e'.terminalState = .settled := by
    rw [h.record]
    rfl
  have hmem : (k, x) ∈ (if pool' = pool then insert (epoch, e') settled else settled) ↔
      ((k, x) = (epoch, e') ∧ pool' = pool) ∨ (k, x) ∈ settled := by
    split_ifs with heq <;> simp [heq]
  rw [hmem, hold k x]
  constructor
  · rintro (⟨hx, heq⟩ | ⟨hx, hxpool, hsettled⟩)
    · cases hx
      exact ⟨h.epochAt, hpoolOf.trans heq, hstate⟩
    · exact ⟨(h.settled_iff k x hsettled).mpr (Or.inr hx), hxpool, hsettled⟩
  · rintro ⟨hx, hxpool, hsettled⟩
    rcases (h.settled_iff k x hsettled).mp hx with heq | hx'
    · cases heq
      exact Or.inl ⟨rfl, hpoolOf.symm.trans hxpool⟩
    · exact Or.inr ⟨hx', hxpool, hsettled⟩

theorem Runtime.Booked.step_settle {compact : CompactSettlementPayload} {pools : Set Pubkey}
    (h : rt.Booked pool b settled) (hstep : rt.Step tx b.chain accounts (.settle compact) c')
    (signers : ∀ m ∈ accounts, m.isSigner = true →
      ∀ pool, m.key ≠ (rt.vaultAuthorityAddress pool).1)
    (hinj : Set.InjOn (fun pool => (rt.vaultAuthorityAddress pool).1) pools)
    (hpool : pool ∈ pools) (hpools : ∀ k p, b.chain.PoolAt k p → k ∈ pools) :
    ∃ settled', rt.Booked pool (b.call c') settled' := by
  classical
  obtain ⟨pool', epoch, p', e, e', hsettle⟩ := hstep.settleStep
  have hkept := hstep.tokensKept
  have hmem' := hpools pool' p' hsettle.valid.poolAt
  have hstate : e'.terminalState = .settled := by
    rw [hsettle.record]
    rfl
  have hback : ∀ p, c'.PoolAt pool p ↔ b.chain.PoolAt pool p := fun p =>
    ⟨hstep.pool_born (fun args heq => nomatch heq), hstep.pool_kept⟩
  have htoken : ∀ k, (c' k).owner = tokenProgramId → (b.chain k).owner = tokenProgramId := by
    intro k hk
    have hne : k ≠ epoch := by
      rintro rfl
      exact programId_ne_tokenProgramId (hsettle.epochAt.1.symm.trans hk)
    exact (hsettle.settles.shape k hne).owner.symm.trans hk
  have hunder : ∀ k, rt.Under c' pool k → rt.Under b.chain pool k := fun k hk =>
    (hkept.under_iff (htoken k hk.1)).mp hk
  have hcaused : ∀ k, rt.Under b.chain pool k → (b.call c').caused k =
      b.caused k + if pool' = pool then p'.change k e' else 0 := by
    intro k hk
    simp only [Books.call, hk.1, if_true]
    rw [hsettle.change_under signers hinj hpool hmem' hk]
  have hnew : (epoch, e') ∉ settled := by
    intro hmem
    obtain ⟨he, -, -⟩ := (h.settledOf epoch e').mp hmem
    cases he.unique hsettle.valid.epochAt
    exact absurd (hsettle.accepted.terminalState.symm.trans hstate) (by decide)
  refine ⟨_, hsettle.settledOf h.settledOf, ?_, ?_, ?_, ?_⟩
  · intro k hk
    have hk' : (b.chain k).owner ≠ tokenProgramId := fun howner => hk (hkept k howner).1
    simp only [Books.call, hk', if_false, add_zero]
    exact h.outside k hk'
  · intro hno k hk
    have hne : pool' ≠ pool := by
      rintro rfl
      exact hno p' (hstep.pool_kept hsettle.valid.poolAt)
    rw [hcaused k (hunder k hk), if_neg hne, add_zero]
    exact h.before (fun p hp => hno p ((hback p).mpr hp)) k (hunder k hk)
  · intro p hp
    exact hkept.vaultsUnder (h.vaults p ((hback p).mp hp))
  · intro p hp k hk
    rw [hcaused k (hunder k hk), h.sum p ((hback p).mp hp) k (hunder k hk)]
    by_cases heq : pool' = pool
    · subst heq
      cases hsettle.valid.poolAt.unique ((hback p).mp hp)
      rw [if_pos rfl, if_pos rfl, Finset.sum_insert hnew, add_comm]
    · rw [if_neg heq, if_neg heq, add_zero]

end Call

end Books

theorem Runtime.booked_of_run {rt : Runtime} (lawful : rt.Lawful) {b b' : Books}
    {es : List Event} {pool : Pubkey} {settled : Finset (Pubkey × EpochStateV1)}
    (run : Run rt.MarketStep b es b') (hsound : rt.Sound b.chain)
    (hbooked : rt.Booked pool b settled) (hpool : ∃ p, b'.chain.PoolAt pool p)
    (hinj : Set.InjOn (fun pool => (rt.vaultAuthorityAddress pool).1)
      {k | ∃ p, b'.chain.PoolAt k p}) :
    ∃ settled', rt.Booked pool b' settled' := by
  induction run generalizing settled with
  | nil => exact ⟨settled, hbooked⟩
  | @cons b mid b' event es hstep hrest ih =>
    have hmid := hstep.chainStep.sound lawful hsound
    suffices h : ∃ settled', rt.Booked pool mid settled' by
      obtain ⟨settled', h⟩ := h
      exact ih hmid h hpool hinj
    cases hstep with
    | other interference kept =>
      exact ⟨settled, hbooked.quiet hsound kept (fun k e _ => interference.epochAt_iff)
        (fun p hp => interference.poolAt_iff.mpr hp)
        fun p hp => Or.inl (interference.poolAt_iff.mp hp)⟩
    | invoke tx accounts data signers =>
      rcases Runtime.execute_cases lawful tx b.chain accounts data with
        heq | ⟨instruction, -, htake⟩
      · rw [heq, Books.call_self]
        exact ⟨settled, hbooked⟩
      · by_cases hsettle : ∃ compact, instruction = .settle compact
        · obtain ⟨compact, rfl⟩ := hsettle
          refine hbooked.step_settle htake signers hinj hpool fun k p hp => ⟨p, ?_⟩
          have hrun : Run rt.ChainStep (rt.execute tx b.chain accounts data) es b'.chain :=
            hrest.map Books.chain fun h => h.chainStep
          exact (Runtime.run_follows lawful hrun).1 k p (htake.pool_kept hp)
        · exact ⟨settled, hbooked.step_quiet hsound htake fun compact heq => hsettle ⟨compact, heq⟩⟩

theorem Chain.Genesis.booked {rt : Runtime} {c : Chain} (h : c.Genesis) (pool : Pubkey) :
    rt.Booked pool { chain := c, caused := fun _ => 0 } ∅ where
  settledOf k e := by simpa using fun he : c.EpochAt k e => absurd he.1 (h k)
  outside _ _ := rfl
  before _ _ _ := rfl
  vaults _ hp := absurd hp.1 (h pool)
  sum _ hp := absurd hp.1 (h pool)

/-- Only a successful settlement moves tokens, once for each epoch: the two legs of its residual
between the vaults and the venue. After a run, the program has changed the vaults of a pool by the
sum over its settled epochs. -/
theorem token_movements {rt : Runtime} (lawful : rt.Lawful) {c₀ : Chain} (genesis : c₀.Genesis) :
    (∀ tx c accounts data,
      (∀ err, rt.processInstruction tx c programId accounts data = .error err →
        rt.execute tx c accounts data = c) ∧
      (∀ instruction, KagebInstruction.decode data = .ok instruction →
        (∀ compact, instruction ≠ .settle compact) →
        ∀ k, (c k).owner = tokenProgramId →
          (rt.execute tx c accounts data k).SameRecord (c k)) ∧
      ∀ compact c', KagebInstruction.decode data = .ok (.settle compact) →
        rt.processInstruction tx c programId accounts data = .ok c' →
        ∃ pool epoch p e e', rt.SettleStep tx c accounts compact c' pool epoch p e e' ∧
          c'.tokenAmount p.poolBaseVault + c'.tokenAmount p.venueBaseAccount =
            c.tokenAmount p.poolBaseVault + c.tokenAmount p.venueBaseAccount ∧
          c'.tokenAmount p.poolQuoteVault + c'.tokenAmount p.venueQuoteAccount =
            c.tokenAmount p.poolQuoteVault + c.tokenAmount p.venueQuoteAccount) ∧
    (∀ es c₁ tx accounts data compact c₂ epoch, Run rt.ChainStep c₀ es c₁ →
      KagebInstruction.decode data = .ok (.settle compact) → keyAt accounts 2 = some epoch →
      rt.processInstruction tx c₁ programId accounts data = .ok c₂ →
      ∀ fs c₃ tx' accounts' data' compact' c₄, Run rt.ChainStep c₂ fs c₃ →
        KagebInstruction.decode data' = .ok (.settle compact') →
        keyAt accounts' 2 = some epoch →
        rt.processInstruction tx' c₃ programId accounts' data' ≠ .ok c₄) ∧
    (∀ es b, Run rt.MarketStep { chain := c₀, caused := fun _ => 0 } es b →
      Set.InjOn (fun pool => (rt.vaultAuthorityAddress pool).1) {k | ∃ p, b.chain.PoolAt k p} →
      ∀ pool p, b.chain.PoolAt pool p → ∃ settled, b.chain.SettledOf pool settled ∧
        b.caused p.poolBaseVault = ∑ x ∈ settled, x.2.baseChange ∧
        b.caused p.poolQuoteVault = ∑ x ∈ settled, x.2.quoteChange) := by
  refine ⟨fun tx c accounts data => ⟨?_, ?_, ?_⟩, ?_, ?_⟩
  · intro err herror
    simp only [Runtime.execute, herror]
  · intro instruction hdecode hinstruction k hk
    rcases Runtime.execute_cases lawful tx c accounts data with heq | ⟨instruction', hdecode', h⟩
    · rw [heq]
      exact Account.SameRecord.refl _
    · cases hdecode.symm.trans hdecode'
      exact h.tokens_kept hinstruction hk
  · intro compact c' hdecode hok
    obtain ⟨instruction, hdecode', hstep⟩ := Runtime.processInstruction_ok lawful hok
    cases hdecode.symm.trans hdecode'
    obtain ⟨pool, epoch, p, e, e', hsettle⟩ := hstep.settleStep
    have h1 := hsettle.settles.baseVault
    have h2 := hsettle.settles.venueBase
    have h3 := hsettle.settles.quoteVault
    have h4 := hsettle.settles.venueQuote
    exact ⟨pool, epoch, p, e, e', hsettle, by omega, by omega⟩
  · intro es c₁ tx accounts data compact c₂ epoch _ hdecode hnamed hok fs c₃ tx' accounts' data'
      compact' c₄ hrun hdecode' hnamed' hok'
    obtain ⟨_, hd, hstep⟩ := Runtime.processInstruction_ok lawful hok
    cases hdecode.symm.trans hd
    obtain ⟨_, _, _, _, e', hfirst⟩ := hstep.settleStep
    cases hnamed.symm.trans hfirst.named
    obtain ⟨_, hd', hstep'⟩ := Runtime.processInstruction_ok lawful hok'
    cases hdecode'.symm.trans hd'
    obtain ⟨_, _, _, e, _, hsecond⟩ := hstep'.settleStep
    cases hnamed'.symm.trans hsecond.named
    have hstate : e'.terminalState = .settled := by
      rw [hfirst.record]
      rfl
    obtain ⟨e₃, he₃, hfollows⟩ := (Runtime.run_follows lawful hrun).2 _ _ hfirst.epochAt
    cases he₃.unique hsecond.valid.epochAt
    have hsame := hfollows.eq_of_final (Or.inl hstate)
    rw [← hsame, hsecond.accepted.terminalState] at hstate
    cases hstate
  · intro es b run hinj pool p hp
    obtain ⟨settled, hbooked⟩ :=
      Runtime.booked_of_run lawful run genesis.sound (genesis.booked pool) ⟨p, hp⟩ hinj
    have hvaults := hbooked.vaults p hp
    refine ⟨settled, hbooked.settledOf, ?_, ?_⟩
    · rw [hbooked.sum p hp _ hvaults.base]
      simp only [PoolStateV1.change, if_true]
    · rw [hbooked.sum p hp _ hvaults.quote]
      simp only [PoolStateV1.change, hvaults.ne, if_true, if_false]

namespace Sample

def books : Books := { chain, caused := fun _ => 0 }

def invoked (b : Books) (tx : InstructionsSysvar) (accounts : List AccountMeta)
    (call : KagebInstruction) : Books :=
  b.call (rt.execute tx b.chain accounts call.encode)

def settleBooks : Books :=
  invoked (invoked (invoked (invoked books poolTx poolAccounts poolCall) epochTx epochAccounts
    epochCall) lockTx lockAccounts lockCall) settleTx settleAccounts settleCall

theorem settleBooks_chain : settleBooks.chain = settleChain := by
  simp only [settleBooks, invoked, Books.call, books, settleChain, lockChain, epochChain, poolChain]

/-- No signer of the sample market has the last byte of an address of seeds. -/
theorem signers_ok {accounts : List AccountMeta}
    (h : ∀ m ∈ accounts, m.isSigner = true → m.key.bytes.getLast? ≠ some 255) :
    ∀ m ∈ accounts, m.isSigner = true → ∀ pool, m.key ≠ (rt.vaultAuthorityAddress pool).1 := by
  intro m hm hsigner pool heq
  refine h m hm hsigner ?_
  rw [heq]
  exact List.getLast?_concat

theorem invoked_step (b : Books) (tx : InstructionsSysvar) {accounts : List AccountMeta}
    (call : KagebInstruction)
    (h : ∀ m ∈ accounts, m.isSigner = true → m.key.bytes.getLast? ≠ some 255) :
    rt.MarketStep b (.invoke tx accounts call.encode) (invoked b tx accounts call) :=
  .invoke b tx accounts call.encode (signers_ok h)

theorem market_facts :
    (∀ accounts ∈ [poolAccounts, epochAccounts, lockAccounts, settleAccounts], ∀ m ∈ accounts,
      m.isSigner = true → m.key.bytes.getLast? ≠ some 255) ∧
    settleChain.PoolAt pool poolState ∧
    settleBooks.caused baseVault = 20 ∧ settleBooks.caused quoteVault = -200 := by
  unfold Chain.PoolAt
  decide +kernel

theorem market_run : Run rt.MarketStep books
    [.invoke poolTx poolAccounts poolCall.encode, .invoke epochTx epochAccounts epochCall.encode,
      .invoke lockTx lockAccounts lockCall.encode,
      .invoke settleTx settleAccounts settleCall.encode] settleBooks := by
  have hsigners := market_facts.1
  simp only [List.forall_mem_cons, List.not_mem_nil, false_implies, implies_true,
    and_true] at hsigners
  obtain ⟨hpool, hepoch, hlock, hsettle⟩ := hsigners
  exact .cons (invoked_step _ _ _ hpool) <| .cons (invoked_step _ _ _ hepoch) <|
    .cons (invoked_step _ _ _ hlock) <| .cons (invoked_step _ _ _ hsettle) <| .nil _

theorem settleChain_poolAt : settleChain.PoolAt pool poolState := market_facts.2.1

theorem step_pools {tx : InstructionsSysvar} {c : Chain} {accounts : List AccountMeta}
    {call : KagebInstruction} (hcall : ∀ args, call ≠ .initializePool args) {k : Pubkey} {p : PoolStateV1}
    (h : (rt.execute tx c accounts call.encode).PoolAt k p) : c.PoolAt k p := by
  have hobeys := (Runtime.ChainStep.invoke c tx accounts call.encode).obeys hashes.runtime_lawful
  exact ((hobeys.others tx accounts call.encode call rfl
    (KagebInstruction.decode_encode call)).2 hcall k p).mp h

/-- The sample market has one pool. -/
theorem settleChain_pools {k : Pubkey} {p : PoolStateV1} (h : settleChain.PoolAt k p) :
    k = pool := by
  have hlock : lockChain.PoolAt k p := step_pools (by simp [settleCall]) h
  have hepoch : epochChain.PoolAt k p := step_pools (by simp [lockCall]) hlock
  have hpool : poolChain.PoolAt k p := step_pools (by simp [epochCall]) hepoch
  have hobeys := (Runtime.ChainStep.invoke chain poolTx poolAccounts poolCall.encode).obeys
    hashes.runtime_lawful
  have hothers := hobeys.others poolTx poolAccounts poolCall.encode poolCall rfl
    (KagebInstruction.decode_encode poolCall)
  by_contra hne
  have hnamed : keyAt poolAccounts poolCall.target ≠ some k := by
    intro heq
    exact hne (Option.some.inj heq).symm
  have hsame := hothers.1 k hnamed (Or.inr hpool.1)
  exact chain_genesis k (hsame.1.symm.trans hpool.1)

end Sample

/-- The settlement of the sample market has put 20 base into the pool for 200 quote, which is the
sum over its settled epochs. -/
theorem token_movements_settled :
    Sample.settleBooks.caused Sample.baseVault = 20 ∧
    Sample.settleBooks.caused Sample.quoteVault = -200 ∧
    ∃ settled, Sample.settleChain.SettledOf Sample.pool settled ∧
      (Sample.epoch, Sample.settledEpoch) ∈ settled ∧
      Sample.settleBooks.caused Sample.baseVault = ∑ x ∈ settled, x.2.baseChange ∧
      Sample.settleBooks.caused Sample.quoteVault = ∑ x ∈ settled, x.2.quoteChange := by
  obtain ⟨-, -, hbaseCaused, hquoteCaused⟩ := Sample.market_facts
  refine ⟨hbaseCaused, hquoteCaused, ?_⟩
  obtain ⟨-, -, hsum⟩ := token_movements Sample.hashes.runtime_lawful Sample.chain_genesis
  have hinj : Set.InjOn (fun pool => (Sample.rt.vaultAuthorityAddress pool).1)
      {k | ∃ p, Sample.settleBooks.chain.PoolAt k p} := by
    rw [Sample.settleBooks_chain]
    rintro k ⟨p, hp⟩ k' ⟨p', hp'⟩ -
    exact (Sample.settleChain_pools hp).trans (Sample.settleChain_pools hp').symm
  obtain ⟨settled, hsettled, hbase, hquote⟩ :=
    hsum _ _ Sample.market_run hinj Sample.pool Sample.poolState
      (Sample.settleBooks_chain ▸ Sample.settleChain_poolAt)
  rw [Sample.settleBooks_chain] at hsettled
  refine ⟨settled, hsettled, ?_, hbase, hquote⟩
  exact (hsettled _ _).mpr ⟨Sample.settleChain_epochAt, rfl, rfl⟩

end Kageb
