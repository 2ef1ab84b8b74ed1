import Kageb.Lib.Runs
import Kageb.Program.Reference

/-! The life of an epoch account over a run of the chain: calls of the program, successful or not,
and whatever other programs do in between. -/

namespace Kageb

open Binary Checks Runs

/-- What other programs can do to the accounts of the program: nothing, but for handing it new
ones, which hold only zeros. -/
structure Chain.Interference (c c' : Chain) : Prop where
  kept : ∀ k, (c k).owner = programId → (c' k).SameRecord (c k)
  fresh : ∀ k, (c k).owner ≠ programId → (c' k).owner = programId → ∀ b ∈ (c' k).data, b = 0

inductive Event where
  | invoke (tx : InstructionsSysvar) (accounts : List AccountMeta) (data : Bytes)
  | other

inductive Runtime.ChainStep (rt : Runtime) : Chain → Event → Chain → Prop
  | invoke (c : Chain) (tx : InstructionsSysvar) (accounts : List AccountMeta) (data : Bytes) :
      ChainStep rt c (.invoke tx accounts data) (rt.execute tx c accounts data)
  | other {c c' : Chain} : c.Interference c' → ChainStep rt c .other c'

def Chain.Genesis (c : Chain) : Prop := ∀ k, (c k).owner ≠ programId

namespace EpochStateV1

structure SameConfiguration (e e' : EpochStateV1) : Prop where
  pool : e'.pool = e.pool
  epochId : e'.epochId = e.epochId
  epochBump : e'.epochBump = e.epochBump
  configurationHash : e'.configurationHash = e.configurationHash
  minimumCount : e'.minimumCount = e.minimumCount
  baseLotAtoms : e'.baseLotAtoms = e.baseLotAtoms
  quoteAtomsPerLot : e'.quoteAtomsPerLot = e.quoteAtomsPerLot
  lockDeadline : e'.lockDeadline = e.lockDeadline
  abortDeadline : e'.abortDeadline = e.abortDeadline

structure SameLock (e e' : EpochStateV1) : Prop where
  preBalanceRoot : e'.preBalanceRoot = e.preBalanceRoot
  memberRoot : e'.memberRoot = e.memberRoot
  memberCount : e'.memberCount = e.memberCount
  lockDigest : e'.lockDigest = e.lockDigest
  lockNonce : e'.lockNonce = e.lockNonce

structure SameResult (e e' : EpochStateV1) : Prop where
  residualSide : e'.residualSide = e.residualSide
  residualLots : e'.residualLots = e.residualLots
  resultCommitment : e'.resultCommitment = e.resultCommitment
  settlementDigest : e'.settlementDigest = e.settlementDigest
  settlementNonce : e'.settlementNonce = e.settlementNonce

/-- The edges between the states of an epoch, with the fields that each may change. -/
inductive Edge (e e' : EpochStateV1) : Prop
  | lock : e.terminalState = .open → e'.terminalState = .locked → e.SameConfiguration e' →
      e.SameResult e' → Edge e e'
  | expire : e.terminalState = .open → e'.terminalState = .expired → e.SameConfiguration e' →
      e.SameLock e' → e.SameResult e' → Edge e e'
  | settle : e.terminalState = .locked → e'.terminalState = .settled → e.SameConfiguration e' →
      e.SameLock e' → Edge e e'
  | abort : e.terminalState = .locked → e'.terminalState = .aborted → e.SameConfiguration e' →
      e.SameLock e' → e.SameResult e' → Edge e e'

end EpochStateV1

/-- `Settled`, `Expired` and `Aborted`. -/
def EpochTerminalState.Final (s : EpochTerminalState) : Prop :=
  s = .settled ∨ s = .expired ∨ s = .aborted

/-- Where an instruction names the account that it creates or changes. -/
def KagebInstruction.target : KagebInstruction → Nat
  | createEpoch _ => 3
  | _ => 2

/-! ### One step -/

@[simp] theorem Chain.write_self (c : Chain) (key : Pubkey) (data : Bytes) :
    c.write key data key = { c key with data } := by
  simp [Chain.write]

theorem Chain.write_of_ne {c : Chain} {key k : Pubkey} {data : Bytes} (h : k ≠ key) :
    c.write key data k = c k := by
  simp [Chain.write, h]

theorem Account.SameRecord.symm {a b : Account} (h : a.SameRecord b) : b.SameRecord a :=
  ⟨h.1.symm, h.2.1.symm, h.2.2.symm⟩

theorem Chain.PoolAt.congr {c c' : Chain} {k : Pubkey} {p : PoolStateV1} (h : c.PoolAt k p)
    (hsame : (c' k).SameRecord (c k)) : c'.PoolAt k p :=
  ⟨hsame.1.trans h.1, hsame.2.2.trans h.2⟩

theorem Chain.EpochAt.congr {c c' : Chain} {k : Pubkey} {e : EpochStateV1} (h : c.EpochAt k e)
    (hsame : (c' k).SameRecord (c k)) : c'.EpochAt k e :=
  ⟨hsame.1.trans h.1, hsame.2.2.trans h.2⟩

theorem Chain.EpochAt.unique {c : Chain} {k : Pubkey} {e e' : EpochStateV1} (h : c.EpochAt k e)
    (h' : c.EpochAt k e') : e = e' :=
  EpochStateV1.encode_injective (h.2.symm.trans h'.2)

theorem Chain.PoolAt.unique {c : Chain} {k : Pubkey} {p p' : PoolStateV1} (h : c.PoolAt k p)
    (h' : c.PoolAt k p') : p = p' :=
  PoolStateV1.encode_injective (h.2.symm.trans h'.2)

theorem Chain.PoolAt.not_epochAt {c : Chain} {k : Pubkey} {p : PoolStateV1} {e : EpochStateV1}
    (h : c.PoolAt k p) (h' : c.EpochAt k e) : False :=
  PoolStateV1.encode_ne_epoch p e (h.2.symm.trans h'.2)

theorem Chain.EpochAt.write {c : Chain} {k : Pubkey} (e : EpochStateV1)
    (howner : (c k).owner = programId) : (c.write k e.encode).EpochAt k e := by
  simp [Chain.EpochAt, howner]

/-- The transfers of a settlement change only token accounts. -/
theorem Chain.Residual.shape {c c' : Chain} {p : PoolStateV1} {base quote : Nat} {side : UInt8}
    (h : c.Residual p base quote side c') (k : Pubkey) : (c' k).SameButAmount (c k) := by
  cases h with
  | none => exact (Account.SameRecord.refl _).sameButAmount
  | buy hfirst hsecond => exact (hsecond.shape k).trans (hfirst.shape k)
  | sell hfirst hsecond => exact (hsecond.shape k).trans (hfirst.shape k)

theorem Chain.Residual.frame {c c' : Chain} {p : PoolStateV1} {base quote : Nat} {side : UInt8}
    (h : c.Residual p base quote side c') {k : Pubkey} (hbv : k ≠ p.poolBaseVault)
    (hqv : k ≠ p.poolQuoteVault) (hvb : k ≠ p.venueBaseAccount) (hvq : k ≠ p.venueQuoteAccount) :
    (c' k).SameRecord (c k) := by
  cases h with
  | none => exact Account.SameRecord.refl _
  | buy hfirst hsecond => exact (hsecond.frame k hvb hbv).trans (hfirst.frame k hqv hvq)
  | sell hfirst hsecond => exact (hsecond.frame k hvq hqv).trans (hfirst.frame k hbv hvb)

theorem Runtime.TokensValid.ne_of_owner {rt : Runtime} {c : Chain} {pool k : Pubkey}
    {p : PoolStateV1} (h : rt.TokensValid c pool p) (hk : (c k).owner ≠ tokenProgramId) :
    k ≠ p.poolBaseVault ∧ k ≠ p.poolQuoteVault ∧ k ≠ p.venueBaseAccount ∧
      k ≠ p.venueQuoteAccount := by
  refine ⟨?_, ?_, ?_, ?_⟩ <;> rintro rfl
  · exact hk h.baseVault.owner
  · exact hk h.quoteVault.owner
  · exact hk h.venueBase.owner
  · exact hk h.venueQuote.owner

theorem programId_ne_tokenProgramId : programId ≠ tokenProgramId := by decide

theorem systemProgramId_ne_programId : systemProgramId ≠ programId := by decide

/-- An account that belongs to the program keeps its record through the transfers. -/
theorem Chain.Residual.programOwned {rt : Runtime} {c c' : Chain} {pool : Pubkey}
    {p : PoolStateV1} {base quote : Nat} {side : UInt8} (h : c.Residual p base quote side c')
    (htokens : rt.TokensValid c pool p) {k : Pubkey} (hk : (c k).owner = programId) :
    (c' k).SameRecord (c k) := by
  have hne : (c k).owner ≠ tokenProgramId := by
    rw [hk]
    exact programId_ne_tokenProgramId
  obtain ⟨hbv, hqv, hvb, hvq⟩ := htokens.ne_of_owner hne
  exact h.frame hbv hqv hvb hvq

theorem EpochStateV1.withLock_edge {e : EpochStateV1} {payload : LockPayloadV1} {digest : Bytes32}
    (h : e.terminalState = .open) : e.Edge (e.withLock payload digest) :=
  .lock h rfl ⟨rfl, rfl, rfl, rfl, rfl, rfl, rfl, rfl, rfl⟩ ⟨rfl, rfl, rfl, rfl, rfl⟩

theorem EpochStateV1.withSettlement_edge {e : EpochStateV1} {compact : CompactSettlementPayload}
    {digest : Bytes32} (h : e.terminalState = .locked) :
    e.Edge (e.withSettlement compact digest) :=
  .settle h rfl ⟨rfl, rfl, rfl, rfl, rfl, rfl, rfl, rfl, rfl⟩ ⟨rfl, rfl, rfl, rfl, rfl⟩

theorem EpochStateV1.expire_edge {e : EpochStateV1} (h : e.terminalState = .open) :
    e.Edge { e with terminalState := .expired } :=
  .expire h rfl ⟨rfl, rfl, rfl, rfl, rfl, rfl, rfl, rfl, rfl⟩ ⟨rfl, rfl, rfl, rfl, rfl⟩
    ⟨rfl, rfl, rfl, rfl, rfl⟩

theorem EpochStateV1.abort_edge {e : EpochStateV1} (h : e.terminalState = .locked) :
    e.Edge { e with terminalState := .aborted } :=
  .abort h rfl ⟨rfl, rfl, rfl, rfl, rfl, rfl, rfl, rfl, rfl⟩ ⟨rfl, rfl, rfl, rfl, rfl⟩
    ⟨rfl, rfl, rfl, rfl, rfl⟩

/-- What a successful instruction does to the account that it names. -/
inductive Chain.Target (c : Chain) (key : Pubkey) (c' : Chain) : KagebInstruction → Prop
  | pool {args : InitializePoolArgs} {p : PoolStateV1} (vacant : (c key).owner = systemProgramId)
      (poolAt : c'.PoolAt key p) : Target c key c' (.initializePool args)
  | epoch {args : CreateEpochArgs} {e : EpochStateV1} (vacant : (c key).owner = systemProgramId)
      (epochAt : c'.EpochAt key e) (fresh : e.Fresh) : Target c key c' (.createEpoch args)
  | edge {instruction : KagebInstruction} {e e' : EpochStateV1} (before : c.EpochAt key e)
      (after : c'.EpochAt key e') (edge : e.Edge e') : Target c key c' instruction

/-- A successful instruction touches, of all accounts of the program, only the one it names. -/
theorem Runtime.Step.target {rt : Runtime} {tx : InstructionsSysvar} {c c' : Chain}
    {accounts : List AccountMeta} {instruction : KagebInstruction}
    (h : rt.Step tx c accounts instruction c') :
    ∃ key, keyAt accounts instruction.target = some key ∧ c.Target key c' instruction ∧
      ∀ k, k ≠ key → (c k).owner = programId ∨ (c' k).owner = programId →
        (c' k).SameRecord (c k) := by
  cases h with
  | @initializePool args pool p made named created valid tokens =>
    have hat : (made.write pool p.encode).PoolAt pool p :=
      ⟨by simpa using created.owner, by simp⟩
    refine ⟨pool, named, .pool created.vacant hat, fun k hk _ => ?_⟩
    rw [Chain.write_of_ne hk]
    exact created.rest k hk
  | @createEpoch args pool epoch p e made named ne poolAt poolValid created valid fresh =>
    refine ⟨epoch, named, .epoch created.vacant (.write e created.owner) fresh, fun k hk _ => ?_⟩
    rw [Chain.write_of_ne hk]
    exact created.rest k hk
  | @lock payload pool epoch p e named valid accepted =>
    refine ⟨epoch, named, .edge valid.epochAt (.write _ valid.epochAt.1)
      (EpochStateV1.withLock_edge accepted.terminalState), fun k hk _ => ?_⟩
    rw [Chain.write_of_ne hk]
    exact Account.SameRecord.refl _
  | @settle compact pool epoch p e moved named valid tokens signer accepted residual =>
    have hepoch := residual.programOwned tokens valid.epochAt.1
    refine ⟨epoch, named, .edge valid.epochAt (.write _ (hepoch.1.trans valid.epochAt.1))
      (EpochStateV1.withSettlement_edge accepted.terminalState), fun k hk hk' => ?_⟩
    rw [Chain.write_of_ne hk] at hk' ⊢
    have hshape := (residual.shape k).owner
    exact residual.programOwned tokens (hk'.elim id fun h => hshape.symm.trans h)
  | @expire pool epoch p e named valid terminalState clock =>
    refine ⟨epoch, named, .edge valid.epochAt (.write _ valid.epochAt.1)
      (EpochStateV1.expire_edge terminalState), fun k hk _ => ?_⟩
    rw [Chain.write_of_ne hk]
    exact Account.SameRecord.refl _
  | @abort pool epoch p e named valid terminalState clock =>
    refine ⟨epoch, named, .edge valid.epochAt (.write _ valid.epochAt.1)
      (EpochStateV1.abort_edge terminalState), fun k hk _ => ?_⟩
    rw [Chain.write_of_ne hk]
    exact Account.SameRecord.refl _

/-- A call of the program either takes a step of the instruction it decodes to, or changes
nothing. -/
theorem Runtime.execute_cases {rt : Runtime} (lawful : rt.Lawful) (tx : InstructionsSysvar)
    (c : Chain) (accounts : List AccountMeta) (data : Bytes) :
    rt.execute tx c accounts data = c ∨
      ∃ instruction, KagebInstruction.decode data = .ok instruction ∧
        rt.Step tx c accounts instruction (rt.execute tx c accounts data) := by
  unfold Runtime.execute
  split
  case h_1 c' hok => exact Or.inr (Runtime.processInstruction_ok lawful hok)
  case h_2 => exact Or.inl rfl

theorem EpochStateV1.encode_not_zero (e : EpochStateV1) : ¬∀ b ∈ e.encode, b = 0 := by
  intro h
  have hmem := List.mem_of_getElem? e.encode_head
  exact absurd (h 75 hmem) (by decide)

theorem PoolStateV1.encode_not_zero (p : PoolStateV1) : ¬∀ b ∈ p.encode, b = 0 := by
  intro h
  have hmem := List.mem_of_getElem? p.encode_head
  exact absurd (h 75 hmem) (by decide)

theorem Chain.Interference.epochAt_iff {c c' : Chain} (h : c.Interference c') {k : Pubkey}
    {e : EpochStateV1} : c'.EpochAt k e ↔ c.EpochAt k e := by
  by_cases hk : (c k).owner = programId
  · exact ⟨fun h' => h'.congr (h.kept k hk).symm, fun h' => h'.congr (h.kept k hk)⟩
  · refine ⟨fun h' => ?_, fun h' => absurd h'.1 hk⟩
    have hzero := h.fresh k hk h'.1
    rw [h'.2] at hzero
    exact absurd hzero e.encode_not_zero

theorem Chain.Interference.poolAt_iff {c c' : Chain} (h : c.Interference c') {k : Pubkey}
    {p : PoolStateV1} : c'.PoolAt k p ↔ c.PoolAt k p := by
  by_cases hk : (c k).owner = programId
  · exact ⟨fun h' => h'.congr (h.kept k hk).symm, fun h' => h'.congr (h.kept k hk)⟩
  · refine ⟨fun h' => ?_, fun h' => absurd h'.1 hk⟩
    have hzero := h.fresh k hk h'.1
    rw [h'.2] at hzero
    exact absurd hzero p.encode_not_zero

theorem not_programOwned_of_vacant {c : Chain} {k : Pubkey}
    (h : (c k).owner = systemProgramId) : (c k).owner ≠ programId := by
  rw [h]
  exact systemProgramId_ne_programId

section Accounts

variable {rt : Runtime} {tx : InstructionsSysvar} {c c' : Chain} {accounts : List AccountMeta}
  {instruction : KagebInstruction}

theorem Runtime.Step.epoch_kept (h : rt.Step tx c accounts instruction c') {k : Pubkey}
    {e : EpochStateV1} (hk : c.EpochAt k e) : ∃ e', c'.EpochAt k e' ∧ (e' = e ∨ e.Edge e') := by
  obtain ⟨key, -, htarget, hframe⟩ := h.target
  by_cases hkey : k = key
  · subst hkey
    cases htarget with
    | pool vacant => exact absurd hk.1 (not_programOwned_of_vacant vacant)
    | epoch vacant => exact absurd hk.1 (not_programOwned_of_vacant vacant)
    | edge before after edge =>
      cases hk.unique before
      exact ⟨_, after, Or.inr edge⟩
  · exact ⟨e, hk.congr (hframe k hkey (Or.inl hk.1)), Or.inl rfl⟩

theorem Runtime.Step.pool_kept (h : rt.Step tx c accounts instruction c') {k : Pubkey}
    {p : PoolStateV1} (hk : c.PoolAt k p) : c'.PoolAt k p := by
  obtain ⟨key, -, htarget, hframe⟩ := h.target
  by_cases hkey : k = key
  · subst hkey
    cases htarget with
    | pool vacant => exact absurd hk.1 (not_programOwned_of_vacant vacant)
    | epoch vacant => exact absurd hk.1 (not_programOwned_of_vacant vacant)
    | edge before => exact (hk.not_epochAt before).elim
  · exact hk.congr (hframe k hkey (Or.inl hk.1))

theorem Runtime.Step.epoch_born (h : rt.Step tx c accounts instruction c') {k : Pubkey}
    {e' : EpochStateV1} (hk : c'.EpochAt k e') :
    (∃ e, c.EpochAt k e) ∨ e'.Fresh ∧ keyAt accounts 3 = some k ∧
      ∃ args, instruction = .createEpoch args := by
  obtain ⟨key, hnamed, htarget, hframe⟩ := h.target
  by_cases hkey : k = key
  · subst hkey
    cases htarget with
    | pool vacant poolAt => exact (poolAt.not_epochAt hk).elim
    | @epoch args e vacant epochAt fresh =>
      cases hk.unique epochAt
      exact Or.inr ⟨fresh, hnamed, args, rfl⟩
    | edge before => exact Or.inl ⟨_, before⟩
  · exact Or.inl ⟨e', hk.congr (hframe k hkey (Or.inr hk.1)).symm⟩

/-- An instruction on an epoch makes no pool. -/
theorem Runtime.Step.pool_born (h : rt.Step tx c accounts instruction c')
    (hinstruction : ∀ args, instruction ≠ .initializePool args) {k : Pubkey} {p : PoolStateV1}
    (hk : c'.PoolAt k p) : c.PoolAt k p := by
  obtain ⟨key, -, htarget, hframe⟩ := h.target
  by_cases hkey : k = key
  · subst hkey
    cases htarget with
    | @pool args => exact absurd rfl (hinstruction args)
    | epoch vacant epochAt => exact (hk.not_epochAt epochAt).elim
    | edge before after => exact (hk.not_epochAt after).elim
  · exact hk.congr (hframe k hkey (Or.inr hk.1)).symm

end Accounts

/-! ### Whole runs -/

namespace EpochStateV1

theorem SameConfiguration.trans {a b d : EpochStateV1} (h : a.SameConfiguration b)
    (h' : b.SameConfiguration d) : a.SameConfiguration d :=
  ⟨h'.pool.trans h.pool, h'.epochId.trans h.epochId, h'.epochBump.trans h.epochBump,
    h'.configurationHash.trans h.configurationHash, h'.minimumCount.trans h.minimumCount,
    h'.baseLotAtoms.trans h.baseLotAtoms, h'.quoteAtomsPerLot.trans h.quoteAtomsPerLot,
    h'.lockDeadline.trans h.lockDeadline, h'.abortDeadline.trans h.abortDeadline⟩

theorem SameLock.trans {a b d : EpochStateV1} (h : a.SameLock b) (h' : b.SameLock d) :
    a.SameLock d :=
  ⟨h'.preBalanceRoot.trans h.preBalanceRoot, h'.memberRoot.trans h.memberRoot,
    h'.memberCount.trans h.memberCount, h'.lockDigest.trans h.lockDigest,
    h'.lockNonce.trans h.lockNonce⟩

/-- `e'` is `e` after zero or more edges. -/
abbrev Follows (e e' : EpochStateV1) : Prop := Relation.ReflTransGen Edge e e'

theorem Edge.sameConfiguration {e e' : EpochStateV1} (h : e.Edge e') : e.SameConfiguration e' := by
  cases h <;> assumption

theorem Edge.sameLock {e e' : EpochStateV1} (h : e.Edge e') (hopen : e.terminalState ≠ .open) :
    e.SameLock e' := by
  cases h with
  | lock hbefore => exact absurd hbefore hopen
  | expire hbefore => exact absurd hbefore hopen
  | settle _ _ _ hlock => exact hlock
  | abort _ _ _ hlock => exact hlock

theorem Edge.not_open {e e' : EpochStateV1} (h : e.Edge e') : e'.terminalState ≠ .open := by
  cases h with
  | lock _ hafter => simp [hafter]
  | expire _ hafter => simp [hafter]
  | settle _ hafter => simp [hafter]
  | abort _ hafter => simp [hafter]

theorem Edge.not_final {e e' : EpochStateV1} (h : e.Edge e') : ¬e.terminalState.Final := by
  cases h with
  | lock hbefore => simp [EpochTerminalState.Final, hbefore]
  | expire hbefore => simp [EpochTerminalState.Final, hbefore]
  | settle hbefore => simp [EpochTerminalState.Final, hbefore]
  | abort hbefore => simp [EpochTerminalState.Final, hbefore]

theorem Follows.sameConfiguration {e e' : EpochStateV1} (h : e.Follows e') :
    e.SameConfiguration e' := by
  induction h with
  | refl => exact ⟨rfl, rfl, rfl, rfl, rfl, rfl, rfl, rfl, rfl⟩
  | tail _ hedge ih => exact ih.trans hedge.sameConfiguration

theorem Follows.sameLock {e e' : EpochStateV1} (h : e.Follows e')
    (hopen : e.terminalState ≠ .open) : e.SameLock e' ∧ e'.terminalState ≠ .open := by
  induction h with
  | refl => exact ⟨⟨rfl, rfl, rfl, rfl, rfl⟩, hopen⟩
  | tail _ hedge ih => exact ⟨ih.1.trans (hedge.sameLock ih.2), hedge.not_open⟩

theorem Follows.eq_of_final {e e' : EpochStateV1} (h : e.Follows e')
    (hfinal : e.terminalState.Final) : e' = e := by
  rcases Relation.ReflTransGen.cases_head h with rfl | ⟨_, hedge, -⟩
  · rfl
  · exact absurd hfinal hedge.not_final

end EpochStateV1

/-- What one step of the chain may do to the pools and the epochs. -/
structure Chain.Obeys (c : Chain) (event : Event) (c' : Chain) : Prop where
  epochs : ∀ k e, c.EpochAt k e → ∃ e', c'.EpochAt k e' ∧ (e' = e ∨ e.Edge e')
  pools : ∀ k p, c.PoolAt k p → c'.PoolAt k p
  births : ∀ k e', c'.EpochAt k e' → (∃ e, c.EpochAt k e) ∨ e'.Fresh ∧
    ∃ tx accounts data args, event = .invoke tx accounts data ∧
      KagebInstruction.decode data = .ok (.createEpoch args) ∧ keyAt accounts 3 = some k
  others : ∀ tx accounts data instruction, event = .invoke tx accounts data →
    KagebInstruction.decode data = .ok instruction →
    (∀ k, keyAt accounts instruction.target ≠ some k →
      (c k).owner = programId ∨ (c' k).owner = programId → (c' k).SameRecord (c k)) ∧
    ((∀ args, instruction ≠ .initializePool args) → ∀ k p, c'.PoolAt k p ↔ c.PoolAt k p)

theorem Chain.Obeys.refl (c : Chain) (event : Event) : c.Obeys event c :=
  ⟨fun _ e h => ⟨e, h, Or.inl rfl⟩, fun _ _ h => h, fun _ e h => Or.inl ⟨e, h⟩,
    fun _ _ _ _ _ _ => ⟨fun _ _ _ => Account.SameRecord.refl _, fun _ _ _ => Iff.rfl⟩⟩

theorem Runtime.ChainStep.obeys {rt : Runtime} (lawful : rt.Lawful) {c c' : Chain}
    {event : Event} (h : rt.ChainStep c event c') : c.Obeys event c' := by
  cases h with
  | other hother =>
    refine ⟨fun k e hk => ⟨e, hother.epochAt_iff.mpr hk, Or.inl rfl⟩,
      fun k p hk => hother.poolAt_iff.mpr hk, fun k e hk => Or.inl ⟨e, hother.epochAt_iff.mp hk⟩,
      ?_⟩
    intro tx accounts data instruction hevent
    cases hevent
  | invoke tx accounts data =>
    rcases Runtime.execute_cases lawful tx c accounts data with heq | ⟨instruction, hdecode, hstep⟩
    · rw [heq]
      exact .refl c _
    · refine ⟨fun k e hk => hstep.epoch_kept hk, fun k p hk => hstep.pool_kept hk, ?_, ?_⟩
      · intro k e' hk
        rcases hstep.epoch_born hk with hold | ⟨hfresh, hnamed, args, rfl⟩
        · exact Or.inl hold
        · exact Or.inr ⟨hfresh, tx, accounts, data, args, rfl, hdecode, hnamed⟩
      · intro tx' accounts' data' instruction' hevent hdecode'
        cases hevent
        cases hdecode.symm.trans hdecode'
        obtain ⟨key, hnamed, -, hframe⟩ := hstep.target
        refine ⟨fun k hk => hframe k ?_, fun hinstruction k p =>
          ⟨hstep.pool_born hinstruction, hstep.pool_kept⟩⟩
        rintro rfl
        exact hk hnamed

/-- Along a run every pool stays, and every epoch follows the edges. -/
theorem Runtime.run_follows {rt : Runtime} (lawful : rt.Lawful) {c c' : Chain} {es : List Event}
    (run : Run rt.ChainStep c es c') :
    (∀ k p, c.PoolAt k p → c'.PoolAt k p) ∧
      ∀ k e, c.EpochAt k e → ∃ e', c'.EpochAt k e' ∧ e.Follows e' := by
  induction run with
  | nil => exact ⟨fun _ _ h => h, fun _ e h => ⟨e, h, .refl⟩⟩
  | cons hstep _ ih =>
    have hobeys := hstep.obeys lawful
    refine ⟨fun k p hk => ih.1 k p (hobeys.pools k p hk), fun k e hk => ?_⟩
    obtain ⟨mid, hmid, hedge⟩ := hobeys.epochs k e hk
    obtain ⟨e', he', hfollows⟩ := ih.2 k mid hmid
    rcases hedge with rfl | hedge
    · exact ⟨e', he', hfollows⟩
    · exact ⟨e', he', hfollows.head hedge⟩

/-- Every epoch account descends from one that `createEpoch` made. -/
def Chain.Descends (c : Chain) : Prop :=
  ∀ k e, c.EpochAt k e → ∃ e₀ : EpochStateV1, e₀.Fresh ∧ e₀.Follows e

theorem Runtime.ChainStep.descends {rt : Runtime} (lawful : rt.Lawful) {c c' : Chain}
    {event : Event} (hc : c.Descends) (h : rt.ChainStep c event c') : c'.Descends := by
  intro k e' hk
  have hobeys := h.obeys lawful
  rcases hobeys.births k e' hk with ⟨e, he⟩ | ⟨hfresh, -⟩
  · obtain ⟨e₀, hfresh, hfollows⟩ := hc k e he
    obtain ⟨e'', he'', hedge⟩ := hobeys.epochs k e he
    cases hk.unique he''
    rcases hedge with rfl | hedge
    · exact ⟨e₀, hfresh, hfollows⟩
    · exact ⟨e₀, hfresh, hfollows.tail hedge⟩
  · exact ⟨e', hfresh, .refl⟩

theorem Chain.Genesis.descends {c : Chain} (h : c.Genesis) : c.Descends :=
  fun k _ hk => absurd hk.1 (h k)

/-- From a chain without accounts of the program: every epoch is made open and follows the edges,
each of which changes only its own fields; nothing is made twice, and an instruction on one epoch
leaves every other epoch and every pool alone. -/
theorem epoch_lifecycle {rt : Runtime} (lawful : rt.Lawful) {c₀ c : Chain} {es : List Event}
    (genesis : c₀.Genesis) (run : Run rt.ChainStep c₀ es c) :
    (∀ k e, c.EpochAt k e → ∃ e₀ : EpochStateV1, e₀.Fresh ∧ e₀.Follows e) ∧
    (∀ event c', rt.ChainStep c event c' → c.Obeys event c') ∧
    (∀ tx accounts data instruction c' k,
      rt.processInstruction tx c programId accounts data = .ok c' →
      KagebInstruction.decode data = .ok instruction →
      (∃ args, instruction = .initializePool args) ∨ (∃ args, instruction = .createEpoch args) →
      keyAt accounts instruction.target = some k →
      (∀ e, ¬c.EpochAt k e) ∧ ∀ p, ¬c.PoolAt k p) ∧
    (∀ fs c', Run rt.ChainStep c fs c' →
      (∀ k p, c.PoolAt k p → c'.PoolAt k p) ∧
      ∀ k e, c.EpochAt k e → ∃ e', c'.EpochAt k e' ∧ e.Follows e' ∧ e.SameConfiguration e' ∧
        (e.terminalState ≠ .open → e.SameLock e') ∧ (e.terminalState.Final → e' = e)) := by
  refine ⟨run.invariant (fun h hstep => hstep.descends lawful h) genesis.descends,
    fun event c' hstep => hstep.obeys lawful, ?_, ?_⟩
  · intro tx accounts data instruction c' k hok hdecode hmakes hnamed
    obtain ⟨instruction', hdecode', hstep⟩ := Runtime.processInstruction_ok lawful hok
    cases hdecode.symm.trans hdecode'
    have hvacant : (c k).owner = systemProgramId := by
      rcases hmakes with ⟨args, rfl⟩ | ⟨args, rfl⟩
      · cases hstep with
        | initializePool named created =>
          cases named.symm.trans hnamed
          exact created.vacant
      · cases hstep with
        | createEpoch named _ _ _ created =>
          cases named.symm.trans hnamed
          exact created.vacant
    have hne := not_programOwned_of_vacant hvacant
    exact ⟨fun e he => hne he.1, fun p hp => hne hp.1⟩
  · intro fs c' hrun
    obtain ⟨hpools, hepochs⟩ := Runtime.run_follows lawful hrun
    refine ⟨hpools, fun k e hk => ?_⟩
    obtain ⟨e', he', hfollows⟩ := hepochs k e hk
    exact ⟨e', he', hfollows, hfollows.sameConfiguration, fun hopen => (hfollows.sameLock hopen).1,
      fun hfinal => hfollows.eq_of_final hfinal⟩

namespace Sample

theorem chain_genesis : chain.Genesis := by
  intro k
  unfold chain
  cases hfind : accounts.find? fun entry => entry.1 = k with
  | none => exact systemProgramId_ne_programId
  | some entry =>
    have hall : ∀ entry ∈ accounts, entry.2.owner ≠ programId := by decide
    exact hall entry (List.mem_of_find?_eq_some hfind)

theorem settle_run : Run rt.ChainStep chain
    [.invoke poolTx poolAccounts poolCall.encode, .invoke epochTx epochAccounts epochCall.encode,
      .invoke lockTx lockAccounts lockCall.encode,
      .invoke settleTx settleAccounts settleCall.encode] settleChain :=
  .cons (.invoke ..) (.cons (.invoke ..) (.cons (.invoke ..) (.cons (.invoke ..) (.nil _))))

theorem settleChain_epochAt : settleChain.EpochAt epoch settledEpoch := by
  unfold Chain.EpochAt
  decide +kernel

end Sample

/-- The epoch of the sample market is settled, and stays so. -/
theorem epoch_lifecycle_settled :
    Sample.settleChain.EpochAt Sample.epoch Sample.settledEpoch ∧
      ∀ fs c', Run Sample.rt.ChainStep Sample.settleChain fs c' →
        c'.EpochAt Sample.epoch Sample.settledEpoch := by
  refine ⟨Sample.settleChain_epochAt, fun fs c' hrun => ?_⟩
  obtain ⟨-, -, -, hlater⟩ :=
    epoch_lifecycle Sample.hashes.runtime_lawful Sample.chain_genesis Sample.settle_run
  obtain ⟨e', he', -, -, -, hfinal⟩ := (hlater fs c' hrun).2 _ _ Sample.settleChain_epochAt
  rw [hfinal (Or.inl rfl)] at he'
  exact he'

end Kageb
