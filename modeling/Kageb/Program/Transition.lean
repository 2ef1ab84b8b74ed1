import Kageb.Program.Processor

/-! What a successful instruction does to the chain. The guards of every instruction are read off
the program once, and later results use only this. -/

namespace Kageb

open Binary Checks

def Chain.PoolAt (c : Chain) (key : Pubkey) (p : PoolStateV1) : Prop :=
  (c key).owner = programId ∧ (c key).data = p.encode

def Chain.EpochAt (c : Chain) (key : Pubkey) (e : EpochStateV1) : Prop :=
  (c key).owner = programId ∧ (c key).data = e.encode

/-- What `validatePoolState` checks. -/
structure Runtime.PoolValid (rt : Runtime) (pool : Pubkey) (p : PoolStateV1) : Prop where
  address : rt.poolAddress p.operator p.baseMint p.quoteMint = (pool, p.poolBump)
  vaultBump : p.vaultBump = (rt.vaultAuthorityAddress pool).2
  lockThreshold : p.lockThreshold = 2
  settlementThreshold : p.settlementThreshold = 2
  baseLotAtoms : p.baseLotAtoms ≠ 0
  mints : p.baseMint ≠ p.quoteMint
  nonzero : zero32 ∉ p.keypers.toList
  distinct : threeDistinct p.keypers = true

/-- What `validateEpochState` checks. -/
structure Runtime.EpochValid (rt : Runtime) (epoch : Pubkey) (e : EpochStateV1) (pool : Pubkey)
    (p : PoolStateV1) : Prop where
  pool_eq : e.pool = pool
  address : rt.epochAddress pool e.epochId = (epoch, e.epochBump)
  minimumCount : 4 ≤ e.minimumCount
  baseLotAtoms : e.baseLotAtoms = p.baseLotAtoms
  quoteAtomsPerLot : e.quoteAtomsPerLot ≠ 0
  deadlines : e.lockDeadline < e.abortDeadline
  configurationHash :
    e.configurationHash = (Runtime.expectedConfiguration pool p e).digest rt.sha256

/-- An instruction names an epoch and its pool, and both pass their validation. -/
structure Runtime.Named (rt : Runtime) (c : Chain) (pool epoch : Pubkey) (p : PoolStateV1)
    (e : EpochStateV1) : Prop where
  ne : pool ≠ epoch
  poolAt : c.PoolAt pool p
  epochAt : c.EpochAt epoch e
  poolValid : rt.PoolValid pool p
  epochValid : rt.EpochValid epoch e pool p

/-- The account at `key` was unused and now belongs to the program; the others at most gave or
took lamports. -/
structure Chain.Created (c : Chain) (key : Pubkey) (c' : Chain) : Prop where
  vacant : (c key).owner = systemProgramId
  owner : (c' key).owner = programId
  rest : ∀ k, k ≠ key → (c' k).SameRecord (c k)

theorem Runtime.validatePoolState_ok {rt : Runtime} {account : AccountInfo} {p : PoolStateV1} :
    rt.validatePoolState account p = .ok () ↔ rt.PoolValid account.key p := by
  simp only [Runtime.validatePoolState, rejectIf_bind_ok, rejectIf_eq_ok, not_or, not_not,
    Bool.not_eq_false]
  constructor
  · rintro ⟨⟨hkey, hbump, hvault⟩, hlock, hsettle, hlot, hmints, hzero, hdistinct⟩
    exact ⟨Prod.ext hkey hbump.symm, hvault, hlock, hsettle, hlot, hmints, hzero, hdistinct⟩
  · intro h
    have haddress := h.address
    exact ⟨⟨congrArg Prod.fst haddress, (congrArg Prod.snd haddress).symm, h.vaultBump⟩,
      h.lockThreshold, h.settlementThreshold, h.baseLotAtoms, h.mints, h.nonzero, h.distinct⟩

theorem Runtime.validateEpochState_ok {rt : Runtime} {account pool : AccountInfo}
    {e : EpochStateV1} {p : PoolStateV1} :
    rt.validateEpochState account e pool p = .ok () ↔ rt.EpochValid account.key e pool.key p := by
  simp only [Runtime.validateEpochState, rejectIf_bind_ok, rejectIf_eq_ok, not_or, not_not,
    UInt32.not_lt, Int64.not_le]
  constructor
  · rintro ⟨hpool, ⟨hkey, hbump⟩, ⟨hmin, hlot, hprice, hdeadline⟩, hhash⟩
    exact ⟨hpool, Prod.ext hkey hbump.symm, hmin, hlot, hprice, hdeadline, hhash⟩
  · intro h
    have haddress := h.address
    exact ⟨h.pool_eq, ⟨congrArg Prod.fst haddress, (congrArg Prod.snd haddress).symm⟩,
      ⟨h.minimumCount, h.baseLotAtoms, h.quoteAtomsPerLot, h.deadlines⟩, h.configurationHash⟩

theorem Runtime.initializePdaAccount_ok {rt : Runtime} (lawful : rt.Lawful) {c c' : Chain}
    {payer pda system : AccountMeta} {seeds : List Bytes}
    (h : rt.initializePdaAccount c (c.info payer) (c.info pda) (c.info system) programId seeds
      = .ok c') : c.Created pda.key c' := by
  simp only [Runtime.initializePdaAccount, bind_ok, rejectIf_eq_ok, exists_const, not_or, not_not,
    Except.ok.injEq] at h
  obtain ⟨⟨hvacant, -, -⟩, lamports, -, funded, hfund, allocated, hallocate, assigned, hassign,
    ⟨howner, -⟩, rfl⟩ := h
  have hfunded : ∀ k, (funded k).SameRecord (c k) := by
    split at hfund
    · exact lawful.transfer hfund
    · cases hfund
      exact fun k => Account.SameRecord.refl _
  refine ⟨hvacant, howner, fun k hk => ?_⟩
  rw [lawful.assign hassign k hk, lawful.allocate hallocate k hk]
  exact hfunded k

/-! ### Token accounts -/

/-- A token account of `mint` that `authority` may spend from. -/
structure Chain.TokenAt (c : Chain) (key mint authority : Pubkey) : Prop where
  owner : (c key).owner = tokenProgramId
  executable : (c key).executable = false
  length : (c key).data.length = 165
  mint : slice (c key).data 0 32 = mint.bytes
  authority : slice (c key).data 32 64 = authority.bytes
  initialized : (c key).data[108]? = some 1

/-- The vaults and the venue accounts of a pool are four token accounts of its mints. -/
structure Runtime.TokensValid (rt : Runtime) (c : Chain) (pool : Pubkey) (p : PoolStateV1) :
    Prop where
  baseVault : c.TokenAt p.poolBaseVault p.baseMint (rt.vaultAuthorityAddress pool).1
  quoteVault : c.TokenAt p.poolQuoteVault p.quoteMint (rt.vaultAuthorityAddress pool).1
  venueBase : c.TokenAt p.venueBaseAccount p.baseMint p.venueAuthority
  venueQuote : c.TokenAt p.venueQuoteAccount p.quoteMint p.venueAuthority
  distinct :
    [p.poolBaseVault, p.poolQuoteVault, p.venueBaseAccount, p.venueQuoteAccount].Nodup

/-- `a` and `b` differ at most in their lamports and in the amount of tokens. -/
structure Account.SameButAmount (a b : Account) : Prop where
  owner : a.owner = b.owner
  executable : a.executable = b.executable
  length : a.data.length = b.data.length
  before : a.data.take 64 = b.data.take 64
  behind : a.data.drop 72 = b.data.drop 72

/-- Between `c` and `c'`, exactly `amount` tokens go from one account to another. -/
structure Chain.Moves (c : Chain) (source destination : Pubkey) (amount : Nat) (c' : Chain) :
    Prop where
  debit : c'.tokenAmount source + amount = c.tokenAmount source
  credit : c'.tokenAmount destination = c.tokenAmount destination + amount
  frame : ∀ k, k ≠ source → k ≠ destination → (c' k).SameRecord (c k)
  shape : ∀ k, (c' k).SameButAmount (c k)

/-- The transfers of a settlement: none, the pool buys `base` for `quote`, or it sells. -/
inductive Chain.Residual (c : Chain) (p : PoolStateV1) (base quote : Nat) : UInt8 → Chain → Prop
  | none : Residual c p base quote 0 c
  | buy {mid c' : Chain} : c.Moves p.poolQuoteVault p.venueQuoteAccount quote mid →
      mid.Moves p.venueBaseAccount p.poolBaseVault base c' → Residual c p base quote 1 c'
  | sell {mid c' : Chain} : c.Moves p.poolBaseVault p.venueBaseAccount base mid →
      mid.Moves p.venueQuoteAccount p.poolQuoteVault quote c' → Residual c p base quote 2 c'

theorem Account.SameRecord.sameButAmount {a b : Account} (h : a.SameRecord b) :
    a.SameButAmount b :=
  ⟨h.1, h.2.1, by rw [h.2.2], by rw [h.2.2], by rw [h.2.2]⟩

theorem Account.SameButAmount.trans {a b d : Account} (h : a.SameButAmount b)
    (h' : b.SameButAmount d) : a.SameButAmount d :=
  ⟨h.owner.trans h'.owner, h.executable.trans h'.executable, h.length.trans h'.length,
    h.before.trans h'.before, h.behind.trans h'.behind⟩

theorem Account.sameButAmount_withTokenAmount (a : Account) (amount : Nat)
    (hlen : 72 ≤ a.data.length) :
    { a with data := withTokenAmount a.data amount }.SameButAmount a := by
  have htake : (a.data.take 64).length = 64 := by simp; omega
  refine ⟨rfl, rfl, withTokenAmount_length hlen, ?_, ?_⟩
  · simp [withTokenAmount, List.take_append, List.take_take]
    omega
  · have hhead : (a.data.take 64 ++ leBytes 8 amount).length = 72 := by simp; omega
    show (withTokenAmount a.data amount).drop 72 = a.data.drop 72
    rw [withTokenAmount, ← hhead, List.drop_left]

theorem Chain.tokenAmount_congr {c c' : Chain} {k k' : Pubkey} (h : (c' k).SameRecord (c k')) :
    c'.tokenAmount k = c.tokenAmount k' := by
  simp only [Chain.tokenAmount, h.2.2]

theorem Runtime.Lawful.moves {rt : Runtime} (lawful : rt.Lawful) {c c' : Chain}
    {source mint destination authority : Pubkey} {amount : UInt64} {decimals : UInt8}
    {metas : List AccountMeta} {seeds : Option (List Bytes)}
    (h : rt.invoke c (.transferChecked source mint destination authority amount decimals) metas
      seeds = .ok c') (hne : source ≠ destination) :
    c.Moves source destination amount.toNat c' := by
  obtain ⟨hsource, hdestination, hle, hlt, hsame⟩ := lawful.transferChecked h hne
  have hbound : c.tokenAmount source < 2 ^ 64 := by
    have := leValue_lt (slice (c source).data 64 72)
    have hlen : (slice (c source).data 64 72).length = 8 := by simp [slice]; omega
    rw [hlen] at this
    exact this
  have hs := hsame source
  have hd := hsame destination
  simp only [Chain.moveTokens, if_true, hne.symm, if_false] at hs hd
  refine ⟨?_, ?_, fun k hk hk' => ?_, fun k => ?_⟩
  · have : c'.tokenAmount source = c.tokenAmount source - amount.toNat := by
      rw [Chain.tokenAmount, hs.2.2]
      exact tokenAmount_withTokenAmount hsource (by omega)
    omega
  · rw [Chain.tokenAmount, hd.2.2]
    exact tokenAmount_withTokenAmount hdestination hlt
  · have hk'' := hsame k
    simpa only [Chain.moveTokens, hk, hk', if_false] using hk''
  · by_cases hk : k = source
    · subst hk
      exact hs.sameButAmount.trans (Account.sameButAmount_withTokenAmount _ _ hsource)
    · by_cases hk' : k = destination
      · subst hk'
        exact hd.sameButAmount.trans (Account.sameButAmount_withTokenAmount _ _ hdestination)
      · have hk'' := hsame k
        simp only [Chain.moveTokens, hk, hk', if_false] at hk''
        exact hk''.sameButAmount

/-! ### One instruction -/

/-- The epoch after a lock. -/
def EpochStateV1.withLock (e : EpochStateV1) (payload : LockPayloadV1) (digest : Bytes32) :
    EpochStateV1 :=
  { e with
    terminalState := .locked
    preBalanceRoot := payload.preBalanceRoot
    memberRoot := payload.memberRoot
    memberCount := payload.memberCount
    lockDigest := digest
    lockNonce := payload.lockNonce }

/-- The epoch after a settlement. -/
def EpochStateV1.withSettlement (e : EpochStateV1) (compact : CompactSettlementPayload)
    (digest : Bytes32) : EpochStateV1 :=
  { e with
    terminalState := .settled
    residualSide := compact.residualSide
    residualLots := compact.residualLots
    resultCommitment := compact.resultCommitment
    settlementDigest := digest
    settlementNonce := compact.settlementNonce }

/-- The epoch of a new account, with no lock and no result. -/
structure EpochStateV1.Fresh (e : EpochStateV1) : Prop where
  terminalState : e.terminalState = .open
  residualSide : e.residualSide = 0
  residualLots : e.residualLots = 0
  memberCount : e.memberCount = 0
  preBalanceRoot : e.preBalanceRoot = zero32
  memberRoot : e.memberRoot = zero32
  lockDigest : e.lockDigest = zero32
  lockNonce : e.lockNonce = zero32
  resultCommitment : e.resultCommitment = zero32
  settlementDigest : e.settlementDigest = zero32
  settlementNonce : e.settlementNonce = zero32

structure LockAccepted (rt : Runtime) (tx : InstructionsSysvar) (c : Chain) (epoch : Pubkey)
    (p : PoolStateV1) (e : EpochStateV1) (payload : LockPayloadV1) : Prop where
  terminalState : e.terminalState = .open
  clock : ∃ clock, rt.deserializeClock (c clockId).data = some clock ∧
    clock.unixTimestamp < e.lockDeadline
  epochAccount : payload.epochAccount = epoch
  configurationHash : payload.configurationHash = e.configurationHash
  lockDeadline : payload.lockDeadline = e.lockDeadline
  lockNonce : payload.lockNonce ≠ zero32
  preBalanceRoot : payload.preBalanceRoot ≠ zero32
  memberRoot : payload.memberRoot ≠ zero32
  memberCount : e.minimumCount ≤ payload.memberCount
  quorum : ∃ count, countPrecedingKeypers tx p.keypers (payload.digest rt.sha256) = .ok count ∧
    p.lockThreshold ≤ count

structure SettlementAccepted (rt : Runtime) (tx : InstructionsSysvar) (c : Chain)
    (epoch : Pubkey) (p : PoolStateV1) (e : EpochStateV1) (compact : CompactSettlementPayload) :
    Prop where
  terminalState : e.terminalState = .locked
  clock : ∃ clock, rt.deserializeClock (c clockId).data = some clock ∧
    clock.unixTimestamp ≤ e.abortDeadline
  resultCommitment : compact.resultCommitment ≠ zero32
  settlementNonce : compact.settlementNonce ≠ zero32
  freshNonce : compact.settlementNonce ≠ e.lockNonce
  residual : validResidual compact.residualSide compact.residualLots = true
  quorum : ∃ count, countPrecedingKeypers tx p.keypers
      ((Runtime.rebuildSettlement epoch p e compact).digest rt.sha256) = .ok count ∧
    p.settlementThreshold ≤ count
  baseAmount : e.baseLotAtoms.toNat * compact.residualLots.toNat < 2 ^ 64
  quoteAmount : e.quoteAtomsPerLot.toNat * compact.residualLots.toNat < 2 ^ 64

/-- The address that an instruction names at a place of its account list. -/
def keyAt (accounts : List AccountMeta) (index : Nat) : Option Pubkey :=
  accounts[index]?.map (·.key)

/-- Everything a successful instruction can do. -/
inductive Runtime.Step (rt : Runtime) (tx : InstructionsSysvar) (c : Chain)
    (accounts : List AccountMeta) : KagebInstruction → Chain → Prop
  | initializePool {args : InitializePoolArgs} {pool : Pubkey} {p : PoolStateV1} {made : Chain}
      (named : keyAt accounts 2 = some pool) (created : c.Created pool made)
      (valid : rt.PoolValid pool p) (tokens : rt.TokensValid c pool p) :
      Step rt tx c accounts (.initializePool args) (made.write pool p.encode)
  | createEpoch {args : CreateEpochArgs} {pool epoch : Pubkey} {p : PoolStateV1}
      {e : EpochStateV1} {made : Chain} (named : keyAt accounts 3 = some epoch)
      (ne : pool ≠ epoch) (poolAt : c.PoolAt pool p) (poolValid : rt.PoolValid pool p)
      (created : c.Created epoch made) (valid : rt.EpochValid epoch e pool p) (fresh : e.Fresh) :
      Step rt tx c accounts (.createEpoch args) (made.write epoch e.encode)
  | lock {payload : LockPayloadV1} {pool epoch : Pubkey} {p : PoolStateV1} {e : EpochStateV1}
      (named : keyAt accounts 2 = some epoch) (valid : rt.Named c pool epoch p e)
      (accepted : LockAccepted rt tx c epoch p e payload) :
      Step rt tx c accounts (.lock payload)
        (c.write epoch (e.withLock payload (payload.digest rt.sha256)).encode)
  | settle {compact : CompactSettlementPayload} {pool epoch : Pubkey} {p : PoolStateV1}
      {e : EpochStateV1} {moved : Chain} (named : keyAt accounts 2 = some epoch)
      (valid : rt.Named c pool epoch p e) (tokens : rt.TokensValid c pool p)
      (signer : ∃ m ∈ accounts, m.key = p.venueAuthority ∧ m.isSigner = true)
      (accepted : SettlementAccepted rt tx c epoch p e compact)
      (residual : c.Residual p (e.baseLotAtoms.toNat * compact.residualLots.toNat)
        (e.quoteAtomsPerLot.toNat * compact.residualLots.toNat) compact.residualSide moved) :
      Step rt tx c accounts (.settle compact)
        (moved.write epoch (e.withSettlement compact
          ((Runtime.rebuildSettlement epoch p e compact).digest rt.sha256)).encode)
  | expire {pool epoch : Pubkey} {p : PoolStateV1} {e : EpochStateV1}
      (named : keyAt accounts 2 = some epoch) (valid : rt.Named c pool epoch p e)
      (terminalState : e.terminalState = .open)
      (clock : ∃ clock, rt.deserializeClock (c clockId).data = some clock ∧
        e.lockDeadline < clock.unixTimestamp) :
      Step rt tx c accounts .expire (c.write epoch { e with terminalState := .expired }.encode)
  | abort {pool epoch : Pubkey} {p : PoolStateV1} {e : EpochStateV1}
      (named : keyAt accounts 2 = some epoch) (valid : rt.Named c pool epoch p e)
      (terminalState : e.terminalState = .locked)
      (clock : ∃ clock, rt.deserializeClock (c clockId).data = some clock ∧
        e.abortDeadline < clock.unixTimestamp) :
      Step rt tx c accounts .abort (c.write epoch { e with terminalState := .aborted }.encode)

section Inversion

variable {rt : Runtime} {tx : InstructionsSysvar} {c c' : Chain} {accounts : List AccountMeta}

theorem requireProgramAccount_ok {account : AccountInfo}
    (h : requireProgramAccount account programId = .ok ()) : account.owner = programId := by
  simp only [requireProgramAccount, rejectIf_eq_ok, not_or, not_not] at h
  exact h.1

theorem clockFromAccountInfo_ok {account : AccountInfo} {clock : Clock}
    (h : rt.clockFromAccountInfo account = .ok clock) :
    rt.deserializeClock account.data = some clock := by
  simp only [Runtime.clockFromAccountInfo, bind_ok, okOr_eq_ok] at h
  obtain ⟨-, -, h⟩ := h
  exact h

theorem requireDistinct_ok {infos : List AccountInfo} (h : requireDistinct infos = .ok ()) :
    (infos.map (·.key)).Nodup := by
  simpa only [requireDistinct, rejectIf_eq_ok, not_not] using h

theorem validateTokenAccount_ok {m : AccountMeta} {mint authority : Pubkey}
    (h : validateTokenAccount (c.info m) mint authority = .ok ()) :
    c.TokenAt m.key mint authority := by
  simp only [validateTokenAccount, rejectIf_eq_ok, not_or, not_not, Bool.not_eq_true] at h
  obtain ⟨howner, hexec, hlen, hmint, hauthority, hinit⟩ := h
  exact ⟨howner, hexec, hlen, hmint, hauthority, hinit⟩

theorem Runtime.named_of_checks {pool epoch : AccountMeta} {p : PoolStateV1} {e : EpochStateV1}
    (hne : pool.key ≠ epoch.key)
    (hpool : requireProgramAccount (c.info pool) programId = .ok ())
    (hepoch : requireProgramAccount (c.info epoch) programId = .ok ())
    (hp : PoolStateV1.decode (c.info pool).data = .ok p)
    (hpv : rt.validatePoolState (c.info pool) p = .ok ())
    (he : EpochStateV1.decode (c.info epoch).data = .ok e)
    (hev : rt.validateEpochState (c.info epoch) e (c.info pool) p = .ok ()) :
    rt.Named c pool.key epoch.key p e :=
  ⟨hne, ⟨requireProgramAccount_ok hpool, PoolStateV1.decode_eq_ok.mp hp⟩,
    ⟨requireProgramAccount_ok hepoch, EpochStateV1.decode_eq_ok.mp he⟩,
    Runtime.validatePoolState_ok.mp hpv, Runtime.validateEpochState_ok.mp hev⟩

theorem Runtime.lock_ok {payload : LockPayloadV1} (h : rt.lock tx c accounts payload = .ok c') :
    rt.Step tx c accounts (.lock payload) c' := by
  unfold Runtime.lock at h
  split at h
  case h_2 => cases h
  case h_1 payer pool epoch instructionsAccount clockAccount hmap =>
  simp only [List.map_eq_cons_iff, List.map_eq_nil_iff] at hmap
  obtain ⟨payer, _, rfl, rfl, pool, _, rfl, rfl, epoch, _, rfl, rfl, instructionsAccount, _, rfl,
    rfl, clockAccount, _, rfl, rfl, rfl⟩ := hmap
  simp only [bind_ok, Unique.exists_iff] at h
  obtain ⟨-, -, -, -, -, hdistinct, hpool, hepoch, hids, p, hp, hpv, e, he, hev, hstate, clock,
    hclock, htime, hpayload, hcrowd, count, hcount, hquorum, hok⟩ := h
  have hnodup := requireDistinct_ok hdistinct
  simp only [rejectIf_eq_ok, not_or, not_not] at hids hstate htime hpayload hcrowd hquorum
  obtain ⟨haccount, hhash, hdeadline, hnonce, hroot, hmember⟩ := hpayload
  have hkey : clockAccount.key = clockId := hids.2
  have hclockData := clockFromAccountInfo_ok hclock
  cases hok
  refine Runtime.Step.lock rfl
    (Runtime.named_of_checks ?_ hpool hepoch hp hpv he hev) ⟨hstate, ⟨clock, ?_, ?_⟩, haccount, hhash,
      hdeadline, hnonce, hroot, hmember, ?_, ⟨count, hcount, ?_⟩⟩
  · intro heq
    simp [Chain.info, heq] at hnodup
  · rw [← hkey]
    exact hclockData
  · simpa using htime
  · simpa using hcrowd
  · simpa using hquorum

theorem Runtime.expireOrAbort_ok {abort : Bool}
    (h : rt.expireOrAbort c accounts abort = .ok c') :
    rt.Step tx c accounts (if abort then .abort else .expire) c' := by
  unfold Runtime.expireOrAbort at h
  split at h
  case h_2 => cases h
  case h_1 caller pool epoch clockAccount hmap =>
  simp only [List.map_eq_cons_iff, List.map_eq_nil_iff] at hmap
  obtain ⟨caller, _, rfl, rfl, pool, _, rfl, rfl, epoch, _, rfl, rfl, clockAccount, _, rfl, rfl,
    rfl⟩ := hmap
  simp only [bind_ok, Unique.exists_iff] at h
  obtain ⟨-, -, -, -, hdistinct, hpool, hepoch, hid, p, hp, hpv, e, he, hev, clock, hclock, h⟩ := h
  have hnodup := requireDistinct_ok hdistinct
  have hkey : clockAccount.key = clockId := not_not.mp (rejectIf_eq_ok.mp hid)
  have hclockData : rt.deserializeClock (c clockId).data = some clock := by
    rw [← hkey]
    exact clockFromAccountInfo_ok hclock
  have hne : pool.key ≠ epoch.key := by
    intro heq
    simp [Chain.info, heq] at hnodup
  have hnamed := Runtime.named_of_checks hne hpool hepoch hp hpv he hev
  cases abort with
  | true =>
    simp only [if_true, rejectIf_eq_ok, not_not, Int64.not_le] at h
    obtain ⟨hstate, htime, hok⟩ := h
    cases hok
    exact Runtime.Step.abort rfl hnamed hstate ⟨clock, hclockData, htime⟩
  | false =>
    simp only [Bool.false_eq_true, if_false, rejectIf_eq_ok, not_not, Int64.not_le] at h
    obtain ⟨hstate, htime, hok⟩ := h
    cases hok
    exact Runtime.Step.expire rfl hnamed hstate ⟨clock, hclockData, htime⟩

theorem Runtime.createEpoch_ok (lawful : rt.Lawful) {args : CreateEpochArgs}
    (h : rt.createEpoch c accounts args = .ok c') :
    rt.Step tx c accounts (.createEpoch args) c' := by
  unfold Runtime.createEpoch at h
  split at h
  case h_2 => cases h
  case h_1 payer operator pool epoch systemProgram clockAccount hmap =>
  simp only [List.map_eq_cons_iff, List.map_eq_nil_iff] at hmap
  obtain ⟨payer, _, rfl, rfl, operator, _, rfl, rfl, pool, _, rfl, rfl, epoch, _, rfl, rfl,
    systemProgram, _, rfl, rfl, clockAccount, _, rfl, rfl, rfl⟩ := hmap
  simp only [bind_ok, Unique.exists_iff] at h
  obtain ⟨-, -, -, -, -, -, hdistinct, hpool, -, p, hp, hpv, -, clock, -, hargs, hkey, made, hmade,
    hok⟩ := h
  have hnodup := requireDistinct_ok hdistinct
  simp only [rejectIf_eq_ok, not_or, not_not, UInt32.not_lt, Int64.not_le] at hargs hkey
  obtain ⟨hcount, hprice, -, hdeadlines⟩ := hargs
  have hat : c.PoolAt pool.key p :=
    ⟨requireProgramAccount_ok hpool, PoolStateV1.decode_eq_ok.mp hp⟩
  cases hok
  refine Runtime.Step.createEpoch rfl ?_ hat
    (Runtime.validatePoolState_ok.mp hpv) (Runtime.initializePdaAccount_ok lawful hmade)
    ⟨rfl, ?_, hcount, rfl, hprice, hdeadlines, rfl⟩
    ⟨rfl, rfl, rfl, rfl, rfl, rfl, rfl, rfl, rfl, rfl, rfl⟩
  · intro heq
    simp [Chain.info, heq] at hnodup
  · exact Prod.ext hkey.symm rfl

theorem Runtime.initializePool_accounts {args : InitializePoolArgs}
    (h : rt.initializePool c accounts args = .ok c') :
    ∃ m₀ m₁ m₂ m₃ m₄ m₅ m₆ m₇ m₈ m₉ m₁₀ m₁₁ m₁₂,
      accounts = [m₀, m₁, m₂, m₃, m₄, m₅, m₆, m₇, m₈, m₉, m₁₀, m₁₁, m₁₂] := by
  unfold Runtime.initializePool at h
  split at h
  case h_2 => cases h
  case h_1 hmap =>
    clear h
    simp only [List.map_eq_cons_iff, List.map_eq_nil_iff] at hmap
    obtain ⟨_, _, rfl, -, _, _, rfl, -, _, _, rfl, -, _, _, rfl, -, _, _, rfl, -, _, _, rfl, -, _, _,
      rfl, -, _, _, rfl, -, _, _, rfl, -, _, _, rfl, -, _, _, rfl, -, _, _, rfl, -, _, _, rfl, -,
      rfl⟩ := hmap
    exact ⟨_, _, _, _, _, _, _, _, _, _, _, _, _, rfl⟩

theorem Runtime.initializePool_ok (lawful : rt.Lawful) {args : InitializePoolArgs}
    (h : rt.initializePool c accounts args = .ok c') :
    rt.Step tx c accounts (.initializePool args) c' := by
  obtain ⟨payer, operator, pool, vaultAuthority, baseMint, quoteMint, poolBaseVault,
    poolQuoteVault, venueAuthority, venueBaseAccount, venueQuoteAccount, systemProgram,
    tokenProgram, rfl⟩ := Runtime.initializePool_accounts h
  simp only [Runtime.initializePool, List.map_cons, List.map_nil] at h
  simp only [bind_ok, Unique.exists_iff] at h
  obtain ⟨-, -, -, -, -, -, -, -, -, -, -, -, -, hdistinct, -, hargs, hkeys, -, -, hbaseVault,
    hquoteVault, hvenueBase, hvenueQuote, made, hmade, hok⟩ := h
  have hnodup := requireDistinct_ok hdistinct
  simp only [rejectIf_eq_ok, not_or, not_not, Bool.not_eq_false] at hargs hkeys
  obtain ⟨hlock, hsettle, hlot, hzero, hthree, hmints⟩ := hargs
  obtain ⟨hpool, hvault⟩ := hkeys
  have hbaseAt := validateTokenAccount_ok hbaseVault
  have hquoteAt := validateTokenAccount_ok hquoteVault
  rw [hvault] at hbaseAt hquoteAt
  cases hok
  refine Runtime.Step.initializePool rfl (Runtime.initializePdaAccount_ok lawful hmade)
    ⟨Prod.ext hpool.symm rfl, rfl, hlock, hsettle, hlot, hmints, hzero, hthree⟩
    ⟨hbaseAt, hquoteAt, validateTokenAccount_ok hvenueBase, validateTokenAccount_ok hvenueQuote,
      ?_⟩
  exact List.Nodup.sublist (.cons _ <| .cons _ <| .cons _ <| .cons _ <| .cons _ <| .cons _ <|
    .cons_cons _ <| .cons_cons _ <| .cons _ <| .cons_cons _ <| .cons_cons _ <| .cons _ <| .cons _ <|
    .slnil) hnodup

theorem checkedMul_eq_some {a b product : UInt64} (h : checkedMul a b = some product) :
    a.toNat * b.toNat < 2 ^ 64 ∧ product.toNat = a.toNat * b.toNat := by
  unfold checkedMul at h
  split at h
  case isFalse => cases h
  case isTrue hlt =>
    cases h
    refine ⟨hlt, ?_⟩
    rw [UInt64.toNat_mul]
    exact Nat.mod_eq_of_lt hlt

/-- The transfers of a successful settlement, on the accounts that the pool names. -/
theorem Runtime.residual_ok (lawful : rt.Lawful) {p : PoolStateV1} {side : UInt8}
    {base quote : UInt64} {seeds : List Bytes} {baseVault quoteVault venueBase venueQuote
      baseMint quoteMint vaultAuthority venueAuthority tokenProgram : AccountInfo}
    (hbase : baseVault.key = p.poolBaseVault) (hquote : quoteVault.key = p.poolQuoteVault)
    (hvenueBase : venueBase.key = p.venueBaseAccount)
    (hvenueQuote : venueQuote.key = p.venueQuoteAccount)
    (hdistinct :
      [p.poolBaseVault, p.poolQuoteVault, p.venueBaseAccount, p.venueQuoteAccount].Nodup)
    (h : (if side = 0 then .ok c
      else if side = 1 then do
        let c ← rt.transferChecked c quoteVault quoteMint venueQuote vaultAuthority tokenProgram
          quote (some seeds)
        rt.transferChecked c venueBase baseMint baseVault venueAuthority tokenProgram base none
      else if side = 2 then do
        let c ← rt.transferChecked c baseVault baseMint venueBase vaultAuthority tokenProgram base
          (some seeds)
        rt.transferChecked c venueQuote quoteMint quoteVault venueAuthority tokenProgram quote none
      else .error (KagebError.invalidSettlement : ProgramError)) = .ok c') :
    c.Residual p base.toNat quote.toNat side c' := by
  simp only [List.nodup_cons, List.mem_cons, not_or] at hdistinct
  obtain ⟨⟨-, hbv, -⟩, ⟨-, hqv, -⟩, -⟩ := hdistinct
  simp only [Runtime.transferChecked, hbase, hquote, hvenueBase, hvenueQuote] at h
  split at h
  case isTrue hside =>
    cases h
    subst hside
    exact .none
  split at h
  case isTrue hside =>
    obtain ⟨mid, hfirst, hsecond⟩ := bind_ok.mp h
    subst hside
    exact .buy (lawful.moves hfirst hqv) (lawful.moves hsecond (Ne.symm hbv))
  split at h
  case isTrue hside =>
    obtain ⟨mid, hfirst, hsecond⟩ := bind_ok.mp h
    subst hside
    exact .sell (lawful.moves hfirst hbv) (lawful.moves hsecond (Ne.symm hqv))
  case isFalse => cases h

theorem Runtime.settle_accounts {payload : SettlementPayloadV1}
    (h : rt.settle tx c accounts payload = .ok c') :
    ∃ m₀ m₁ m₂ m₃ m₄ m₅ m₆ m₇ m₈ m₉ m₁₀ m₁₁ m₁₂ m₁₃,
      accounts = [m₀, m₁, m₂, m₃, m₄, m₅, m₆, m₇, m₈, m₉, m₁₀, m₁₁, m₁₂, m₁₃] := by
  unfold Runtime.settle at h
  split at h
  case h_2 => cases h
  case h_1 hmap =>
    clear h
    simp only [List.map_eq_cons_iff, List.map_eq_nil_iff] at hmap
    obtain ⟨_, _, rfl, -, _, _, rfl, -, _, _, rfl, -, _, _, rfl, -, _, _, rfl, -, _, _, rfl, -, _, _,
      rfl, -, _, _, rfl, -, _, _, rfl, -, _, _, rfl, -, _, _, rfl, -, _, _, rfl, -, _, _, rfl, -,
      _, _, rfl, -, rfl⟩ := hmap
    exact ⟨_, _, _, _, _, _, _, _, _, _, _, _, _, _, rfl⟩

theorem Runtime.settle_ok (lawful : rt.Lawful) {compact : CompactSettlementPayload}
    {epochKey : Pubkey} {p₀ : PoolStateV1} {e₀ : EpochStateV1}
    (h : rt.settle tx c accounts (Runtime.rebuildSettlement epochKey p₀ e₀ compact) = .ok c')
    (hp₀ : ∀ m, accounts[1]? = some m → (c m.key).data = p₀.encode)
    (he₀ : ∀ m, accounts[2]? = some m → m.key = epochKey ∧ (c m.key).data = e₀.encode) :
    rt.Step tx c accounts (.settle compact) c' := by
  obtain ⟨payer, pool, epoch, vaultAuthority, poolBaseVault, poolQuoteVault, venueAuthority,
    venueBaseAccount, venueQuoteAccount, baseMint, quoteMint, tokenProgram, instructionsAccount,
    clockAccount, rfl⟩ := Runtime.settle_accounts h
  simp only [Runtime.settle, List.map_cons, List.map_nil] at h
  simp only [bind_ok, Unique.exists_iff] at h
  obtain ⟨-, -, -, -, -, -, -, -, hsigner, -, -, -, -, -, hdistinct, hpool, hepoch, hids, clock,
    hclock, p, hp, hpv, e, he, hev, hstate, htime, hauthority, hkeys, -, -, hbaseVault,
    hquoteVault, hvenueBase, hvenueQuote, hpayload, count, hcount, hquorum, base, hbase, quote,
    hquote, moved, hmoved, hok⟩ := h
  have hpEq : p = p₀ := PoolStateV1.encode_injective
    ((PoolStateV1.decode_eq_ok.mp hp).symm.trans (hp₀ pool rfl))
  obtain ⟨hepochKey, hepochData⟩ := he₀ epoch rfl
  have heEq : e = e₀ := EpochStateV1.encode_injective
    ((EpochStateV1.decode_eq_ok.mp he).symm.trans hepochData)
  subst hpEq heEq hepochKey
  have hnodup := requireDistinct_ok hdistinct
  simp only [rejectIf_eq_ok, not_or, not_not, Int64.not_lt, UInt8.not_lt, Bool.not_eq_false]
    at hids hstate htime hauthority hkeys hpayload hquorum
  obtain ⟨-, -, -, hclockKey⟩ := hids
  obtain ⟨hvault, -⟩ := hauthority
  obtain ⟨hbm, hqm, hbv, hqv, hva, hvb, hvq⟩ := hkeys
  have hsignerKey : venueAuthority.isSigner = true := by
    simp only [requireAccountFlags, bind_ok, Unique.exists_iff, rejectIf_eq_ok, not_not] at hsigner
    exact hsigner.1
  have htokens : rt.TokensValid c pool.key p := by
    have h1 := validateTokenAccount_ok hbaseVault
    have h2 := validateTokenAccount_ok hquoteVault
    have h3 := validateTokenAccount_ok hvenueBase
    have h4 := validateTokenAccount_ok hvenueQuote
    simp only [Chain.info] at hbm hqm hbv hqv hva hvb hvq hvault h1 h2 h3 h4
    rw [hbv, hbm, ← hvault] at h1
    rw [hqv, hqm, ← hvault] at h2
    rw [hvb, hbm, hva] at h3
    rw [hvq, hqm, hva] at h4
    refine ⟨h1, h2, h3, h4, ?_⟩
    rw [← hbv, ← hqv, ← hvb, ← hvq]
    exact List.Nodup.sublist (.cons _ <| .cons _ <| .cons _ <| .cons _ <| .cons_cons _ <|
      .cons_cons _ <| .cons _ <| .cons_cons _ <| .cons_cons _ <| .cons _ <| .cons _ <| .cons _ <|
      .cons _ <| .cons _ <| .slnil) hnodup
  have hresidual := Runtime.residual_ok lawful hbv hqv hvb hvq htokens.distinct hmoved
  obtain ⟨hbaseLt, hbaseEq⟩ := checkedMul_eq_some (okOr_eq_ok.mp hbase)
  obtain ⟨hquoteLt, hquoteEq⟩ := checkedMul_eq_some (okOr_eq_ok.mp hquote)
  simp only [Runtime.rebuildSettlement, UInt32.toNat_toUInt64] at hbaseLt hbaseEq hquoteLt hquoteEq
  rw [hbaseEq, hquoteEq] at hresidual
  obtain ⟨-, -, hresult, -, -, -, -, -, -, -, -, -, hnonce, hfresh, hvalid⟩ := hpayload
  have hclockData : rt.deserializeClock (c clockId).data = some clock := by
    rw [← hclockKey]
    exact clockFromAccountInfo_ok hclock
  have hne : pool.key ≠ epoch.key := by
    intro heq
    simp [Chain.info, heq] at hnodup
  cases hok
  exact Runtime.Step.settle rfl (Runtime.named_of_checks hne hpool hepoch hp hpv he hev) htokens
    ⟨venueAuthority, by simp, hva, hsignerKey⟩
    ⟨hstate, ⟨clock, hclockData, htime⟩, hresult, hnonce, hfresh, hvalid, ⟨count, hcount, hquorum⟩,
      hbaseLt, hquoteLt⟩ hresidual

theorem Runtime.settleCompact_ok (lawful : rt.Lawful) {compact : CompactSettlementPayload}
    (h : rt.settleCompact tx c accounts compact = .ok c') :
    rt.Step tx c accounts (.settle compact) c' := by
  unfold Runtime.settleCompact at h
  split at h
  case h_2 => cases h
  case h_1 _ pool epoch _ _ _ _ _ _ _ _ _ _ _ =>
  obtain ⟨p, hp, h⟩ := bind_ok.mp h
  obtain ⟨e, he, h⟩ := bind_ok.mp h
  refine Runtime.settle_ok lawful h ?_ ?_
  · intro m hm
    cases hm
    exact PoolStateV1.decode_eq_ok.mp hp
  · intro m hm
    cases hm
    exact ⟨rfl, EpochStateV1.decode_eq_ok.mp he⟩

/-- A successful call decodes to an instruction, and takes one of its steps. -/
theorem Runtime.processInstruction_ok (lawful : rt.Lawful) {data : Bytes}
    (h : rt.processInstruction tx c programId accounts data = .ok c') :
    ∃ instruction, KagebInstruction.decode data = .ok instruction ∧
      rt.Step tx c accounts instruction c' := by
  unfold Runtime.processInstruction at h
  rw [rejectIf_bind_of_not (by simp)] at h
  obtain ⟨instruction, hdecode, h⟩ := bind_ok.mp h
  refine ⟨instruction, hdecode, ?_⟩
  cases instruction with
  | initializePool args => exact Runtime.initializePool_ok lawful h
  | createEpoch args => exact Runtime.createEpoch_ok lawful h
  | lock payload => exact Runtime.lock_ok h
  | settle payload => exact Runtime.settleCompact_ok lawful h
  | expire => exact Runtime.expireOrAbort_ok h
  | abort => exact Runtime.expireOrAbort_ok h

end Inversion

end Kageb
