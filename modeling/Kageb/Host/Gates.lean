import Kageb.Host.Reference

/-! The confirmed reads and the program's own gates: in every state that the program can reach, a
reader accepts an epoch exactly when the program would let it go on. -/

namespace Kageb

open Binary Checks Runs

/-- The clock account as the client returns it at a slot. -/
structure Host.ReadsClock (host : Host) (clockData : RpcAccountData) (clock : Clock)
    (slot : UInt64) : Prop where
  owner : clockData.owner = sysvarOwnerId
  reads : host.deserializeClock clockData.data = some clock
  slot_le : clock.slot ≤ slot

/-- What the reader of open epochs hands on. -/
def ConfirmedOpenEpoch.of (epoch : Pubkey) (e : EpochStateV1) (p : PoolStateV1) (clock : Clock)
    (slot : UInt64) : ConfirmedOpenEpoch where
  epochAccount := epoch
  configuration := e.configuration p
  policy :=
    { epochId := e.epochId
      operatorKey := p.operator
      minimum := e.minimumCount.toNat
      baseAtoms := e.baseLotAtoms
      quoteAtoms := e.quoteAtomsPerLot
      currentSlot := clock.slot }
  currentTimestamp := clock.unixTimestamp
  confirmationSlot := slot

/-- What the reader of open epochs checks, in the terms of the program's own validation. -/
structure Host.OpenRead (host : Host) (epoch : Pubkey) (epochData poolData : RpcAccountData)
    (e : EpochStateV1) (p : PoolStateV1) (clock : Clock) : Prop where
  epochOwner : epochData.owner = programId
  epochBytes : epochData.data = e.encode
  poolOwner : poolData.owner = programId
  poolBytes : poolData.data = p.encode
  poolValid : host.PoolValid e.pool p
  epochValid : host.EpochValid epoch e e.pool p
  opened : e.terminalState = .open
  noLock : e.NoLock
  noResult : e.NoResult
  timely : clock.unixTimestamp < e.lockDeadline
  operator : host.validKey p.operator = true

theorem threeDistinct_eq_true {keys : Keypers} : threeDistinct keys = true ↔
    keys.first ≠ keys.second ∧ keys.first ≠ keys.third ∧ keys.second ≠ keys.third := by
  simp [threeDistinct, and_assoc]

theorem AdmissionPolicyV1.new_eq {epochId operatorKey : Bytes32} {minimum : UInt32}
    {baseAtoms quoteAtoms currentSlot : UInt64} (hminimum : 4 ≤ minimum) (hbase : baseAtoms ≠ 0)
    (hquote : quoteAtoms ≠ 0) :
    AdmissionPolicyV1.new epochId operatorKey minimum.toNat baseAtoms quoteAtoms currentSlot =
      .ok ⟨epochId, operatorKey, minimum.toNat, baseAtoms, quoteAtoms, currentSlot⟩ := by
  have hpositive : minimum.toNat ≠ 0 := by
    have := UInt32.le_iff_toNat_le.mp hminimum
    have hfour : (4 : UInt32).toNat = 4 := rfl
    omega
  simp [AdmissionPolicyV1.new, bind_ok, hpositive, hbase, hquote]

section Readers

variable {host : Host} {epoch pool : Pubkey} {epochData poolData clockData : RpcAccountData}
  {slot : UInt64}

theorem Host.decodeProgramEpoch_ok {e : EpochStateV1} :
    host.decodeProgramEpoch epoch epochData = .ok e ↔
      epochData.owner = programId ∧ epochData.data = e.encode ∧
        host.epochAddress e.pool e.epochId = (epoch, e.epochBump) := by
  simp only [Host.decodeProgramEpoch, bind_ok, Unique.exists_iff, rejectIf_eq_ok, mapError_eq_ok,
    not_or, not_not, EpochStateV1.decode_eq_ok]
  constructor
  · rintro ⟨howner, state, hdata, ⟨haddress, hbump⟩, hok⟩
    cases hok
    exact ⟨howner, hdata, Prod.ext haddress hbump.symm⟩
  · rintro ⟨howner, hdata, haddress⟩
    exact ⟨howner, e, hdata, ⟨congrArg Prod.fst haddress, (congrArg Prod.snd haddress).symm⟩, rfl⟩

theorem Host.confirmedOpenEpochFromAccounts_ok {confirmed : ConfirmedOpenEpoch} :
    host.confirmedOpenEpochFromAccounts epoch epochData pool poolData clockData slot =
        .ok confirmed ↔
      ∃ e p clock, e.pool = pool ∧ host.ReadsClock clockData clock slot ∧
        host.OpenRead epoch epochData poolData e p clock ∧
        confirmed = .of epoch e p clock slot := by
  simp only [Host.confirmedOpenEpochFromAccounts, bind_ok, Unique.exists_iff, rejectIf_eq_ok,
    mapError_eq_ok, okOr_eq_ok, not_or, not_not, Host.decodeProgramEpoch_ok,
    PoolStateV1.decode_eq_ok, Bool.not_eq_false, gt_iff_lt, ge_iff_le, UInt32.not_lt, UInt64.not_lt,
    Int64.not_le]
  constructor
  · rintro ⟨e, ⟨howner, hdata, haddress⟩, hpool, ⟨hpoolOwner, hclockOwner⟩, p, hpoolData, clock,
      hclock, ⟨hkey, hpoolBump, hvaultBump, hlock, hsettle, hlot, hmints, hzero, hfirst, hsecond,
        hthird, hopen, hside, hhash, hpre, hmember, hdigest, hresult, hsettlement, hlockNonce,
        hsettleNonce, hcount, hminimum, hlots, hepochLot, hprice, hdeadline, hslot, htime⟩,
      hoperator, policy, hpolicy, hok⟩
    rw [AdmissionPolicyV1.new_eq hminimum (hepochLot ▸ hlot) hprice] at hpolicy
    cases hpolicy
    cases hok
    refine ⟨e, p, clock, hpool, ⟨hclockOwner, hclock, hslot⟩, ⟨howner, hdata, hpoolOwner, hpoolData,
      ⟨Prod.ext hkey hpoolBump.symm, hvaultBump, hlock, hsettle, hlot, hmints, hzero, ?_⟩,
      ⟨rfl, haddress, hminimum, hepochLot, hprice, hdeadline, hhash⟩, hopen,
      ⟨hpre, hmember, hcount, hdigest, hlockNonce⟩,
      ⟨hside, hlots, hresult, hsettlement, hsettleNonce⟩, htime, hoperator⟩, rfl⟩
    exact threeDistinct_eq_true.mpr ⟨hfirst, hsecond, hthird⟩
  · rintro ⟨e, p, clock, rfl, ⟨hclockOwner, hclock, hslot⟩, h, rfl⟩
    have hkey := h.poolValid.address
    obtain ⟨hfirst, hsecond, hthird⟩ := threeDistinct_eq_true.mp h.poolValid.distinct
    have hlot : e.baseLotAtoms ≠ 0 := h.epochValid.baseLotAtoms ▸ h.poolValid.baseLotAtoms
    exact ⟨e, ⟨h.epochOwner, h.epochBytes, h.epochValid.address⟩, rfl, ⟨h.poolOwner, hclockOwner⟩, p,
      h.poolBytes, clock, hclock, ⟨congrArg Prod.fst hkey, (congrArg Prod.snd hkey).symm,
        h.poolValid.vaultBump, h.poolValid.lockThreshold, h.poolValid.settlementThreshold,
        h.poolValid.baseLotAtoms, h.poolValid.mints, h.poolValid.nonzero, hfirst, hsecond, hthird,
        h.opened, h.noResult.residualSide, h.epochValid.configurationHash, h.noLock.preBalanceRoot,
        h.noLock.memberRoot, h.noLock.lockDigest, h.noResult.resultCommitment,
        h.noResult.settlementDigest, h.noLock.lockNonce, h.noResult.settlementNonce,
        h.noLock.memberCount, h.epochValid.minimumCount, h.noResult.residualLots,
        h.epochValid.baseLotAtoms, h.epochValid.quoteAtomsPerLot, h.epochValid.deadlines, hslot,
        h.timely⟩, h.operator, _,
      AdmissionPolicyV1.new_eq h.epochValid.minimumCount hlot h.epochValid.quoteAtomsPerLot, rfl⟩

end Readers

/-! ### Epochs that are sound -/

section Sound

variable {host : Host} {c : Chain} {k : Pubkey} {e : EpochStateV1} {p : PoolStateV1}
  {clockData : RpcAccountData} {clock : Clock} {slot : UInt64}

/-- The configuration that the records rebuild is the one that was hashed. -/
theorem Runtime.EpochSound.configuration_digest (h : host.EpochSound c k e p) :
    (e.configuration p).digest host.sha256 = e.configurationHash :=
  h.epochValid.configurationHash.symm

theorem Runtime.EpochSound.open_read (h : host.EpochSound c k e p) (hk : c.EpochAt k e)
    (hclock : host.ReadsClock clockData clock slot) (hoperator : host.validKey p.operator = true)
    {confirmed : ConfirmedOpenEpoch} :
    host.confirmedOpenEpochFromAccounts k (c.rpcData k) e.pool (c.rpcData e.pool) clockData slot =
        .ok confirmed ↔
      (e.terminalState = .open ∧ clock.unixTimestamp < e.lockDeadline) ∧
        confirmed = .of k e p clock slot := by
  rw [Host.confirmedOpenEpochFromAccounts_ok]
  constructor
  · rintro ⟨e', p', clock', -, hclock', hread, rfl⟩
    obtain rfl : e' = e := EpochStateV1.encode_injective (hread.epochBytes.symm.trans hk.2)
    obtain rfl : p' = p := PoolStateV1.encode_injective (hread.poolBytes.symm.trans h.poolAt.2)
    obtain rfl : clock' = clock := Option.some.inj (hclock'.reads.symm.trans hclock.reads)
    exact ⟨⟨hread.opened, hread.timely⟩, rfl⟩
  · rintro ⟨⟨hopen, htime⟩, rfl⟩
    obtain ⟨hlock, hresult⟩ := h.phase.of_open hopen
    exact ⟨e, p, clock, rfl, hclock, ⟨hk.1, hk.2, h.poolAt.1, h.poolAt.2, h.poolValid, h.epochValid,
      hopen, hlock, hresult, htime, hoperator⟩, rfl⟩

theorem Runtime.EpochSound.lock_read (h : host.EpochSound c k e p) (hk : c.EpochAt k e)
    (hhash : ∀ m, host.sha256 m ≠ zero32) (hclock : host.ReadsClock clockData clock slot)
    {lock : ConfirmedLock} :
    host.confirmedLockFromAccounts k (c.rpcData k) (c.rpcData e.pool) clockData slot = .ok lock ↔
      (e.terminalState = .locked ∧ clock.unixTimestamp ≤ e.abortDeadline) ∧
        lock = ⟨k, e, some p, slot⟩ := by
  simp only [Host.confirmedLockFromAccounts, Host.confirmedLockFromAccount, bind_ok,
    Unique.exists_iff, rejectIf_eq_ok, mapError_eq_ok, okOr_eq_ok, not_or, not_not,
    EpochStateV1.decode_eq_ok, PoolStateV1.decode_eq_ok, gt_iff_lt, UInt64.not_lt, Int64.not_lt,
    UInt32.not_lt, Int64.not_le]
  constructor
  · rintro ⟨confirmed, ⟨-, e', he', ⟨-, -, hlocked, -⟩, hconfirmed⟩, -, p', hp', clock', hclock',
      ⟨-, -, -, -, -, -, -, -, -, htime⟩, hok⟩
    obtain rfl : e' = e := EpochStateV1.encode_injective (he'.symm.trans hk.2)
    obtain rfl : p' = p := PoolStateV1.encode_injective (hp'.symm.trans h.poolAt.2)
    obtain rfl : clock' = clock := Option.some.inj (hclock'.symm.trans hclock.reads)
    cases hconfirmed
    cases hok
    exact ⟨⟨hlocked, htime⟩, rfl⟩
  · rintro ⟨⟨hlocked, htime⟩, rfl⟩
    obtain ⟨hlock, -⟩ := h.phase.of_locked hlocked
    have hepoch := h.epochValid.address
    have hpool := h.poolValid.address
    have hlot : e.baseLotAtoms ≠ 0 := h.epochValid.baseLotAtoms ▸ h.poolValid.baseLotAtoms
    have hconfiguration : e.configurationHash ≠ zero32 := by
      rw [← h.configuration_digest]
      exact hhash _
    exact ⟨⟨k, e, none, slot⟩, ⟨hk.1, e, hk.2, ⟨congrArg Prod.fst hepoch,
        (congrArg Prod.snd hepoch).symm, hlocked, hlock.minimumCount, hlock.memberCount, hlot,
        h.epochValid.quoteAtomsPerLot, h.epochValid.deadlines, hconfiguration, hlock.lockNonce,
        hlock.preBalanceRoot, hlock.memberRoot, hlock.lockDigest⟩, rfl⟩,
      ⟨h.poolAt.1, hclock.owner⟩, p, h.poolAt.2, clock, hclock.reads,
      ⟨congrArg Prod.fst hpool, (congrArg Prod.snd hpool).symm, h.poolValid.vaultBump,
        h.poolValid.lockThreshold, h.poolValid.settlementThreshold, h.poolValid.baseLotAtoms,
        h.poolValid.mints, h.configuration_digest, hclock.slot_le, htime⟩, rfl⟩

theorem Runtime.EpochSound.terminal_read (h : host.EpochSound c k e p) (hk : c.EpochAt k e)
    {terminal : ConfirmedTerminalEpoch} :
    host.confirmedTerminalEpochFromAccount k (c.rpcData k) slot = .ok terminal ↔
      (e.terminalState = .expired ∨ e.terminalState = .aborted) ∧
        terminal = ⟨k, e.epochId, e.terminalState, slot⟩ := by
  simp only [Host.confirmedTerminalEpochFromAccount, bind_ok, Unique.exists_iff, rejectIf_eq_ok,
    not_not, Host.decodeProgramEpoch_ok]
  constructor
  · rintro ⟨e', ⟨-, he', -⟩, hended, hok⟩
    obtain rfl : e' = e := EpochStateV1.encode_injective (he'.symm.trans hk.2)
    cases hok
    exact ⟨hended, rfl⟩
  · rintro ⟨hended, rfl⟩
    exact ⟨e, ⟨hk.1, hk.2, h.epochValid.address⟩, hended, rfl⟩

end Sound

/-- In every reachable state, each reader accepts an epoch exactly in the states in which the
program lets it go on, and hands on what the records hold. -/
theorem readers_agree_with_program {host : Host} (lawful : host.toRuntime.Lawful)
    (hhash : ∀ m, host.sha256 m ≠ zero32) {c₀ c : Chain} {es : List Event} (genesis : c₀.Genesis)
    (run : Run host.ChainStep c₀ es c) {k : Pubkey} {e : EpochStateV1} (hk : c.EpochAt k e)
    {clockData : RpcAccountData} {clock : Clock} {slot : UInt64}
    (hclock : host.ReadsClock clockData clock slot) :
    ∃ p, c.PoolAt e.pool p ∧ (e.configuration p).digest host.sha256 = e.configurationHash ∧
      (host.validKey p.operator = true → ∀ confirmed,
        host.confirmedOpenEpochFromAccounts k (c.rpcData k) e.pool (c.rpcData e.pool) clockData
            slot = .ok confirmed ↔
          (e.terminalState = .open ∧ clock.unixTimestamp < e.lockDeadline) ∧
            confirmed = .of k e p clock slot) ∧
      (∀ lock,
        host.confirmedLockFromAccounts k (c.rpcData k) (c.rpcData e.pool) clockData slot =
            .ok lock ↔
          (e.terminalState = .locked ∧ clock.unixTimestamp ≤ e.abortDeadline) ∧
            lock = ⟨k, e, some p, slot⟩) ∧
      ∀ terminal, host.confirmedTerminalEpochFromAccount k (c.rpcData k) slot = .ok terminal ↔
        (e.terminalState = .expired ∨ e.terminalState = .aborted) ∧
          terminal = ⟨k, e.epochId, e.terminalState, slot⟩ := by
  obtain ⟨p, hsound⟩ := Runtime.sound_of_run lawful genesis run k e hk
  exact ⟨p, hsound.poolAt, hsound.configuration_digest,
    fun hoperator _ => hsound.open_read hk hclock hoperator,
    fun _ => hsound.lock_read hk hhash hclock, fun _ => hsound.terminal_read hk⟩

namespace Sample

/-- The clock account as a client reads it, at a time of slot 1. -/
def clockRead (unixTimestamp : Int64) : RpcAccountData := ⟨sysvarOwnerId, clockData unixTimestamp⟩

theorem clockRead_reads (unixTimestamp : Int64) {slot : UInt64} (hslot : 1 ≤ slot) :
    host.ReadsClock (clockRead unixTimestamp) ⟨1, unixTimestamp⟩ slot where
  owner := rfl
  reads := by
    have hread : (Codec.u64.pair Codec.i64).read (clockData unixTimestamp) =
        some (1, unixTimestamp) := Codec.read_encode _ _
    exact congrArg (Option.map fun x : UInt64 × Int64 => (⟨x.1, x.2⟩ : Clock)) hread
  slot_le := hslot

theorem packageLock_on : packageLock.On packageChain poolState := by
  have hpools := Runtime.poolsValid_of_run host_lawful chain_genesis package_run
  obtain ⟨-, pool, hon⟩ :=
    Host.fetchConfirmedLock_ok hpools (rpc_reads packageChain) fetch_packageLock
  rwa [Option.some.inj hon.poolRead]

end Sample

theorem readers_agree_with_program_locked : ∃ p, Sample.packageChain.PoolAt Sample.pool p ∧
    Sample.host.confirmedLockFromAccounts Sample.epoch (Sample.packageChain.rpcData Sample.epoch)
        (Sample.packageChain.rpcData Sample.pool) (Sample.clockRead 9) 40 =
      .ok ⟨Sample.epoch, Sample.packageEpoch, some p, 40⟩ := by
  obtain ⟨p, hpool, -, -, hlock, -⟩ := readers_agree_with_program Sample.host_lawful
    Sample.sha256_ne Sample.chain_genesis Sample.package_run Sample.packageLock_on.epochAt
    (Sample.clockRead_reads 9 (by decide : (1 : UInt64) ≤ 40))
  exact ⟨p, hpool, (hlock _).mpr ⟨⟨rfl, by decide⟩, rfl⟩⟩

end Kageb
