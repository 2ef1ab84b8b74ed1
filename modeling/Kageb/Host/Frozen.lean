import Kageb.Host.Gates
import Kageb.Host.NoEquivocation
import Kageb.Lib.History
import Kageb.Program.Acceptance

/-! A package between its approval and its settlement: the program locks what the keypers approved,
and what was valid when the crowd was frozen is checked again when shares are released. -/

namespace Kageb

open Binary Checks Files Maps Runs

/-! ### The same checks at a later slot -/

section Later

variable {host : Host}

/-- A submission that was admitted at one slot is admitted at another if it has not expired. -/
theorem EncryptedSubmissionV1.verifyAdmission_at {s : EncryptedSubmissionV1}
    {policy : AdmissionPolicyV1} (h : s.verifyAdmission host policy = .ok ()) (slot : UInt64) :
    s.verifyAdmission host { policy with currentSlot := slot } = .ok () ↔
      slot ≤ s.authorization.expirySlot := by
  simp only [verifyAdmission, FundedAuthorizationV1.verify, bind_ok, Unique.exists_iff,
    rejectIf_eq_ok, not_or, not_not, UInt64.not_lt] at h ⊢
  obtain ⟨⟨⟨hversion, hkey, hbase, hquote, -⟩, hrest⟩, hsubmission⟩ := h
  exact ⟨fun h => h.1.1.2.2.2.2, fun hslot => ⟨⟨⟨hversion, hkey, hbase, hquote, hslot⟩, hrest⟩,
    hsubmission⟩⟩

theorem checkMembers_at {policy : AdmissionPolicyV1} {submissions : List EncryptedSubmissionV1}
    {participants nonces receipts : Finset Bytes32}
    (h : checkMembers host policy participants nonces receipts submissions = .ok ())
    (slot : UInt64) :
    checkMembers host { policy with currentSlot := slot } participants nonces receipts
        submissions =
      if ∀ s ∈ submissions, slot ≤ s.authorization.expirySlot then .ok ()
      else .error .invalidSubmission := by
  induction submissions generalizing participants nonces receipts with
  | nil => simp [checkMembers]
  | cons s submissions ih =>
    simp only [checkMembers, bind_ok, Unique.exists_iff, rejectIf_eq_ok, mapError_eq_ok] at h
    obtain ⟨hadmitted, hparticipant, hnonce, hreceipt, hrest⟩ := h
    have hat := EncryptedSubmissionV1.verifyAdmission_at hadmitted slot
    simp only [List.forall_mem_cons, checkMembers]
    by_cases hslot : slot ≤ s.authorization.expirySlot
    · refine (bind_of_ok (mapError_eq_ok.mpr (hat.mpr hslot)) _).trans ?_
      refine (rejectIf_bind_of_not hparticipant).trans ?_
      refine (rejectIf_bind_of_not hnonce).trans ?_
      refine (rejectIf_bind_of_not hreceipt).trans ?_
      simp only [ih hrest, hslot, true_and]
    · rw [if_neg fun hall => hslot hall.1]
      cases hverify : s.verifyAdmission host { policy with currentSlot := slot } with
      | ok => exact absurd (hat.mp hverify) hslot
      | error e => rfl

/-- No authorization of the package has expired at the slot. -/
def LockPackageV1.Unexpired (package : LockPackageV1 host) (slot : UInt64) : Prop :=
  ∀ s ∈ package.submissions, slot ≤ s.authorization.expirySlot

instance (package : LockPackageV1 host) (slot : UInt64) : Decidable (package.Unexpired slot) :=
  inferInstanceAs (Decidable (∀ s ∈ package.submissions, slot ≤ s.authorization.expirySlot))

/-- What passed validation passes it again before the deadline, as long as nothing has expired. -/
theorem LockPackageV1.validate_at {package : LockPackageV1 host} {confirmed later : ConfirmedOpenEpoch}
    {digest : Bytes32} {slot : UInt64} (h : package.validate confirmed = .ok digest)
    (hepoch : later.epochAccount = confirmed.epochAccount)
    (hconfiguration : later.configuration = confirmed.configuration)
    (hpolicy : later.policy = { confirmed.policy with currentSlot := slot })
    (htime : later.currentTimestamp < package.configuration.lockDeadline) :
    package.validate later =
      if package.Unexpired slot then .ok digest else .error .invalidSubmission := by
  simp only [validate, bind_ok, Unique.exists_iff, rejectIf_eq_ok] at h
  obtain ⟨hchecks, -, hlimit, hcount, hcrowd, hmembers, root, hroot, hmemberRoot, hsnapshot,
    balances, hbalances, hpre, hlength, hsize, hmatched, hdigest⟩ := h
  unfold validate
  simp only [hepoch, hconfiguration, hpolicy]
  refine (rejectIf_bind_of_not hchecks).trans ?_
  refine (rejectIf_bind_of_not (Int64.not_le.mpr htime)).trans ?_
  refine (rejectIf_bind_of_not hlimit).trans ?_
  refine (rejectIf_bind_of_not hcount).trans ?_
  refine (rejectIf_bind_of_not hcrowd).trans ?_
  have hagain := checkMembers_at hmembers slot
  by_cases hslot : package.Unexpired slot
  · rw [if_pos hslot]
    refine (bind_of_ok (hagain.trans (if_pos hslot)) _).trans ?_
    refine (bind_of_ok hroot _).trans ?_
    refine (rejectIf_bind_of_not hmemberRoot).trans ?_
    refine (bind_of_ok hsnapshot _).trans ?_
    refine (bind_of_ok hbalances _).trans ?_
    refine (rejectIf_bind_of_not hpre).trans ?_
    refine (rejectIf_bind_of_not hlength).trans ?_
    refine (rejectIf_bind_of_not hsize).trans ?_
    exact (bind_of_ok hmatched _).trans hdigest
  · rw [if_neg hslot, hagain.trans (if_neg hslot)]
    rfl

theorem saturatingPred_lt {t deadline : Int64} (h : t < deadline) :
    saturatingPred deadline < deadline := by
  have hmin : deadline ≠ Int64.minValue := by
    rintro rfl
    exact absurd h (Int64.not_lt.mpr (Int64.minValue_le t))
  rw [saturatingPred, if_neg hmin, Int64.lt_iff_toInt_lt]
  have hlow : Int64.minValue.toInt < deadline.toInt :=
    lt_of_le_of_ne (Int64.le_iff_toInt_le.mp (Int64.minValue_le deadline))
      fun heq => hmin (Int64.toInt_inj.mp heq).symm
  have hhigh := deadline.toInt_lt
  rw [Int64.toInt_sub, show Int64.minValue.toInt = -2 ^ 63 from rfl] at *
  rw [Int.bmod_eq_of_le] <;> simp <;> omega

end Later

/-! ### What a keyper signs -/

section Journal

variable {host : Host}

theorem LockJournal.digest_of_add {epoch : Pubkey} {digest : Bytes32}
    {records : Map Pubkey Bytes32} {journal : LockJournal}
    (h : (LockJournal.add host epoch digest records).run.Yields (.ok journal)) :
    journal.digest epoch = some digest := by
  unfold LockJournal.add at h
  split at h
  · rename_i existing hexisting
    split_ifs at h with heq
    · cases h
      exact heq ▸ hexisting
    · cases h
  · obtain ⟨_, -, h⟩ := Call.yields_run_bind.mp h
    cases h
    simp [LockJournal.digest]

theorem LockJournal.digest_of_record {epoch : Pubkey} {digest : Bytes32} {journal : LockJournal}
    (h : (LockJournal.record host epoch digest).run.Yields (.ok journal)) :
    journal.digest epoch = some digest := by
  unfold LockJournal.record withJournalLock at h
  obtain ⟨journal, -, h⟩ := Call.yields_run_bind.mp h.of_guarded
  obtain ⟨_, -, h⟩ := Call.yields_run_bind.mp h
  obtain ⟨records, -, h⟩ := Call.yields_run_bind.mp h
  exact digest_of_add h

theorem ReferenceKeyper.validate_of_checkLock {keyper : ReferenceKeyper host}
    {package : LockPackageV1 host} {confirmed : ConfirmedOpenEpoch}
    {secret : KeyperSecretShare host} {digest : Bytes32}
    (h : keyper.checkLock package confirmed secret = .ok digest) :
    package.validate confirmed = .ok digest := by
  simp only [checkLock, bind_ok, Unique.exists_iff] at h
  obtain ⟨_, -, -, hvalid⟩ := h
  exact hvalid

/-- A keyper signs what it has checked and recorded. -/
theorem ReferenceKeyper.signLock_ok {keyper keyper' : ReferenceKeyper host}
    {package : LockPackageV1 host} {confirmed : ConfirmedOpenEpoch}
    {secret : KeyperSecretShare host} {approval : LockApprovalV1}
    (h : (keyper.signLock package confirmed secret).run.Yields (.ok (approval, keyper'))) :
    keyper.checkLock package confirmed secret = .ok approval.digest ∧
      keyper'.index = keyper.index ∧ keyper'.signingKey = keyper.signingKey ∧
      keyper'.journal.digest package.epochAccount = some approval.digest := by
  obtain ⟨digest, hcheck, h⟩ := Call.yields_run_bind.mp h
  obtain ⟨journal, hrecord, h⟩ := Call.yields_run_bind.mp h
  cases h
  exact ⟨Call.yields_lift.mp hcheck, rfl, rfl, LockJournal.digest_of_record hrecord⟩

/-- What the log of a journal says of a keyper that has signed. -/
theorem ReferenceKeyper.signed_of_log {removable : JournalFile → Prop}
    {files : JournalFile → Option Bytes} {s : State (journalMachine host removable)} {i : Nat}
    {keyper keyper' : ReferenceKeyper host} {package : LockPackageV1 host}
    {confirmed : ConfirmedOpenEpoch} {secret : KeyperSecretShare host} {approval : LockApprovalV1}
    (hreaches : Reaches (State.initial Unit files) s)
    (h : .returned i (.signLock keyper package confirmed secret) (.ok (approval, keyper')) ∈
      s.world.log) :
    keyper.checkLock package confirmed secret = .ok approval.digest ∧
      keyper'.index = keyper.index ∧ keyper'.signingKey = keyper.signingKey ∧
      keyper'.journal.digest package.epochAccount = some approval.digest :=
  signLock_ok (hreaches.yields h)

end Journal

/-! ### From the approval to the lock -/

section Lock

variable {host : Host} {package : LockPackageV1 host} {epoch : Pubkey} {e : EpochStateV1}
  {p : PoolStateV1} {clock : Clock} {slot : UInt64} {digest : Bytes32}

theorem balanceRoot_ne (hhash : ∀ m, host.sha256 m ≠ zero32) {records : List BalanceRecordV1}
    {root : Bytes32} (h : balanceRoot host records = .ok root) : root ≠ zero32 := by
  rw [contentRoot_ok (mapError_eq_ok.mp h)]
  exact hhash _

theorem memberRoot_ne (hhash : ∀ m, host.sha256 m ≠ zero32) {keys : EpochPublicKeys host}
    {submissions : List EncryptedSubmissionV1} {root : Bytes32}
    (h : memberRoot host keys submissions = .ok root) : root ≠ zero32 := by
  obtain ⟨encoded, -, hroot, -⟩ := memberRoot_ok h
  rw [contentRoot_ok hroot]
  exact hhash _

theorem LockPackageV1.lockNonce_of_validate {confirmed : ConfirmedOpenEpoch}
    (h : package.validate confirmed = .ok digest) : package.lockNonce ≠ zero32 := by
  simp only [validate, bind_ok, Unique.exists_iff, rejectIf_eq_ok, not_or] at h
  obtain ⟨⟨-, -, -, -, -, -, -, -, -, -, -, -, -, -, hnonce⟩, -⟩ := h
  exact hnonce

/-- What a keyper checked is what the program checks. -/
theorem LockPackageV1.lockAccepted (hhash : ∀ m, host.sha256 m ≠ zero32)
    (h : package.validate (.of epoch e p clock slot) = .ok digest)
    (hconfiguration : (e.configuration p).digest host.sha256 = e.configurationHash)
    (hthreshold : p.lockThreshold = 2) (hopen : e.terminalState = .open) {c : Chain}
    {now : Clock} (hclock : host.deserializeClock (c clockId).data = some now)
    (htime : now.unixTimestamp < e.lockDeadline) {tx : InstructionsSysvar}
    (hquorum : TwoApprove tx p.keypers digest) :
    LockAccepted host.toRuntime tx c epoch p e package.lockPayload := by
  obtain ⟨hvalid, hdigest⟩ := validate_ok h
  have hsame : package.configuration = e.configuration p := hvalid.configuration
  have hminimum : package.configuration.minimumCount = e.minimumCount := by
    rw [hsame]
    rfl
  obtain ⟨count, hcount, htwo⟩ := hquorum.count
  exact
    { terminalState := hopen
      clock := ⟨now, hclock, htime⟩
      epochAccount := hvalid.epochAccount
      configurationHash := (congrArg (·.digest host.sha256) hsame).trans hconfiguration
      lockDeadline := congrArg EpochConfigurationV1.lockDeadline hsame
      lockNonce := lockNonce_of_validate h
      preBalanceRoot := balanceRoot_ne hhash hvalid.preBalances
      memberRoot := memberRoot_ne hhash hvalid.members
      memberCount := hminimum ▸ hvalid.crowd
      quorum := ⟨count, hdigest ▸ hcount, hthreshold.symm ▸ htwo⟩ }

/-- A lock of the package is read back as valid, as long as nothing has expired. -/
theorem LockPackageV1.validateLocked_at (h : package.validate (.of epoch e p clock slot) = .ok digest)
    (hpool : host.PoolValid e.pool p) (hepoch : host.EpochValid epoch e e.pool p)
    (htime : clock.unixTimestamp < e.lockDeadline) (hoperator : host.validKey p.operator = true)
    (later : UInt64) :
    package.validateLocked ⟨epoch, e.withLock package.lockPayload digest, some p, later⟩ =
      if package.Unexpired later then .ok digest else .error .invalidSubmission := by
  have hdeadline : package.configuration.lockDeadline = e.lockDeadline :=
    congrArg EpochConfigurationV1.lockDeadline (validate_ok h).1.configuration
  have hlot : p.baseLotAtoms = e.baseLotAtoms := hepoch.baseLotAtoms.symm
  unfold validateLocked
  refine (bind_of_ok (okOr_eq_ok.mpr rfl) _).trans ?_
  refine (rejectIf_bind_of_not (by simp [hoperator])).trans ?_
  refine (bind_of_ok (mapError_eq_ok.mpr (AdmissionPolicyV1.new_eq hepoch.minimumCount
    hpool.baseLotAtoms hepoch.quoteAtomsPerLot)) _).trans ?_
  have hpolicy : (⟨e.epochId, p.operator, e.minimumCount.toNat, p.baseLotAtoms, e.quoteAtomsPerLot,
      later⟩ : AdmissionPolicyV1) =
      { (ConfirmedOpenEpoch.of epoch e p clock slot).policy with currentSlot := later } := by
    rw [hlot]
    rfl
  have hagain : package.validate
      { epochAccount := epoch
        configuration := e.configuration p
        policy := ⟨e.epochId, p.operator, e.minimumCount.toNat, p.baseLotAtoms, e.quoteAtomsPerLot,
          later⟩
        currentTimestamp := saturatingPred e.lockDeadline
        confirmationSlot := later } =
      if package.Unexpired later then .ok digest else .error .invalidSubmission :=
    validate_at h rfl rfl hpolicy (by rw [hdeadline]; exact saturatingPred_lt htime)
  refine (congrArg (· >>= _) hagain).trans ?_
  by_cases hslot : package.Unexpired later
  · rw [if_pos hslot]
    exact rejectIf_bind_of_not (by simp [EpochStateV1.withLock, lockPayload])
  · rw [if_neg hslot]
    rfl

/-- The program locks the package; the epoch is sound afterwards, and nothing else has changed. -/
theorem LockPackageV1.run_lock (hhash : ∀ m, host.sha256 m ≠ zero32) {c : Chain}
    (hopen : host.OpenRead epoch (c.rpcData epoch) (c.rpcData e.pool) e p clock)
    (h : package.validate (.of epoch e p clock slot) = .ok digest) {now : Clock}
    (hclock : host.deserializeClock (c clockId).data = some now)
    (htime : now.unixTimestamp < e.lockDeadline) {tx : InstructionsSysvar}
    (hquorum : TwoApprove tx p.keypers digest) {payer : Pubkey}
    (hplain : c.Plain [payer, e.pool, epoch, instructionsId, clockId]) :
    ∃ c', host.run tx c (lockInstruction payer e.pool epoch package.lockPayload) = .ok c' ∧
      c'.EpochAt epoch (e.withLock package.lockPayload digest) ∧
      host.EpochSound c' epoch (e.withLock package.lockPayload digest) p ∧
      ∀ k, k ≠ epoch → c' k = c k := by
  have hnamed : host.Named c e.pool epoch p e :=
    ⟨fun heq => by simpa [heq] using hplain.distinct, ⟨hopen.poolOwner, hopen.poolBytes⟩,
      ⟨hopen.epochOwner, hopen.epochBytes⟩, hopen.poolValid, hopen.epochValid⟩
  have haccepted := lockAccepted hhash h hopen.epochValid.configurationHash.symm
    hopen.poolValid.lockThreshold hopen.opened hclock htime hquorum
  have hrun := haccepted.run hnamed hplain
  have hpoolAt : (c.write epoch (e.withLock package.lockPayload
      (package.lockPayload.digest host.sha256)).encode).PoolAt e.pool p := by
    rw [Chain.PoolAt, Chain.write_of_ne hnamed.ne]
    exact hnamed.poolAt
  have hsound := hnamed.sound_of_edge (EpochStateV1.withLock_edge hopen.opened) hpoolAt
    (haccepted.phase hopen.epochValid.minimumCount hopen.noResult)
  have hepochAt := Chain.EpochAt.write (e.withLock package.lockPayload
    (package.lockPayload.digest host.sha256)) hnamed.epochAt.1
  rw [← (validate_ok h).2] at hrun hsound hepochAt
  exact ⟨_, hrun, hepochAt, hsound, fun k hk => Chain.write_of_ne hk⟩

end Lock

theorem Host.fetchConfirmedOpenEpoch_accounts {host : Host} {rpc : RpcClient} {c : Chain}
    (reads : rpc.Reads c) {epoch : Pubkey} {confirmed : ConfirmedOpenEpoch}
    (h : host.fetchConfirmedOpenEpoch rpc epoch = .ok confirmed) :
    ∃ pool slot, host.confirmedOpenEpochFromAccounts epoch (c.rpcData epoch) pool (c.rpcData pool)
      (c.rpcData clockId) slot = .ok confirmed := by
  simp only [Host.fetchConfirmedOpenEpoch, bind_ok, Unique.exists_iff, okOr_eq_ok] at h
  obtain ⟨initial, -, account, -, initialState, -, response, hresponse, -, ⟨x, y, z⟩, hthree, h⟩ := h
  obtain ⟨rfl, rfl, rfl⟩ := reads.three hresponse hthree
  exact ⟨_, _, h⟩

/-- A package that a keyper approved is locked by the program, as long as the epoch is as it was
read and the deadline is ahead, and what is then read from the chain is the lock of the package. -/
theorem approved_lock_accepted {host : Host} (hhash : ∀ m, host.sha256 m ≠ zero32)
    {package : LockPackageV1 host} {epoch pool : Pubkey}
    {epochData poolData clockData : RpcAccountData} {slot : UInt64}
    {confirmed : ConfirmedOpenEpoch} {digest : Bytes32}
    (hread : host.confirmedOpenEpochFromAccounts epoch epochData pool poolData clockData slot =
      .ok confirmed)
    (hvalid : package.validate confirmed = .ok digest) {c : Chain}
    (hepoch : c.rpcData epoch = epochData) (hpool : c.rpcData pool = poolData) {now : Clock}
    (hclock : host.deserializeClock (c clockId).data = some now)
    (htime : now.unixTimestamp < package.configuration.lockDeadline) {tx : InstructionsSysvar}
    (hquorum : TwoApprove tx confirmed.configuration.keypers digest) {payer : Pubkey}
    (hplain : c.Plain [payer, pool, epoch, instructionsId, clockId]) :
    ∃ c' e p, host.run tx c (lockInstruction payer pool epoch package.lockPayload) = .ok c' ∧
      c'.EpochAt epoch e ∧ c'.PoolAt pool p ∧ e.terminalState = .locked ∧ e.lockDigest = digest ∧
      e.preBalanceRoot = package.preBalanceRoot ∧ e.memberRoot = package.memberRoot ∧
      e.memberCount = package.memberCount ∧
      ∀ clockData clock slot, host.ReadsClock clockData clock slot →
        clock.unixTimestamp ≤ e.abortDeadline →
        host.confirmedLockFromAccounts epoch (c'.rpcData epoch) (c'.rpcData pool) clockData slot =
            .ok ⟨epoch, e, some p, slot⟩ ∧
          package.validateLocked ⟨epoch, e, some p, slot⟩ =
            if package.Unexpired slot then .ok digest else .error .invalidSubmission := by
  obtain ⟨e, p, clock, rfl, -, hopen, rfl⟩ := Host.confirmedOpenEpochFromAccounts_ok.mp hread
  subst hepoch hpool
  have hdeadline : package.configuration.lockDeadline = e.lockDeadline :=
    congrArg EpochConfigurationV1.lockDeadline (LockPackageV1.validate_ok hvalid).1.configuration
  obtain ⟨c', hrun, hepochAt, hsound, -⟩ := LockPackageV1.run_lock hhash hopen hvalid hclock
    (hdeadline ▸ htime) hquorum hplain
  refine ⟨c', _, p, hrun, hepochAt, hsound.poolAt, rfl, rfl, rfl, rfl, rfl, ?_⟩
  intro clockData' clock' slot' hclock' htime'
  exact ⟨(hsound.lock_read hepochAt hhash hclock').mpr ⟨⟨rfl, htime'⟩, rfl⟩,
    LockPackageV1.validateLocked_at hvalid hopen.poolValid hopen.epochValid hopen.timely
      hopen.operator slot'⟩

namespace Sample

/-- Two keypers approve the lock in front of its instruction. -/
def approvedTx (payload : LockPayloadV1) : InstructionsSysvar :=
  transaction [approval keypers.first (payload.digest sha256),
    approval keypers.second (payload.digest sha256)] (.lock payload)
    (by rw [List.length_cons, List.length_singleton]; decide)

theorem approvedTx_approves (payload : LockPayloadV1) :
    TwoApprove (approvedTx payload) keypers (payload.digest sha256) :=
  ⟨keypers.first, by decide, keypers.second, by decide, by decide,
    ⟨_, List.mem_cons_self, approves_approval _ _⟩,
    ⟨_, List.mem_cons_of_mem _ List.mem_cons_self, approves_approval _ _⟩⟩

theorem openChain_plain : openChain.Plain [payer, pool, epoch, instructionsId, clockId] :=
  ⟨by decide +kernel, by decide +kernel⟩

theorem clockId_ne_epoch : clockId ≠ epoch := by
  have hrest := (List.nodup_cons.mp (List.nodup_cons.mp openChain_plain.distinct).2).2
  exact fun heq => (List.nodup_cons.mp hrest).1 (heq ▸ by simp)

theorem openChain_rpcClock : openChain.rpcData clockId = clockRead 6 := by
  simp [openChain, atTime, Chain.set, Chain.rpcData, clockRead]

theorem openChain_clock : host.deserializeClock (openChain clockId).data = some ⟨1, 6⟩ := by
  have hdata := congrArg RpcAccountData.data openChain_rpcClock
  exact (congrArg host.deserializeClock hdata).trans (@clockRead_reads 6 1 (by decide)).reads

theorem returned_of_told {k : Fin 3} {op : JournalOp host}
    {result : (journalMachine host (removable k)).Result op}
    (h : (openedJournal k).told op = result) :
    .returned (openedJournal k).next op result ∈ ((openedJournal k).solo op).world.log :=
  h ▸ State.solo_returned (openedJournal k) op

theorem validate_of_told {k : Fin 3} {keyper keyper' : ReferenceKeyper host}
    {package : LockPackageV1 host} {confirmed : ConfirmedOpenEpoch}
    {secret : KeyperSecretShare host} {approval : LockApprovalV1}
    (h : (openedJournal k).told (.signLock keyper package confirmed secret) =
      .ok (approval, keyper')) : package.validate confirmed = .ok approval.digest :=
  ReferenceKeyper.validate_of_checkLock
    (ReferenceKeyper.signed_of_log (openedJournal_reaches k _) (returned_of_told h)).1

theorem package_validates :
    (package [1, 2, 3, 4]).validate packageOpen = .ok packageDigest := by
  obtain ⟨⟨approval, keyper⟩, htold, hdigest⟩ := signPackage_told 0
  have hvalid := validate_of_told htold
  exact hdigest ▸ hvalid

/-- The accounts from which the open epoch was read. -/
theorem openChain_read : ∃ slot, host.confirmedOpenEpochFromAccounts epoch
    (openChain.rpcData epoch) pool (openChain.rpcData pool) (openChain.rpcData clockId) slot =
      .ok packageOpen := by
  obtain ⟨pool', slot, h⟩ :=
    Host.fetchConfirmedOpenEpoch_accounts (rpc_reads openChain) fetch_packageOpen
  obtain ⟨e, p, clock, hpool, -, -, hread⟩ := Host.confirmedOpenEpochFromAccounts_ok.mp h
  have hkey : pool = pool' :=
    (congrArg (fun confirmed => confirmed.configuration.pool) hread).trans hpool
  subst hkey
  exact ⟨slot, h⟩

end Sample

theorem approved_lock_accepted_sample : ∃ c' e, Sample.host.run
      (Sample.approvedTx (Sample.package [1, 2, 3, 4]).lockPayload) Sample.openChain
      (lockInstruction Sample.payer Sample.pool Sample.epoch
        (Sample.package [1, 2, 3, 4]).lockPayload) = .ok c' ∧
    c'.EpochAt Sample.epoch e ∧ e.terminalState = .locked ∧
    e.lockDigest = Sample.packageDigest := by
  obtain ⟨slot, hread⟩ := Sample.openChain_read
  obtain ⟨c', e, p, hrun, hat, -, hlocked, hdigest, -⟩ :=
    approved_lock_accepted Sample.sha256_ne hread Sample.package_validates rfl rfl
      Sample.openChain_clock (by decide) (Sample.approvedTx_approves _) Sample.openChain_plain
  exact ⟨c', e, hrun, hat, hlocked, hdigest⟩

/-! ### From the lock to the release -/

/-- An epoch that is open was not touched since it was made. -/
theorem EpochStateV1.Follows.eq_of_open {e e' : EpochStateV1} (h : e.Follows e')
    (hopen : e'.terminalState = .open) : e' = e := by
  rcases Relation.ReflTransGen.cases_tail h with heq | ⟨mid, -, hedge⟩
  · exact heq
  · cases hedge with
    | lock _ hafter => exact absurd (hopen.symm.trans hafter) (by decide)
    | expire _ hafter => exact absurd (hopen.symm.trans hafter) (by decide)
    | settle _ hafter => exact absurd (hopen.symm.trans hafter) (by decide)
    | abort _ hafter => exact absurd (hopen.symm.trans hafter) (by decide)

/-- A keyper signed the package for an open epoch that it read; the package was locked afterwards,
and later the lock was read. -/
inductive Frozen {host : Host} (package : LockPackageV1 host) (secret : KeyperSecretShare host) :
    LockApprovalV1 → ReferenceKeyper host → ConfirmedLock → Prop
  | intro {c₀ c c₁ c₂ c₃ : Chain} {es fs gs : List Event} {rpc rpc' : RpcClient} {epoch : Pubkey}
      {confirmed : ConfirmedOpenEpoch} {removable : JournalFile → Prop}
      {files : JournalFile → Option Bytes} {s : State (journalMachine host removable)} {i : Nat}
      {keyper keyper' : ReferenceKeyper host} {approval : LockApprovalV1}
      {tx : InstructionsSysvar} {accounts : List AccountMeta} {lock : ConfirmedLock}
      (genesis : c₀.Genesis) (run : Run host.ChainStep c₀ es c) (reads : rpc.Reads c)
      (opened : host.fetchConfirmedOpenEpoch rpc epoch = .ok confirmed)
      (journal : Reaches (State.initial Unit files) s)
      (signed : .returned i (.signLock keyper package confirmed secret) (.ok (approval, keyper')) ∈
        s.world.log)
      (before : Run host.ChainStep c fs c₁)
      (locked : host.processInstruction tx c₁ programId accounts
        (KagebInstruction.lock package.lockPayload).encode = .ok c₂)
      (after : Run host.ChainStep c₂ gs c₃) (reads' : rpc'.Reads c₃)
      (read : host.fetchConfirmedLock rpc' epoch = .ok lock) :
      Frozen package secret approval keyper' lock

section Release

variable {host : Host} {package : LockPackageV1 host} {secret : KeyperSecretShare host}
  {approval : LockApprovalV1} {keyper : ReferenceKeyper host} {lock : ConfirmedLock}

/-- What the keyper checked when it signed, of the epoch that is now locked. -/
structure SignedLock (package : LockPackageV1 host) (secret : KeyperSecretShare host)
    (approval : LockApprovalV1) (keyper : ReferenceKeyper host) (lock : ConfirmedLock)
    (e : EpochStateV1) (p : PoolStateV1) (clock : Clock) (slot : UInt64) : Prop where
  poolValid : host.PoolValid e.pool p
  epochValid : host.EpochValid package.epochAccount e e.pool p
  timely : clock.unixTimestamp < e.lockDeadline
  operator : host.validKey p.operator = true
  validated : package.validate (.of package.epochAccount e p clock slot) = .ok approval.digest
  lock_eq : lock = ⟨package.epochAccount, e.withLock package.lockPayload approval.digest, some p,
    lock.confirmationSlot⟩
  configured : p.keypers.toList[keyper.index]? = some (host.verifyingKey keyper.signingKey)
  secretIndex : secret.index = keyper.index
  secretEpoch : secret.epochAccount = package.epochAccount
  matching : package.epochPublicKeys.matchesShare secret = true
  recorded : keyper.journal.digest package.epochAccount = some approval.digest

theorem Frozen.signedLock (lawful : host.toRuntime.Lawful)
    (h : Frozen package secret approval keyper lock) :
    ∃ e p clock slot, SignedLock package secret approval keyper lock e p clock slot := by
  obtain @⟨c₀, c, c₁, c₂, c₃, es, fs, gs, rpc, rpc', epoch, confirmed, removable, files, s, i, signer,
    keyper, approval, tx, accounts, lock, genesis, run, reads, opened, journal, signed, before,
    locked, after, reads', read⟩ := h
  obtain ⟨hcheck, hindex, hkey, hrecorded⟩ := ReferenceKeyper.signed_of_log journal signed
  simp only [ReferenceKeyper.checkLock, bind_ok, Unique.exists_iff, rejectIf_eq_ok, okOr_eq_ok,
    not_or, not_not, Bool.not_eq_false] at hcheck
  obtain ⟨configured, hconfigured, ⟨rfl, hsecret, hsecretEpoch, hmatching⟩, hvalidate⟩ := hcheck
  obtain ⟨pool, slot, haccounts⟩ := Host.fetchConfirmedOpenEpoch_accounts reads opened
  obtain ⟨e, p, clock, rfl, -, hopen, rfl⟩ := Host.confirmedOpenEpochFromAccounts_ok.mp haccounts
  obtain rfl : package.epochAccount = epoch := (LockPackageV1.validate_ok hvalidate).1.epochAccount
  -- the epoch is still as it was read when it is locked
  obtain ⟨hpools, hepochs⟩ := Runtime.run_follows lawful before
  obtain ⟨e₁, he₁, hfollows⟩ := hepochs _ e ⟨hopen.epochOwner, hopen.epochBytes⟩
  have hp₁ := hpools _ p ⟨hopen.poolOwner, hopen.poolBytes⟩
  have hinvoke : host.ChainStep c₁ (.invoke tx accounts
      (KagebInstruction.lock package.lockPayload).encode) c₂ := by
    have hstep := @Runtime.ChainStep.invoke host.toRuntime c₁ tx accounts
      (KagebInstruction.lock package.lockPayload).encode
    rwa [Runtime.execute, locked] at hstep
  have hp₂ := ((hinvoke.obeys lawful).pools _ p hp₁)
  obtain ⟨instruction, hdecode, hstep⟩ := Runtime.processInstruction_ok lawful locked
  rw [KagebInstruction.decode_encode] at hdecode
  cases hdecode
  have he₂ : c₂.EpochAt package.epochAccount
      (e.withLock package.lockPayload (package.lockPayload.digest host.sha256)) := by
    cases hstep with
    | lock named valid accepted =>
      cases accepted.epochAccount
      cases he₁.unique valid.epochAt
      cases hfollows.eq_of_open accepted.terminalState
      exact .write _ valid.epochAt.1
  rw [← (LockPackageV1.validate_ok hvalidate).2] at he₂
  -- and it does not change afterwards
  have hvalid := Runtime.poolsValid_of_run lawful genesis
    (run.append (before.append (.cons hinvoke after)))
  obtain ⟨hepoch, pool, hon⟩ := Host.fetchConfirmedLock_ok hvalid reads' read
  obtain ⟨hpools', hepochs'⟩ := Runtime.run_follows lawful after
  obtain ⟨e₃, he₃, hfollows'⟩ := hepochs' _ _ he₂
  have hstate : lock.state = e.withLock package.lockPayload approval.digest := by
    cases he₃.unique (hepoch ▸ hon.epochAt)
    exact hfollows'.eq_of_locked rfl hon.locked
  have hpool : pool = p := by
    have hkept := hpools' _ p hp₂
    have hread := hon.poolAt
    rw [hstate] at hread
    exact hread.unique hkept
  refine ⟨e, p, clock, slot, hopen.poolValid, hopen.epochValid, hopen.timely, hopen.operator,
    hvalidate, ?_, ?_, hsecret.trans hindex.symm, hsecretEpoch, hmatching, hrecorded⟩
  · have hread : lock.pool = some p := hpool ▸ hon.poolRead
    rw [← hepoch, ← hstate, ← hread]
  · rw [hindex, hkey]
    exact hconfigured

theorem SignedLock.validateLocked {e : EpochStateV1} {p : PoolStateV1} {clock : Clock}
    {slot : UInt64} (h : SignedLock package secret approval keyper lock e p clock slot) :
    package.validateLocked lock =
      if package.Unexpired lock.confirmationSlot then .ok approval.digest
      else .error .invalidSubmission := by
  rw [h.lock_eq]
  exact LockPackageV1.validateLocked_at h.validated h.poolValid h.epochValid h.timely h.operator _

/-- A share is released of every ciphertext that passes verification. -/
def Host.DecryptsVerified (host : Host) : Prop :=
  ∀ secret ciphertext, host.verifyCiphertext ciphertext = true →
    (host.decryptShare secret ciphertext).isSome

theorem KeyperSecretShare.release_of_admitted (secret : KeyperSecretShare host)
    (hshares : host.DecryptsVerified) {s : EncryptedSubmissionV1} {policy : AdmissionPolicyV1}
    (h : s.verifyAdmission host policy = .ok ()) (epoch : Pubkey) (digest : Bytes32) :
    ∃ share, secret.release epoch digest s.ciphertext = .ok share := by
  simp only [EncryptedSubmissionV1.verifyAdmission, bind_ok, Unique.exists_iff] at h
  obtain ⟨-, -, encrypted, hdecode, -⟩ := h
  have hverified : host.verifyCiphertext encrypted.ciphertext = true := by
    simp only [decodeCiphertext, bind_ok, Unique.exists_iff, rejectIf_eq_ok,
      Bool.not_eq_false] at hdecode
    obtain ⟨-, ciphertext, -, hverified, hok⟩ := hdecode
    cases hok
    exact hverified
  obtain ⟨share, hshare⟩ := Option.isSome_iff_exists.mp (hshares secret.secret _ hverified)
  exact ⟨_, (bind_of_ok hdecode _).trans (bind_of_ok (okOr_eq_ok.mpr hshare) _)⟩

/-- All that is left of the checks of a release is that no ciphertext occurs twice. -/
theorem SignedLock.releaseShare (hshares : host.DecryptsVerified) {e : EpochStateV1}
    {p : PoolStateV1} {clock : Clock} {slot : UInt64}
    (h : SignedLock package secret approval keyper lock e p clock slot)
    (hslot : package.Unexpired lock.confirmationSlot) {member : Nat}
    (hmember : member < package.memberCount.toNat) :
    if (package.submissions.map fun s => host.sha256 s.ciphertext).Nodup then
      ∃ share, keyper.releaseShare package lock secret member = .ok share
    else keyper.releaseShare package lock secret member = .error .invalidSubmission := by
  obtain ⟨hvalid, -⟩ := LockPackageV1.validate_ok h.validated
  have hlocked : package.validateLocked lock = .ok approval.digest :=
    h.validateLocked.trans (if_pos hslot)
  have hpool : lock.pool = some p := by rw [h.lock_eq]
  have hlength : member < package.submissions.length := hvalid.memberCount ▸ hmember
  have hconfigured : lock.pool.bind (fun pool => pool.keypers.toList[keyper.index]?) =
      some (host.verifyingKey keyper.signingKey) := by
    rw [hpool]
    exact h.configured
  obtain ⟨share, hshare⟩ := secret.release_of_admitted hshares
    (hvalid.admitted _ (List.getElem_mem hlength)) package.epochAccount lock.state.lockDigest
  have hstart : keyper.releaseShare package lock secret member = (do
      rejectIf (¬(package.submissions.map fun s => host.sha256 s.ciphertext).Nodup)
        LockValidationError.invalidSubmission
      .ok share) := by
    unfold ReferenceKeyper.releaseShare
    refine (bind_of_ok hlocked _).trans ?_
    refine (bind_of_ok (okOr_eq_ok.mpr hconfigured) _).trans ?_
    refine (rejectIf_bind_of_not ?_).trans ?_
    · simp [h.recorded, h.secretIndex, h.secretEpoch, h.matching]
    refine (bind_of_ok (okOr_eq_ok.mpr (List.getElem?_eq_getElem hlength)) _).trans ?_
    rw [hshare]
    rfl
  split_ifs with hdistinct
  · exact ⟨share, hstart.trans (rejectIf_bind_of_not (not_not.mpr hdistinct))⟩
  · exact hstart.trans (rejectIf_bind_of hdistinct)

theorem SignedLock.releaseShare_repeated (hshares : host.DecryptsVerified) {e : EpochStateV1}
    {p : PoolStateV1} {clock : Clock} {slot : UInt64}
    (h : SignedLock package secret approval keyper lock e p clock slot)
    (hslot : package.Unexpired lock.confirmationSlot)
    (hrepeated : ¬(package.submissions.map fun s => host.sha256 s.ciphertext).Nodup) {member : Nat}
    (hmember : member < package.memberCount.toNat) :
    keyper.releaseShare package lock secret member = .error .invalidSubmission := by
  have hrelease := h.releaseShare hshares hslot hmember
  rwa [if_neg hrepeated] at hrelease

end Release

namespace Sample

/-- A client that answers from one chain, at a given slot. -/
def rpcAt (slot : UInt64) (c : Chain) : RpcClient where
  getAccount k := some ⟨slot, some (c.rpcData k)⟩
  getMultipleAccounts keys := some ⟨slot, keys.map fun k => some (c.rpcData k)⟩

theorem rpcAt_reads (slot : UInt64) (c : Chain) : (rpcAt slot c).Reads c := by
  intro keys response h i k account hk haccount
  cases h
  simp only [List.getElem?_map, hk, Option.map_some, Option.some.injEq] at haccount
  exact haccount.symm

theorem fetch_rpcAt {slot : UInt64} {c : Chain} {k : Pubkey} {lock : ConfirmedLock}
    (h : host.confirmedLockFromAccounts k (c.rpcData k) (c.rpcData lock.state.pool)
      (c.rpcData clockId) slot = .ok lock) :
    host.fetchConfirmedLock (rpcAt slot c) k = .ok lock := by
  have hread := h
  simp only [Host.confirmedLockFromAccounts, bind_ok, Unique.exists_iff] at hread
  obtain ⟨initial, hinitial, -, pool, -, clock, -, -, hok⟩ := hread
  have hstate : initial.state = lock.state := by
    cases hok
    rfl
  have hslot : initial.confirmationSlot = slot := by
    simp only [Host.confirmedLockFromAccount, bind_ok, Unique.exists_iff] at hinitial
    obtain ⟨-, state, -, -, hok⟩ := hinitial
    cases hok
    rfl
  unfold Host.fetchConfirmedLock
  refine (bind_of_ok (okOr_eq_ok.mpr rfl) _).trans ?_
  refine (bind_of_ok (okOr_eq_ok.mpr rfl) _).trans ?_
  refine (bind_of_ok hinitial _).trans ?_
  refine (bind_of_ok (okOr_eq_ok.mpr rfl) _).trans ?_
  refine (rejectIf_bind_of_not (by rw [hslot]; exact UInt64.lt_irrefl _)).trans ?_
  refine (bind_of_ok rfl _).trans ?_
  rw [hstate]
  exact h

/-- A package that a keyper signed for the open epoch can be locked, and read at any slot. -/
theorem frozen_of_told {package : LockPackageV1 host} {keyper keyper' : ReferenceKeyper host}
    {secret : KeyperSecretShare host} {approval : LockApprovalV1}
    (h : (openedJournal 0).told (.signLock keyper package packageOpen secret) =
      .ok (approval, keyper')) {slot : UInt64} (hslot : 1 ≤ slot) :
    ∃ lock, Frozen package secret approval keyper' lock ∧ lock.confirmationSlot = slot := by
  have hvalid := validate_of_told h
  obtain ⟨readAt, hread⟩ := openChain_read
  obtain ⟨e, p, clock, hpool, -, hopen, hconfirmed⟩ :=
    Host.confirmedOpenEpochFromAccounts_ok.mp hread
  have hkeypers : keypers = p.keypers :=
    congrArg (fun confirmed => confirmed.configuration.keypers) hconfirmed
  have hlockDeadline : configuration.lockDeadline = e.lockDeadline :=
    congrArg (fun confirmed => confirmed.configuration.lockDeadline) hconfirmed
  have habortDeadline : configuration.abortDeadline = e.abortDeadline :=
    congrArg (fun confirmed => confirmed.configuration.abortDeadline) hconfirmed
  have hquorum := approvedTx_approves package.lockPayload
  have hdigest : package.lockPayload.digest sha256 = approval.digest :=
    (LockPackageV1.validate_ok hvalid).2.symm
  have hplain := openChain_plain
  rw [hkeypers, hdigest] at hquorum
  rw [← hpool] at hplain hopen
  have htime : (6 : Int64) < e.lockDeadline := hlockDeadline ▸ (by decide)
  have hvalidOf := hvalid
  rw [hconfirmed] at hvalidOf
  obtain ⟨c, hrun, hat, hsound, hframe⟩ := LockPackageV1.run_lock sha256_ne hopen hvalidOf
    openChain_clock htime hquorum hplain
  have hclock : c.rpcData clockId = clockRead 6 := by
    rw [← openChain_rpcClock, Chain.rpcData, hframe clockId clockId_ne_epoch]
    rfl
  have hlock := (hsound.lock_read hat sha256_ne (clockRead_reads 6 hslot)).mpr
    ⟨⟨rfl, habortDeadline ▸ (by decide)⟩, rfl⟩
  rw [← hclock] at hlock
  refine ⟨⟨epoch, e.withLock package.lockPayload approval.digest, some p, slot⟩, ?_, rfl⟩
  exact .intro chain_genesis open_run (rpc_reads openChain) fetch_packageOpen
    (openedJournal_reaches 0 _) (returned_of_told h) (.nil _) hrun (.nil _) (rpcAt_reads slot c)
    (fetch_rpcAt hlock)

theorem package_unexpired {slot : UInt64} :
    (package [1, 2, 3, 4]).Unexpired slot ↔ slot ≤ 100 := by
  constructor
  · intro h
    exact h (submission 1) (List.mem_map_of_mem (by decide))
  · intro h s hs
    obtain ⟨member, -, rfl⟩ := List.mem_map.mp hs
    exact h

end Sample

/-- A package that was signed and locked passes again exactly until one of its authorizations
expires. -/
theorem frozen_package_valid_iff {host : Host} (lawful : host.toRuntime.Lawful)
    {package : LockPackageV1 host} {secret : KeyperSecretShare host} {approval : LockApprovalV1}
    {keyper : ReferenceKeyper host} {lock : ConfirmedLock}
    (h : Frozen package secret approval keyper lock) :
    (∃ digest, package.validateLocked lock = .ok digest) ↔
      package.Unexpired lock.confirmationSlot := by
  obtain ⟨e, p, clock, slot, hsigned⟩ := h.signedLock lawful
  rw [hsigned.validateLocked]
  constructor
  · rintro ⟨digest, hok⟩
    by_contra hslot
    rw [if_neg hslot] at hok
    cases hok
  · intro hslot
    exact ⟨approval.digest, if_pos hslot⟩

/-- The sample package passes at the last slot of its authorizations. -/
theorem frozen_package_valid_iff_sample : ∃ approval keyper lock,
    Frozen (Sample.package [1, 2, 3, 4]) (Sample.secretShare 0) approval keyper lock ∧
      lock.confirmationSlot = 100 ∧
      ∃ digest, (Sample.package [1, 2, 3, 4]).validateLocked lock = .ok digest := by
  obtain ⟨⟨approval, keyper⟩, htold, -⟩ := Sample.signPackage_told 0
  obtain ⟨lock, hfrozen, hslot⟩ := Sample.frozen_of_told htold (by decide : (1 : UInt64) ≤ 100)
  refine ⟨approval, keyper, lock, hfrozen, hslot, ?_⟩
  refine (frozen_package_valid_iff Sample.host_lawful hfrozen).mpr ?_
  rw [hslot]
  exact Sample.package_unexpired.mpr (by decide)

/-- One slot later it is turned away, although the epoch is locked and may still be settled. -/
theorem expired_package_rejected : ∃ approval keyper lock,
    Frozen (Sample.package [1, 2, 3, 4]) (Sample.secretShare 0) approval keyper lock ∧
      lock.confirmationSlot = 101 ∧
      (Sample.package [1, 2, 3, 4]).validateLocked lock = .error .invalidSubmission := by
  obtain ⟨⟨approval, keyper⟩, htold, -⟩ := Sample.signPackage_told 0
  obtain ⟨lock, hfrozen, hslot⟩ := Sample.frozen_of_told htold (by decide : (1 : UInt64) ≤ 101)
  obtain ⟨e, p, clock, slot, hsigned⟩ := hfrozen.signedLock Sample.host_lawful
  refine ⟨approval, keyper, lock, hfrozen, hslot, ?_⟩
  rw [hsigned.validateLocked, hslot]
  exact if_neg fun h => absurd (Sample.package_unexpired.mp h) (by decide)

/-- The shares of a package that was signed and locked can be released exactly when its ciphertexts
differ. -/
theorem shares_released_iff {host : Host} (lawful : host.toRuntime.Lawful)
    (hshares : host.DecryptsVerified) {package : LockPackageV1 host}
    {secret : KeyperSecretShare host} {approval : LockApprovalV1} {keyper : ReferenceKeyper host}
    {lock : ConfirmedLock} (h : Frozen package secret approval keyper lock)
    (hslot : package.Unexpired lock.confirmationSlot) :
    (∀ member < package.memberCount.toNat,
        ∃ share, keyper.releaseShare package lock secret member = .ok share) ↔
      (package.submissions.map fun s => host.sha256 s.ciphertext).Nodup := by
  obtain ⟨e, p, clock, slot, hsigned⟩ := h.signedLock lawful
  constructor
  · intro hall
    obtain ⟨hvalid, -⟩ := LockPackageV1.validate_ok hsigned.validated
    have hcrowd := UInt32.le_iff_toNat_le.mp (UInt32.le_trans hvalid.minimumCount hvalid.crowd)
    have hfirst : 0 < package.memberCount.toNat := by
      have hfour : (4 : UInt32).toNat = 4 := rfl
      omega
    by_contra hrepeated
    obtain ⟨share, hshare⟩ := hall 0 hfirst
    cases hshare.symm.trans (hsigned.releaseShare_repeated hshares hslot hrepeated hfirst)
  · intro hdistinct member hmember
    have hrelease := hsigned.releaseShare hshares hslot hmember
    rwa [if_pos hdistinct] at hrelease

namespace Sample

theorem host_decryptsVerified : host.DecryptsVerified := fun _ _ _ => rfl

/-- The submission of a member, with the ciphertext of another. -/
def resealed (source : UInt8 → UInt8) (member : UInt8) : EncryptedSubmissionV1 :=
  let ciphertext := (submission (source member)).ciphertext
  let receipt := key (70 + member)
  { authorization := authorization member
    ciphertext
    receipt
    outerSignature := signature (key (50 + member)) (EncryptedSubmissionV1.submissionMessage epochId
      ((authorization member).hash host) (sha256 ciphertext) receipt) }

def resealedPackage (source : UInt8 → UInt8) : LockPackageV1 host :=
  { package [1, 2, 3, 4] with
    submissions := [1, 2, 3, 4].map (resealed source)
    memberRoot := rootOf (memberRoot host ⟨line⟩ ([1, 2, 3, 4].map (resealed source))) }

/-- The second member sends the ciphertext of the first. -/
def copiedPackage : LockPackageV1 host := resealedPackage fun member => if member = 2 then 1 else member

/-- The ciphertexts of the sample package, and what a keyper says to the copied one, evaluated
once. -/
theorem ciphertexts_facts :
    ((package [1, 2, 3, 4]).submissions.map fun s => host.sha256 s.ciphertext).Nodup ∧
    ((openedJournal 0).told (.signLock ⟨0, keypers.first, ⟨∅⟩⟩ copiedPackage packageOpen
      (secretShare 0))).toOption.isSome = true ∧
    copiedPackage.memberCount.toNat = 4 := by
  decide +kernel

theorem copiedPackage_told : ∃ result, (openedJournal 0).told (.signLock
    ⟨0, keypers.first, ⟨∅⟩⟩ copiedPackage packageOpen (secretShare 0)) = .ok result := by
  obtain ⟨result, hresult⟩ := Option.isSome_iff_exists.mp ciphertexts_facts.2.1
  exact ⟨result, eq_ok_of_toOption hresult⟩

theorem copiedPackage_unexpired : copiedPackage.Unexpired 3 := by
  intro s hs
  obtain ⟨member, -, rfl⟩ := List.mem_map.mp hs
  show (3 : UInt64) ≤ 100
  decide

end Sample

theorem shares_released_iff_sample : ∃ approval keyper lock,
    Frozen (Sample.package [1, 2, 3, 4]) (Sample.secretShare 0) approval keyper lock ∧
      ∀ member < 4, ∃ share, ReferenceKeyper.releaseShare keyper (Sample.package [1, 2, 3, 4]) lock
        (Sample.secretShare 0) member = .ok share := by
  obtain ⟨⟨approval, keyper⟩, htold, -⟩ := Sample.signPackage_told 0
  obtain ⟨lock, hfrozen, hslot⟩ := Sample.frozen_of_told htold (by decide : (1 : UInt64) ≤ 3)
  refine ⟨approval, keyper, lock, hfrozen, ?_⟩
  refine (shares_released_iff Sample.host_lawful Sample.host_decryptsVerified hfrozen ?_).mpr ?_
  · rw [hslot]
    exact Sample.package_unexpired.mpr (by decide)
  · exact Sample.ciphertexts_facts.1

/-- A keyper signs the lock of a package with a copied ciphertext, the program locks it, and then
no share of any member can be released. -/
theorem copied_ciphertext_frozen : ∃ approval keyper lock,
    Frozen Sample.copiedPackage (Sample.secretShare 0) approval keyper lock ∧
      Sample.copiedPackage.Unexpired lock.confirmationSlot ∧
      ∀ member < 4, ReferenceKeyper.releaseShare keyper Sample.copiedPackage lock
        (Sample.secretShare 0) member = .error .invalidSubmission := by
  obtain ⟨⟨approval, keyper⟩, htold⟩ := Sample.copiedPackage_told
  obtain ⟨lock, hfrozen, hslot⟩ := Sample.frozen_of_told htold (by decide : (1 : UInt64) ≤ 3)
  obtain ⟨e, p, clock, slot, hsigned⟩ := hfrozen.signedLock Sample.host_lawful
  have hunexpired : Sample.copiedPackage.Unexpired lock.confirmationSlot :=
    hslot ▸ Sample.copiedPackage_unexpired
  have hrepeated : ¬(Sample.copiedPackage.submissions.map
      fun s => Sample.host.sha256 s.ciphertext).Nodup := by
    intro h
    exact (List.nodup_cons.mp h).1 (List.mem_cons.mpr (.inl rfl))
  refine ⟨approval, keyper, lock, hfrozen, hunexpired, fun member hmember => ?_⟩
  exact hsigned.releaseShare_repeated Sample.host_decryptsVerified hunexpired hrepeated
    (Sample.ciphertexts_facts.2.2 ▸ hmember)

end Kageb
