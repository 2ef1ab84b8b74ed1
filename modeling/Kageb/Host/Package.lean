import Kageb.Host.Lock

/-! What a package guarantees that passes validation, and what its two roots commit to. -/

namespace Kageb

open Binary Binary.Codec Checks Maps

theorem checkMembers_ok {host : Host} {policy : AdmissionPolicyV1}
    {submissions : List EncryptedSubmissionV1} {participants nonces receipts : Finset Bytes32}
    (h : checkMembers host policy participants nonces receipts submissions = .ok ()) :
    (∀ s ∈ submissions, s.verifyAdmission host policy = .ok () ∧
      s.authorization.participantId ∉ participants) ∧
    (submissions.map fun s => s.authorization.participantId).Nodup := by
  induction submissions generalizing participants nonces receipts with
  | nil => simp
  | cons s submissions ih =>
    simp only [checkMembers, bind_ok, Unique.exists_iff, rejectIf_eq_ok, mapError_eq_ok] at h
    obtain ⟨hadmitted, hparticipant, -, -, hrest⟩ := h
    obtain ⟨hall, hdistinct⟩ := ih hrest
    refine ⟨?_, ?_⟩
    · rw [List.forall_mem_cons]
      refine ⟨⟨hadmitted, hparticipant⟩, fun x hx => ⟨(hall x hx).1, fun hmem => ?_⟩⟩
      exact (hall x hx).2 (Finset.mem_insert_of_mem hmem)
    · rw [List.map_cons, List.nodup_cons]
      refine ⟨fun hmem => ?_, hdistinct⟩
      obtain ⟨x, hx, heq⟩ := List.mem_map.mp hmem
      exact (hall x hx).2 (Finset.mem_insert.mpr (Or.inl heq))

theorem checkBalances_ok {balances : Map Bytes32 BalanceRecordV1}
    {submissions : List EncryptedSubmissionV1} (h : checkBalances balances submissions = .ok ()) :
    ∀ s ∈ submissions, ∃ balance, balances[s.authorization.participantId]? = some balance ∧
      balance.reservedBaseAtoms = s.authorization.baseAtoms ∧
      balance.reservedQuoteAtoms = s.authorization.quoteAtoms := by
  induction submissions with
  | nil => simp
  | cons s submissions ih =>
    simp only [checkBalances, bind_ok, Unique.exists_iff, okOr_eq_ok, rejectIf_eq_ok, not_or,
      not_not] at h
    obtain ⟨balance, hbalance, ⟨hbase, hquote, -⟩, hrest⟩ := h
    rw [List.forall_mem_cons]
    exact ⟨⟨balance, hbalance, hbase, hquote⟩, ih hrest⟩

namespace LockPackageV1

variable {host : Host}

structure Valid (package : LockPackageV1 host) (confirmed : ConfirmedOpenEpoch) : Prop where
  epochAccount : package.epochAccount = confirmed.epochAccount
  configuration : package.configuration = confirmed.configuration
  minimumCount : 4 ≤ package.configuration.minimumCount
  memberCount : package.memberCount.toNat = package.submissions.length
  crowd : package.configuration.minimumCount ≤ package.memberCount
  admitted : ∀ s ∈ package.submissions, s.verifyAdmission host confirmed.policy = .ok ()
  participants : (package.submissions.map fun s => s.authorization.participantId).Nodup
  members : Kageb.memberRoot host package.epochPublicKeys package.submissions =
    .ok package.memberRoot
  preBalances : balanceRoot host package.balances = .ok package.preBalanceRoot

theorem validate_ok {package : LockPackageV1 host} {confirmed : ConfirmedOpenEpoch}
    {digest : Bytes32} (h : package.validate confirmed = .ok digest) :
    package.Valid confirmed ∧ digest = package.lockPayload.digest host.sha256 := by
  simp only [validate, bind_ok, Unique.exists_iff, rejectIf_eq_ok, not_or, not_not] at h
  obtain ⟨⟨hepoch, hconfiguration, hminimum, -⟩, -, -, hcount, hcrowd, hmembers, root, hroot,
    rfl, -, balances, hbalances, rfl, -, -, -, hdigest⟩ := h
  obtain ⟨hadmitted, hparticipants⟩ := checkMembers_ok hmembers
  exact ⟨⟨hepoch, hconfiguration, UInt32.not_lt.mp hminimum, hcount, UInt32.not_lt.mp hcrowd,
    fun s hs => (hadmitted s hs).1, hparticipants, hroot, hbalances⟩, (Except.ok.inj hdigest).symm⟩

theorem limits_of_validate {package : LockPackageV1 host} {confirmed : ConfirmedOpenEpoch}
    {digest : Bytes32} (h : package.validate confirmed = .ok digest) :
    package.submissions.length ≤ maxBatchMembers ∧ package.balances.length ≤ maxBatchMembers := by
  simp only [validate, bind_ok, Unique.exists_iff, rejectIf_eq_ok, not_or, not_lt, gt_iff_lt] at h
  exact h.2.2.1

/-- The balances of a validated package are of distinct participants, and the balance of every
submission reserves what its authorization funds. -/
theorem balances_of_validate {package : LockPackageV1 host} {confirmed : ConfirmedOpenEpoch}
    {digest : Bytes32} (h : package.validate confirmed = .ok digest) :
    (package.balances.map BalanceRecordV1.participantId).Nodup ∧
      ∀ s ∈ package.submissions, ∃ balance ∈ package.balances,
        balance.participantId = s.authorization.participantId ∧
        balance.reservedBaseAtoms = s.authorization.baseAtoms ∧
        balance.reservedQuoteAtoms = s.authorization.quoteAtoms := by
  simp only [validate, bind_ok, Unique.exists_iff, rejectIf_eq_ok, not_not] at h
  obtain ⟨-, -, -, -, -, -, -, -, -, -, -, -, -, -, hsize, hbalances, -⟩ := h
  have hnodup : (package.balances.map BalanceRecordV1.participantId).Nodup := by
    have := Map.size_ofList_eq_length.mp (hsize.trans (List.length_map _).symm)
    rwa [List.map_map] at this
  refine ⟨hnodup, fun s hs => ?_⟩
  obtain ⟨balance, hbalance, hreserved⟩ := checkBalances_ok hbalances s hs
  rw [Map.getElem?_ofList (by rwa [List.map_map]), List.mem_map] at hbalance
  obtain ⟨found, hfound, heq⟩ := hbalance
  obtain ⟨hparticipant, rfl⟩ := Prod.mk.inj heq
  exact ⟨found, hfound, hparticipant, hreserved⟩

/-- What a package guarantees that passes against a lock. -/
structure Locked (package : LockPackageV1 host) (confirmed : ConfirmedLock)
    (pool : PoolStateV1) : Prop where
  poolRead : confirmed.pool = some pool
  valid : ∃ policy timestamp, package.Valid
    { epochAccount := confirmed.epochAccount
      configuration := confirmed.state.configuration pool
      policy
      currentTimestamp := timestamp
      confirmationSlot := confirmed.confirmationSlot }
  digest : package.lockPayload.digest host.sha256 = confirmed.state.lockDigest
  preBalanceRoot : package.preBalanceRoot = confirmed.state.preBalanceRoot
  memberRoot : package.memberRoot = confirmed.state.memberRoot
  memberCount : package.memberCount = confirmed.state.memberCount

theorem validateLocked_ok {package : LockPackageV1 host} {confirmed : ConfirmedLock}
    {digest : Bytes32} (h : package.validateLocked confirmed = .ok digest) :
    ∃ pool, package.Locked confirmed pool ∧ digest = confirmed.state.lockDigest := by
  simp only [validateLocked, bind_ok, Unique.exists_iff, rejectIf_eq_ok, okOr_eq_ok, not_or,
    not_not] at h
  obtain ⟨pool, hpool, -, policy, -, digest', hdigest', ⟨hlock, hpre, hroot, hcount⟩, hok⟩ := h
  obtain ⟨hvalid, rfl⟩ := validate_ok hdigest'
  cases hok
  exact ⟨pool, ⟨hpool, ⟨policy, _, hvalid⟩, hlock, hpre, hroot, hcount⟩, hlock⟩

end LockPackageV1

/-! ### What a package commits to -/

def memberMessages (host : Host) (publicKeys : EpochPublicKeys host)
    (submissions : List EncryptedSubmissionV1) : List Bytes :=
  match publicKeys.commitmentLeaf with
  | .ok leaf => contentMessages host.sha256 .memberSet
      (leaf :: submissions.map (EncryptedSubmissionV1.commitmentBytes host))
  | .error _ => []

/-- What is hashed for the lock digest and for the two roots of a package. -/
def LockPackageV1.messages {host : Host} (package : LockPackageV1 host) : List Bytes :=
  package.lockPayload.message ::
    (memberMessages host package.epochPublicKeys package.submissions ++
      package.submissions.map EncryptedSubmissionV1.ciphertext ++
      contentMessages host.sha256 .balanceSet (package.balances.map BalanceRecordV1.encode))

theorem EncryptedSubmissionV1.version_of_admitted {host : Host} {s : EncryptedSubmissionV1}
    {policy : AdmissionPolicyV1} (h : s.verifyAdmission host policy = .ok ()) :
    s.authorization.version = authorizationVersion := by
  simp only [verifyAdmission, FundedAuthorizationV1.verify, bind_ok, Unique.exists_iff,
    rejectIf_eq_ok, not_or, not_not] at h
  exact h.1.1.1

/-- The first byte tells the key set from a submission. -/
theorem EncryptedSubmissionV1.commitmentBytes_ne_keySet {host : Host} {s : EncryptedSubmissionV1}
    (h : s.authorization.version = authorizationVersion) (encoded : Bytes) :
    commitmentBytes host s ≠ epochKeySetDomain ++ encoded := by
  intro heq
  have hhead : (commitmentBytes host s).head? = some s.authorization.version := rfl
  rw [heq, h, show (epochKeySetDomain ++ encoded).head? = some 75 from rfl] at hhead
  exact absurd (Option.some.inj hhead) (by decide)

theorem commitmentLeaf_ok {host : Host} {k : EpochPublicKeys host} {leaf : Bytes}
    (h : k.commitmentLeaf = .ok leaf) :
    ∃ encoded, host.serializeKeys k.keys = some encoded ∧ leaf = epochKeySetDomain ++ encoded := by
  simp only [EpochPublicKeys.commitmentLeaf, EpochPublicKeys.encodeWire, bind_ok, okOr_eq_ok] at h
  obtain ⟨encoded, hencoded, hleaf⟩ := h
  exact ⟨encoded, hencoded, (Except.ok.inj hleaf).symm⟩

theorem memberRoot_ok {host : Host} {k : EpochPublicKeys host}
    {submissions : List EncryptedSubmissionV1} {root : Bytes32}
    (h : memberRoot host k submissions = .ok root) :
    ∃ encoded, host.serializeKeys k.keys = some encoded ∧
      contentRoot host.sha256 .memberSet ((epochKeySetDomain ++ encoded) ::
        submissions.map (EncryptedSubmissionV1.commitmentBytes host)) = .ok root ∧
      memberMessages host k submissions = contentMessages host.sha256 .memberSet
        ((epochKeySetDomain ++ encoded) ::
          submissions.map (EncryptedSubmissionV1.commitmentBytes host)) := by
  simp only [memberRoot, bind_ok, mapError_eq_ok] at h
  obtain ⟨leaf, hleaf, hroot⟩ := h
  obtain ⟨encoded, hencoded, rfl⟩ := commitmentLeaf_ok hleaf
  exact ⟨encoded, hencoded, hroot, by simp only [memberMessages, hleaf]⟩

/-- A member root binds the key set and the submissions. -/
theorem memberRoot_binds {host : Host} {k k' : EpochPublicKeys host}
    {submissions submissions' : List EncryptedSubmissionV1} {root : Bytes32} {s : Set Bytes}
    (hinj : Set.InjOn host.sha256 s)
    (hmem : ∀ m ∈ memberMessages host k submissions ++
      submissions.map EncryptedSubmissionV1.ciphertext, m ∈ s)
    (hmem' : ∀ m ∈ memberMessages host k' submissions' ++
      submissions'.map EncryptedSubmissionV1.ciphertext, m ∈ s)
    (hversion : ∀ x ∈ submissions', x.authorization.version = authorizationVersion)
    (h : memberRoot host k submissions = .ok root)
    (h' : memberRoot host k' submissions' = .ok root) :
    host.serializeKeys k.keys = host.serializeKeys k'.keys ∧ submissions.Perm submissions' := by
  obtain ⟨encoded, hencoded, hroot, hmessages⟩ := memberRoot_ok h
  obtain ⟨encoded', hencoded', hroot', hmessages'⟩ := memberRoot_ok h'
  rw [List.forall_mem_append, hmessages] at hmem
  rw [List.forall_mem_append, hmessages'] at hmem'
  have hperm := contentRoot_perm hinj hmem.1 hmem'.1 hroot hroot'
  have hkeys : epochKeySetDomain ++ encoded = epochKeySetDomain ++ encoded' := by
    rcases List.mem_cons.mp (hperm.subset List.mem_cons_self) with heq | hleaf
    · exact heq
    · obtain ⟨x, hx, heq⟩ := List.mem_map.mp hleaf
      exact absurd heq (EncryptedSubmissionV1.commitmentBytes_ne_keySet (hversion x hx) _)
  rw [hkeys] at hperm
  refine ⟨by rw [hencoded, hencoded', List.append_cancel_left hkeys], ?_⟩
  refine perm_of_map_perm (EncryptedSubmissionV1.commitmentBytes_injOn hinj) ?_ ?_
    ((List.perm_cons _).mp hperm)
  · exact fun x hx => hmem.2 _ (List.mem_map_of_mem hx)
  · exact fun x hx => hmem'.2 _ (List.mem_map_of_mem hx)

theorem BalanceRecordV1.encode_injective : Function.Injective BalanceRecordV1.encode := by
  intro a b h
  simp only [encode, List.append_assoc] at h
  obtain ⟨hparticipant, h⟩ := (array 32).append_inj h
  obtain ⟨hbase, h⟩ := u64.append_inj h
  obtain ⟨hquote, h⟩ := u64.append_inj h
  obtain ⟨hreservedBase, h⟩ := u64.append_inj h
  have hreservedQuote := u64.encode_injective h
  cases a
  cases b
  simp_all

/-- A balance root binds the balances. -/
theorem balanceRoot_binds {host : Host} {records records' : List BalanceRecordV1} {root : Bytes32}
    {s : Set Bytes} (hinj : Set.InjOn host.sha256 s)
    (hmem : ∀ m ∈ contentMessages host.sha256 .balanceSet (records.map BalanceRecordV1.encode),
      m ∈ s)
    (hmem' : ∀ m ∈ contentMessages host.sha256 .balanceSet (records'.map BalanceRecordV1.encode),
      m ∈ s)
    (h : balanceRoot host records = .ok root) (h' : balanceRoot host records' = .ok root) :
    records.Perm records' :=
  (List.map_perm_map_iff BalanceRecordV1.encode_injective).mp
    (contentRoot_perm hinj hmem hmem' (mapError_eq_ok.mp h) (mapError_eq_ok.mp h'))

end Kageb
