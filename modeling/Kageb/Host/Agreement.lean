import Kageb.Host.Reference

/-! Keypers that settle one lock agree: whoever lists the members of the package, in whatever
order and with whichever shares, the recomputed settlement is the same. -/

namespace Kageb

open Binary Checks Maps Runs

/-- Equal in all but the nonce. -/
structure RecomputedSettlement.Agrees (r r' : RecomputedSettlement) : Prop where
  postBalances : r.postBalances = r'.postBalances
  preBalanceRoot : r.preBalanceRoot = r'.preBalanceRoot
  postBalanceRoot : r.postBalanceRoot = r'.postBalanceRoot
  residual : r.residual = r'.residual
  resultRoot : r.resultRoot = r'.resultRoot
  resultCommitment : r.resultCommitment = r'.resultCommitment
  payload : { r.payload with settlementNonce := r'.payload.settlementNonce } = r'.payload

section Agreement

variable {host : Host} {package package' : LockPackageV1 host} {confirmed confirmed' : ConfirmedLock}
  {pool pool' : PoolStateV1}

/-- Two packages that pass against one lock have one key set and the same submissions. -/
theorem LockPackageV1.Locked.sameMembers
    (hinj : Set.InjOn host.sha256 {m | m ∈ package.messages ∨ m ∈ package'.messages})
    (hsame : confirmed.Same confirmed') (h : package.Locked confirmed pool)
    (h' : package'.Locked confirmed' pool') :
    host.serializeKeys package.epochPublicKeys.keys =
      host.serializeKeys package'.epochPublicKeys.keys ∧
    package.submissions.Perm package'.submissions := by
  obtain ⟨policy, timestamp, hvalid⟩ := h.valid
  obtain ⟨policy', timestamp', hvalid'⟩ := h'.valid
  have hmembers := hvalid.members
  rw [h.memberRoot, hsame.state, ← h'.memberRoot] at hmembers
  exact memberRoot_binds hinj
    (fun m hm => Or.inl (List.mem_cons_of_mem _ (List.mem_append_left _ hm)))
    (fun m hm => Or.inr (List.mem_cons_of_mem _ (List.mem_append_left _ hm)))
    (fun s hs => EncryptedSubmissionV1.version_of_admitted (hvalid'.admitted s hs))
    hmembers hvalid'.members

/-- Two packages that pass against one lock list the same members and balances. -/
theorem LockPackageV1.Locked.agree (keys : host.KeysDetermined)
    (hinj : Set.InjOn host.sha256 {m | m ∈ package.messages ∨ m ∈ package'.messages})
    (hsame : confirmed.Same confirmed') (h : package.Locked confirmed pool)
    (h' : package'.Locked confirmed' pool') :
    package.epochPublicKeys = package'.epochPublicKeys ∧
      package.submissions.Perm package'.submissions ∧ package.balances.Perm package'.balances := by
  obtain ⟨policy, timestamp, hvalid⟩ := h.valid
  obtain ⟨policy', timestamp', hvalid'⟩ := h'.valid
  have hbalances := hvalid.preBalances
  have hbalances' := hvalid'.preBalances
  rw [h.preBalanceRoot, hsame.state, ← h'.preBalanceRoot] at hbalances
  obtain ⟨hkeys, hsubmissions⟩ := h.sameMembers hinj hsame h'
  obtain ⟨encoded, hencoded, -⟩ := memberRoot_ok hvalid.members
  refine ⟨?_, hsubmissions, ?_⟩
  · have := keys _ _ _ hencoded (hkeys.symm.trans hencoded)
    cases hk : package.epochPublicKeys
    cases hk' : package'.epochPublicKeys
    simp_all
  · exact balanceRoot_binds hinj
      (fun m hm => Or.inl (List.mem_cons_of_mem _ (List.mem_append_right _ hm)))
      (fun m hm => Or.inr (List.mem_cons_of_mem _ (List.mem_append_right _ hm)))
      hbalances hbalances'

/-- The same submissions recover the same intents. -/
theorem recovered_perm (agree : host.SharesAgree) {k : EpochPublicKeys host}
    {submissions submissions' : List EncryptedSubmissionV1} {recovered recovered' : List SignedIntentV1}
    (hperm : submissions.Perm submissions')
    (h : List.Forall₂ (Recovers k) submissions recovered)
    (h' : List.Forall₂ (Recovers k) submissions' recovered') : recovered.Perm recovered' := by
  refine List.rel_perm_imp ?_ h h' hperm
  rintro s intent intent' ⟨a, b, hab⟩ ⟨a', b', hab'⟩
  exact EpochPublicKeys.recoverSubmission_unique agree hab hab'

theorem recoveredIntentsRoot_perm {recovered recovered' : List SignedIntentV1}
    (h : recovered.Perm recovered') :
    recoveredIntentsRoot host recovered = recoveredIntentsRoot host recovered' := by
  unfold recoveredIntentsRoot
  rw [sortedHashes_eq_iff.mpr ((h.map SignedIntentV1.encode).map host.sha256)]

theorem Recomputed.agrees {nonce nonce' : Bytes32} {recovered recovered' : List SignedIntentV1}
    {result result' : BatchResult} {r r' : RecomputedSettlement} (agree : host.SharesAgree)
    (keys : host.KeysDetermined)
    (hinj : Set.InjOn host.sha256 {m | m ∈ package.messages ∨ m ∈ package'.messages})
    (hsame : confirmed.Same confirmed')
    (h : Recomputed package nonce confirmed pool recovered result r)
    (h' : Recomputed package' nonce' confirmed' pool' recovered' result' r') : r.Agrees r' := by
  obtain ⟨hkeys, hsubmissions, hbalances⟩ := h.locked.agree keys hinj hsame h'.locked
  obtain rfl : pool = pool' := by
    have := h.locked.poolRead
    rw [hsame.pool, h'.locked.poolRead] at this
    exact (Option.some.inj this).symm
  have hconfiguration : package.configuration = package'.configuration := by
    obtain ⟨policy, timestamp, hvalid⟩ := h.locked.valid
    obtain ⟨policy', timestamp', hvalid'⟩ := h'.locked.valid
    rw [hvalid.configuration, hvalid'.configuration]
    simp only [hsame.state]
  have hbefore : package.before = package'.before := by
    refine Map.ofList_perm ?_ (hbalances.map _)
    rw [List.map_map]
    exact h.participants
  have hrecovered : recovered.Perm recovered' := by
    have hleft := h.recovers
    rw [hkeys] at hleft
    exact recovered_perm agree hsubmissions hleft h'.recovers
  have hresult : result = result' := by
    obtain ⟨config, hconfig, hnetted⟩ := h.netted
    obtain ⟨config', hconfig', hnetted'⟩ := h'.netted
    rw [hconfiguration, hconfig'] at hconfig
    cases hconfig
    rw [hbefore] at hnetted
    exact hnetted.perm hnetted' (hrecovered.map _)
  subst hresult
  have hpost : r.postBalanceRoot = r'.postBalanceRoot :=
    Except.ok.inj (h.postBalanceRoot.symm.trans h'.postBalanceRoot)
  have hroot : r.resultRoot = r'.resultRoot := by
    have hleft := h.resultRoot
    rw [hbefore, h'.resultRoot] at hleft
    exact (Except.ok.inj hleft).symm
  have hpre : package.preBalanceRoot = package'.preBalanceRoot := by
    rw [h.locked.preBalanceRoot, h'.locked.preBalanceRoot, hsame.state]
  have hcommitment : r.resultCommitment = r'.resultCommitment := by
    rw [h.resultCommitment, h'.resultCommitment, recoveredIntentsRoot_perm hrecovered, hpre, hpost,
      hroot]
    simp only [Kageb.resultCommitment, hsame.epochAccount, hsame.state]
  refine ⟨?_, ?_, hpost, ?_, hroot, hcommitment, ?_⟩
  · rw [h.postBalances, h'.postBalances]
  · rw [h.preBalanceRoot, h'.preBalanceRoot, hpre]
  · rw [h.residual, h'.residual]
  · rw [h.payload, h'.payload, hcommitment]
    simp only [ConfirmedLock.settlementPayload, hsame.epochAccount, hsame.state]

theorem recompute_agrees {evidence evidence' : List (DecryptionEvidenceV1 host)}
    {nonce nonce' : Bytes32} {r r' : RecomputedSettlement} (agree : host.SharesAgree)
    (keys : host.KeysDetermined)
    (hinj : Set.InjOn host.sha256 {m | m ∈ package.messages ∨ m ∈ package'.messages})
    (hsame : confirmed.Same confirmed') (h : recompute package evidence nonce confirmed = .ok r)
    (h' : recompute package' evidence' nonce' confirmed' = .ok r') : r.Agrees r' := by
  obtain ⟨pool, recovered, result, hr⟩ := recompute_ok h
  obtain ⟨pool', recovered', result', hr'⟩ := recompute_ok h'
  exact hr.agrees agree keys hinj hsame hr'

theorem signSettlement_ok {keyper : ReferenceKeyper host} {request : SettlementRequestV1 host}
    {secret : KeyperSecretShare host} {approval : SettlementApprovalV1}
    (h : keyper.signSettlement request confirmed secret = .ok approval) :
    ∃ r, recompute request.package request.decryptionEvidence request.settlementNonce confirmed
        = .ok r ∧
      approval.payload = r.payload ∧ approval.digest = r.payload.digest host.sha256 := by
  simp only [ReferenceKeyper.signSettlement, bind_ok] at h
  obtain ⟨r, hr, _, -, _, -, _, -, _, -, hok⟩ := h
  cases hok
  exact ⟨r, hr, rfl, rfl⟩

/-- Equal lock digests are of one epoch account. -/
theorem LockPackageV1.Locked.epochAccount_eq
    (hinj : Set.InjOn host.sha256 {m | m ∈ package.messages ∨ m ∈ package'.messages})
    (h : package.Locked confirmed pool) (h' : package'.Locked confirmed' pool')
    (heq : confirmed.state.lockDigest = confirmed'.state.lockDigest) :
    confirmed.epochAccount = confirmed'.epochAccount := by
  obtain ⟨_, _, hvalid⟩ := h.valid
  obtain ⟨_, _, hvalid'⟩ := h'.valid
  have hdigest : package.lockPayload.digest host.sha256 = package'.lockPayload.digest host.sha256 := by
    rw [h.digest, h'.digest, heq]
  have hmessage := hinj (Or.inl List.mem_cons_self) (Or.inr List.mem_cons_self) hdigest
  have hpayload := LockPayloadV1.message_injective hmessage
  calc confirmed.epochAccount = package.epochAccount := hvalid.epochAccount.symm
    _ = package'.epochAccount := congrArg LockPayloadV1.epochAccount hpayload
    _ = confirmed'.epochAccount := hvalid'.epochAccount

end Agreement

/-- Two requests that pass against one lock have the same result, whatever the order of their
members and balances and whichever shares recover them. Hence along a run of the chain the keypers
that approve a settlement of one lock with one nonce approve one digest. -/
theorem settlement_agreement {host : Host} (lawful : host.toRuntime.Lawful)
    (agree : host.SharesAgree) (keys : host.KeysDetermined) :
    (∀ (lock lock' : ConfirmedLock) (request request' : SettlementRequestV1 host)
        (r r' : RecomputedSettlement), lock.Same lock' →
      Set.InjOn host.sha256 {m | m ∈ request.package.messages ∨ m ∈ request'.package.messages} →
      recompute request.package request.decryptionEvidence request.settlementNonce lock = .ok r →
      recompute request'.package request'.decryptionEvidence request'.settlementNonce lock'
        = .ok r' →
      r.Agrees r') ∧
    (∀ (c₀ c c' : Chain) (es es' : List Event) (rpc rpc' : RpcClient) (epoch epoch' : Pubkey)
        (lock lock' : ConfirmedLock) (request request' : SettlementRequestV1 host)
        (keyper keyper' : ReferenceKeyper host) (secret secret' : KeyperSecretShare host)
        (approval approval' : SettlementApprovalV1),
      c₀.Genesis → Run host.ChainStep c₀ es c → Run host.ChainStep c es' c' →
      rpc.Reads c → host.fetchConfirmedLock rpc epoch = .ok lock →
      rpc'.Reads c' → host.fetchConfirmedLock rpc' epoch' = .ok lock' →
      Set.InjOn host.sha256 {m | m ∈ request.package.messages ∨ m ∈ request'.package.messages} →
      keyper.signSettlement request lock secret = .ok approval →
      keyper'.signSettlement request' lock' secret' = .ok approval' →
      approval.payload.lockDigest = approval'.payload.lockDigest →
      approval.payload.settlementNonce = approval'.payload.settlementNonce →
      approval.digest = approval'.digest) := by
  refine ⟨fun _ _ _ _ _ _ hsame hinj h h' => recompute_agrees agree keys hinj hsame h h', ?_⟩
  intro c₀ c c' es es' rpc rpc' epoch epoch' lock lock' request request' keyper keyper' secret
    secret' approval approval' genesis run run' reads hlock reads' hlock' hinj h h' hdigest hnonce
  obtain ⟨r, hr, hpayload, happroved⟩ := signSettlement_ok h
  obtain ⟨r', hr', hpayload', happroved'⟩ := signSettlement_ok h'
  obtain ⟨pool, recovered, result, hrecomputed⟩ := recompute_ok hr
  obtain ⟨pool', recovered', result', hrecomputed'⟩ := recompute_ok hr'
  have hpools := Runtime.poolsValid_of_run lawful genesis run
  have hpools' := Runtime.poolsValid_of_run lawful genesis (run.append run')
  obtain ⟨-, _, hon⟩ := Host.fetchConfirmedLock_ok hpools reads hlock
  obtain ⟨-, _, hon'⟩ := Host.fetchConfirmedLock_ok hpools' reads' hlock'
  have hstate : lock.state.lockDigest = lock'.state.lockDigest := by
    rw [hpayload, hpayload', hrecomputed.payload, hrecomputed'.payload] at hdigest
    exact hdigest
  have hepoch := hrecomputed.locked.epochAccount_eq hinj hrecomputed'.locked hstate
  have hagrees := recompute_agrees agree keys hinj (hon.same lawful run' hon' hepoch) hr hr'
  rw [hpayload, hpayload'] at hnonce
  rw [happroved, happroved', ← hagrees.payload, ← hnonce]

theorem SettlementRequestV1.build_ok {host : Host} {package : LockPackageV1 host}
    {evidence : List (DecryptionEvidenceV1 host)} {nonce : Bytes32} {confirmed : ConfirmedLock}
    {request : SettlementRequestV1 host}
    (h : SettlementRequestV1.build package evidence nonce confirmed = .ok request) :
    request.package = package ∧ request.decryptionEvidence = evidence ∧
      request.settlementNonce = nonce := by
  simp only [SettlementRequestV1.build, bind_ok] at h
  obtain ⟨r, -, hok⟩ := h
  cases hok
  exact ⟨rfl, rfl, rfl⟩

/-- The first and the third keyper approve the settlement of one lock, each from other shares and
with the members in another order. -/
theorem settlement_agreement_reordered :
    ∃ approval approval', Sample.settle 0 0 1 [1, 2, 3, 4] = .ok approval ∧
      Sample.settle 2 2 1 [4, 3, 2, 1] = .ok approval' ∧ approval.digest = approval'.digest := by
  have hfirst : (Sample.settle 0 0 1 [1, 2, 3, 4]).toOption.map
      (fun a => (a.payload.lockDigest, a.payload.settlementNonce)) =
        some (Sample.packageDigest, Sample.key 90) := by decide +kernel
  have hsecond : (Sample.settle 2 2 1 [4, 3, 2, 1]).toOption.map
      (fun a => (a.payload.lockDigest, a.payload.settlementNonce)) =
        some (Sample.packageDigest, Sample.key 90) := by decide +kernel
  cases h : Sample.settle 0 0 1 [1, 2, 3, 4] with
  | error => rw [h] at hfirst; cases hfirst
  | ok approval =>
    cases h' : Sample.settle 2 2 1 [4, 3, 2, 1] with
    | error => rw [h'] at hsecond; cases hsecond
    | ok approval' =>
      refine ⟨approval, approval', rfl, rfl, ?_⟩
      rw [h] at hfirst
      rw [h'] at hsecond
      have hsame := (Option.some.inj hfirst).trans (Option.some.inj hsecond).symm
      obtain ⟨request, hbuild, hsign⟩ := bind_ok.mp h
      obtain ⟨request', hbuild', hsign'⟩ := bind_ok.mp h'
      obtain ⟨hpackage, -⟩ := SettlementRequestV1.build_ok hbuild
      obtain ⟨hpackage', -⟩ := SettlementRequestV1.build_ok hbuild'
      have hinj := Sample.package_injOn
      rw [← hpackage, ← hpackage'] at hinj
      exact (settlement_agreement Sample.host_lawful Sample.host_sharesAgree
        Sample.host_keysDetermined).2 _ _ _ _ _ _ _ _ _ _ _ _ _ _ _ _ _ _ _ Sample.chain_genesis
        Sample.package_run (.nil _) (Sample.rpc_reads _) Sample.fetch_packageLock
        (Sample.rpc_reads _) Sample.fetch_packageLock hinj hsign hsign' (congrArg Prod.fst hsame)
        (congrArg Prod.snd hsame)

end Kageb
