import Kageb.Host.Gates
import Kageb.Host.Rebuild

/-! What the public sees of a settlement. Two runs that differ only in what the ciphertexts of the
members decrypt to, with the same number of buys less sells, lock and settle alike: the payloads
differ in their result commitment, and the chains in that commitment and the settlement digest. -/

namespace Kageb

open Binary Checks Maps

/-- Two transactions in which the same keys approve the one digest and the other. -/
def ApprovedAlike (tx : InstructionsSysvar) (digest : Bytes32) (tx' : InstructionsSysvar)
    (digest' : Bytes32) : Prop :=
  ∀ k, (∃ i ∈ tx.preceding, approves digest k i = true) ↔
    ∃ i ∈ tx'.preceding, approves digest' k i = true

theorem ApprovedAlike.count {tx tx' : InstructionsSysvar} {digest digest' : Bytes32}
    (h : ApprovedAlike tx digest tx' digest') (keypers : Keypers) :
    countPrecedingKeypers tx keypers digest = countPrecedingKeypers tx' keypers digest' := by
  have hsame : approvers tx.preceding keypers digest = approvers tx'.preceding keypers digest' := by
    ext k
    rw [mem_approvers, mem_approvers, h k]
  rw [countPrecedingKeypers_eq, countPrecedingKeypers_eq, countMatchingKeypers_eq,
    countMatchingKeypers_eq, hsame]

/-- Two chains that differ at most in what the record of one epoch says of its result. -/
structure Chain.SameTrace (epoch : Pubkey) (c c' : Chain) : Prop where
  others : ∀ k, k ≠ epoch → c' k = c k
  account : c' epoch = { c epoch with data := (c' epoch).data }
  record : ∃ (e : EpochStateV1) (resultCommitment settlementDigest : Bytes32),
    (c epoch).data = e.encode ∧
    (c' epoch).data = { e with resultCommitment, settlementDigest }.encode

theorem Chain.SameTrace.write {c : Chain} {epoch : Pubkey} {e : EpochStateV1}
    (resultCommitment settlementDigest : Bytes32) :
    Chain.SameTrace epoch (c.write epoch e.encode)
      (c.write epoch { e with resultCommitment, settlementDigest }.encode) where
  others k hk := by simp only [Chain.write, if_neg hk]
  account := by simp only [Chain.write, if_pos]
  record := ⟨e, resultCommitment, settlementDigest, by simp only [Chain.write, if_pos],
    by simp only [Chain.write, if_pos]⟩

section Settle

variable {rt : Runtime} {tx tx' : InstructionsSysvar} {c : Chain}

/-- The program reads the result commitment only to see that there is one, and to hash it. -/
theorem Runtime.settle_alike (a : SettleAccounts) {payload : SettlementPayloadV1}
    {commitment : Bytes32} (hne : payload.resultCommitment ≠ zero32) (hne' : commitment ≠ zero32)
    (hcount : ∀ p e, PoolStateV1.decode (c a.pool).data = .ok p →
      EpochStateV1.decode (c a.epoch).data = .ok e → rt.EpochValid a.epoch e a.pool p →
      countPrecedingKeypers tx p.keypers (payload.digest rt.sha256) =
        countPrecedingKeypers tx' p.keypers
          ({ payload with resultCommitment := commitment }.digest rt.sha256)) :
    Alike (Chain.SameTrace a.epoch)
      (rt.settle tx c (settleInstruction a payload).accounts payload)
      (rt.settle tx' c (settleInstruction a payload).accounts
        { payload with resultCommitment := commitment }) := by
  simp only [Runtime.settle, settleInstruction, List.map_cons, List.map_nil]
  -- the accounts and their flags
  iterate 18 refine .bind fun _ _ => ?_
  refine .bind fun clock _ => ?_
  refine .bind fun p hp => ?_
  refine .bind fun _ _ => ?_
  refine .bind fun e he => ?_
  refine .bind fun _ hvalid => ?_
  -- the state of the epoch, the addresses, the mints and the token accounts
  iterate 10 refine .bind fun _ _ => ?_
  refine .bind_congr (rejectIf_congr ?_ _) fun _ _ => ?_
  · simp only [hne, hne']
  refine .bind_congr (hcount p e hp he (Runtime.validateEpochState_ok.mp hvalid)) fun _ _ => ?_
  refine .bind fun _ _ => ?_
  refine .bind fun base _ => ?_
  refine .bind fun quote _ => ?_
  refine .bind fun moved _ => ?_
  exact .ok (.write _ _)

/-- So it is with the whole instruction, which fills in the other fields from the chain. -/
theorem Runtime.run_settle_alike (a : SettleAccounts) {payload : SettlementPayloadV1}
    {commitment : Bytes32} (hne : payload.resultCommitment ≠ zero32) (hne' : commitment ≠ zero32)
    (hcount : ∀ p e, PoolStateV1.decode (c a.pool).data = .ok p →
      EpochStateV1.decode (c a.epoch).data = .ok e → rt.EpochValid a.epoch e a.pool p →
      countPrecedingKeypers tx p.keypers
          ((rebuildSettlement a.epoch p e (.ofPayload payload)).digest rt.sha256) =
        countPrecedingKeypers tx' p.keypers ((rebuildSettlement a.epoch p e
          (.ofPayload { payload with resultCommitment := commitment })).digest rt.sha256)) :
    Alike (Chain.SameTrace a.epoch) (rt.run tx c (settleInstruction a payload))
      (rt.run tx' c (settleInstruction a { payload with resultCommitment := commitment })) := by
  rw [Runtime.run_settle, Runtime.run_settle]
  refine .bind fun p hp => ?_
  refine .bind fun e he => ?_
  have hrebuilt : rebuildSettlement a.epoch p e
      (.ofPayload { payload with resultCommitment := commitment }) =
        { rebuildSettlement a.epoch p e (.ofPayload payload) with resultCommitment := commitment } :=
    rfl
  have halike := @Runtime.settle_alike rt tx tx' c a
    (rebuildSettlement a.epoch p e (.ofPayload payload)) commitment hne hne'
  rw [← hrebuilt] at halike
  refine halike fun p' e' hp' he' hvalid => ?_
  obtain rfl : p = p' := Except.ok.inj (hp.symm.trans hp')
  obtain rfl : e = e' := Except.ok.inj (he.symm.trans he')
  exact hcount p e hp he hvalid

end Settle

/-! ### Netting -/

theorem Netting.residual_of_net {n n' : Netting}
    (h : (n.buys.toNat : Int) - n.sells.toNat = n'.buys.toNat - n'.sells.toNat) :
    n.residual = n'.residual := by
  have hlt : ∀ {a b : UInt32}, a < b ↔ a.toNat < b.toNat := UInt32.lt_iff_toNat_lt
  have hsub : ∀ {a b : UInt32}, b < a → (a - b).toNat = a.toNat - b.toNat := fun hab =>
    UInt32.toNat_sub_of_le _ _ (UInt32.le_of_lt hab)
  unfold Netting.residual
  by_cases hbuys : n.buys > n.sells
  · have hbuys' : n'.buys > n'.sells := hlt.mpr (by have := hlt.mp hbuys; omega)
    have hlots : n.buys - n.sells = n'.buys - n'.sells := by
      rw [← UInt32.toNat_inj, hsub hbuys, hsub hbuys']
      omega
    rw [if_pos hbuys, if_pos hbuys', hlots]
  · have hbuys' : ¬n'.buys > n'.sells := fun hgt => hbuys (hlt.mpr (by have := hlt.mp hgt; omega))
    rw [if_neg hbuys, if_neg hbuys']
    by_cases hsells : n.sells > n.buys
    · have hsells' : n'.sells > n'.buys := hlt.mpr (by have := hlt.mp hsells; omega)
      have hlots : n.sells - n.buys = n'.sells - n'.buys := by
        rw [← UInt32.toNat_inj, hsub hsells, hsub hsells']
        omega
      rw [if_pos hsells, if_pos hsells', hlots]
    · have hsells' : ¬n'.sells > n'.buys := fun hgt =>
        hsells (hlt.mpr (by have := hlt.mp hgt; omega))
      rw [if_neg hsells, if_neg hsells']

/-- The number of buys less the number of sells. -/
def netLots (recovered : List SignedIntentV1) : Int :=
  (recovered.countP (·.body.side = .buy) : Int) - recovered.countP (·.body.side = .sell)

theorem Netted.residual_of_netLots {config config' : BatchConfig}
    {before before' : Map ParticipantId PoolBalance} {recovered recovered' : List SignedIntentV1}
    {result result' : BatchResult}
    (h : Netted config before (recovered.map SignedIntentV1.order) result)
    (h' : Netted config' before' (recovered'.map SignedIntentV1.order) result')
    (hnet : netLots recovered = netLots recovered') : result.residual = result'.residual := by
  obtain ⟨n, hn, -, hresidual, -⟩ := h.filled
  obtain ⟨n', hn', -, hresidual', -⟩ := h'.filled
  have hcount : ∀ (orders : List SignedIntentV1) (side : Side),
      (orders.map SignedIntentV1.order).countP (·.side = side) =
        orders.countP (·.body.side = side) := fun _ _ => List.countP_map
  have hsame : n.residual = n'.residual := by
    refine Netting.residual_of_net ?_
    rw [hn.buys, hn.sells, hn'.buys, hn'.sells, hcount, hcount, hcount, hcount]
    unfold netLots at hnet
    simp only [UInt32.toNat_zero]
    omega
  rw [hresidual, hresidual', hsame]

/-! ### Two runs -/

/-- The same host, with ciphertexts that decrypt to something else. -/
def Host.decrypting (host : Host)
    (decrypt : host.PublicKeySet → List (Nat × host.DecryptionShare) → host.Ciphertext →
      Option Bytes) : Host :=
  { host with decrypt }

def LockPackageV1.decrypting {host : Host} (package : LockPackageV1 host)
    (decrypt : host.PublicKeySet → List (Nat × host.DecryptionShare) → host.Ciphertext →
      Option Bytes) : LockPackageV1 (host.decrypting decrypt) where
  epochAccount := package.epochAccount
  configuration := package.configuration
  epochPublicKeys := ⟨package.epochPublicKeys.keys⟩
  submissions := package.submissions
  balances := package.balances
  balanceSnapshot := package.balanceSnapshot
  preBalanceRoot := package.preBalanceRoot
  memberRoot := package.memberRoot
  memberCount := package.memberCount
  lockNonce := package.lockNonce

section TwoRuns

variable {host host' : Host} {package : LockPackageV1 host} {package' : LockPackageV1 host'}
  {evidence : List (DecryptionEvidenceV1 host)} {evidence' : List (DecryptionEvidenceV1 host')}
  {nonce : Bytes32} {lock : ConfirmedLock} {r r' : RecomputedSettlement}
  {recovered recovered' : List SignedIntentV1}

/-- From one lock and nonce, the payload depends on the orders through their net lots and the
result commitment. -/
theorem recompute_payload_of_net (h : recompute package evidence nonce lock = .ok r)
    (h' : recompute package' evidence' nonce lock = .ok r')
    (hrecovered : (package.submissions.zip evidence).mapM (recoverMember package lock) =
      .ok recovered)
    (hrecovered' : (package'.submissions.zip evidence').mapM (recoverMember package' lock) =
      .ok recovered')
    (hnet : netLots recovered = netLots recovered') :
    r'.payload = { r.payload with resultCommitment := r'.resultCommitment } := by
  obtain ⟨_, hmembers, pool, result, hr⟩ := recompute_recovered h
  obtain ⟨_, hmembers', pool', result', hr'⟩ := recompute_recovered h'
  cases hrecovered.symm.trans hmembers
  cases hrecovered'.symm.trans hmembers'
  obtain rfl : pool' = pool :=
    Option.some.inj (hr'.locked.poolRead.symm.trans hr.locked.poolRead)
  obtain ⟨config, -, hnetted⟩ := hr.netted
  obtain ⟨config', -, hnetted'⟩ := hr'.netted
  rw [hr.payload, hr'.payload, hnetted.residual_of_netLots hnetted' hnet]
  rfl

/-- Where the lock stands, the program rebuilds the recomputed payload. -/
theorem recompute_rebuilt (h : recompute package evidence nonce lock = .ok r) {c : Chain}
    {pool p : PoolStateV1} {e : EpochStateV1} (hon : lock.On c pool) {k : Pubkey}
    (hp : PoolStateV1.decode (c k).data = .ok p)
    (he : EpochStateV1.decode (c lock.epochAccount).data = .ok e)
    (hvalid : host.EpochValid lock.epochAccount e k p) :
    Runtime.rebuildSettlement lock.epochAccount p e (.ofPayload r.payload) = r.payload := by
  cases he.symm.trans (EpochStateV1.decode_eq_ok.mpr hon.epochAt.2)
  have hpool : lock.state.pool = k := hvalid.pool_eq
  cases hp.symm.trans (PoolStateV1.decode_eq_ok.mpr (hpool ▸ hon.poolAt.2))
  exact rebuildSettlement_eq_iff.mpr (recompute_filled h hon.poolRead)

end TwoRuns

/-- Two runs over the same lock, nonce and chain whose orders have the same net lots give payloads
that differ in the result commitment alone, and lock and settle alike. -/
theorem trace_depends_on_net {host : Host} (hhash : ∀ m, host.sha256 m ≠ zero32)
    {decrypt : host.PublicKeySet → List (Nat × host.DecryptionShare) → host.Ciphertext →
      Option Bytes}
    {package : LockPackageV1 host} {evidence : List (DecryptionEvidenceV1 host)}
    {evidence' : List (DecryptionEvidenceV1 (host.decrypting decrypt))} {nonce : Bytes32}
    {lock : ConfirmedLock} {r r' : RecomputedSettlement} {recovered recovered' : List SignedIntentV1}
    (h : recompute package evidence nonce lock = .ok r)
    (h' : recompute (package.decrypting decrypt) evidence' nonce lock = .ok r')
    (hrecovered : (package.submissions.zip evidence).mapM (recoverMember package lock) =
      .ok recovered)
    (hrecovered' : ((package.decrypting decrypt).submissions.zip evidence').mapM
      (recoverMember (package.decrypting decrypt) lock) = .ok recovered')
    (hnet : netLots recovered = netLots recovered') :
    r'.payload = { r.payload with resultCommitment := r'.resultCommitment } ∧
      (∀ (tx : InstructionsSysvar) (c : Chain) (payer pool epoch : Pubkey),
        (host.decrypting decrypt).run tx c
            (lockInstruction payer pool epoch (package.decrypting decrypt).lockPayload) =
          host.run tx c (lockInstruction payer pool epoch package.lockPayload)) ∧
      ∀ (tx tx' : InstructionsSysvar) (c : Chain) (pool : PoolStateV1) (a : SettleAccounts),
        lock.On c pool → a.epoch = lock.epochAccount →
        ApprovedAlike tx (r.payload.digest host.sha256) tx' (r'.payload.digest host.sha256) →
        Alike (Chain.SameTrace lock.epochAccount) (host.run tx c (settleInstruction a r.payload))
          ((host.decrypting decrypt).run tx' c (settleInstruction a r'.payload)) := by
  have hpayload := recompute_payload_of_net h h' hrecovered hrecovered' hnet
  refine ⟨hpayload, fun _ _ _ _ _ => rfl, fun tx tx' c pool a hon hepoch happroved => ?_⟩
  obtain ⟨_, _, _, hr⟩ := recompute_ok h
  obtain ⟨_, _, _, hr'⟩ := recompute_ok h'
  have hne : r.payload.resultCommitment ≠ zero32 := by
    rw [hr.payload]
    exact (hr.resultCommitment ▸ hhash _ : r.resultCommitment ≠ zero32)
  have hne' : r'.resultCommitment ≠ zero32 := hr'.resultCommitment ▸ hhash _
  rw [hpayload, ← hepoch]
  refine Runtime.run_settle_alike a hne hne' fun p e hp he hvalid => ?_
  rw [hepoch] at he hvalid ⊢
  rw [← hpayload, recompute_rebuilt h hon hp he hvalid, recompute_rebuilt h' hon hp he hvalid]
  exact happroved.count p.keypers

namespace Sample

/-- Now the first member sells, and the others buy. -/
def otherIntent (member : UInt8) : SignedIntentV1 :=
  let body : IntentBodyV1 :=
    { (intent member).body with
      side := if member = 1 then .sell else .buy
      limitPrice := if member = 1 then 90 else 110
      limitPrice_ne := by split <;> decide }
  { body, signature := signature (key (50 + member)) (SignedIntentV1.intentMessage body.encode) }

def otherDecrypt (keys : host.PublicKeySet) (shares : List (Nat × host.DecryptionShare))
    (ciphertext : host.Ciphertext) : Option Bytes := do
  let plaintext ← host.decrypt keys shares ciphertext
  let member ← [1, 2, 3, 4].find? fun member => (intent member).encode = plaintext
  some (otherIntent member).encode

def otherEvidence : List (DecryptionEvidenceV1 (host.decrypting otherDecrypt)) :=
  [1, 2, 3, 4].filterMap fun member => do
    let share (index : Nat) : KeyperSecretShare (host.decrypting otherDecrypt) :=
      ⟨epoch, index, line.at index⟩
    let a ← ((share 0).release epoch packageDigest (submission member).ciphertext).toOption
    let b ← ((share 1).release epoch packageDigest (submission member).ciphertext).toOption
    (DecryptionEvidenceV1.new a b).toOption

def otherRecomputed : Except SettlementValidationError RecomputedSettlement :=
  recompute (request.package.decrypting otherDecrypt) otherEvidence (key 90) packageLock

/-- What the two runs recover, evaluated once. -/
theorem recovered_net :
    ((request.package.submissions.zip request.decryptionEvidence).mapM
      (recoverMember request.package packageLock)).toOption.map netLots = some 2 ∧
    (((request.package.decrypting otherDecrypt).submissions.zip otherEvidence).mapM
      (recoverMember (request.package.decrypting otherDecrypt) packageLock)).toOption.map netLots =
        some 2 ∧
    otherRecomputed.toOption.isSome = true := by decide +kernel

theorem approves_approval_iff {signer k : Pubkey} {digest : Bytes32} :
    approves digest k (approval signer digest) = true ↔ k = signer := by
  have hparse := approves_eq_true.mp (approves_approval signer digest)
  rw [approves_eq_true, hparse, Except.ok.injEq, StrictEd25519.mk.injEq]
  exact ⟨fun h => h.1.symm, fun h => ⟨h.symm, rfl⟩⟩

theorem relayTx_alike (payload payload' : SettlementPayloadV1) :
    ApprovedAlike (relayTx payload) (payload.digest sha256) (relayTx payload')
      (payload'.digest sha256) := by
  have hpreceding : ∀ p : SettlementPayloadV1, (relayTx p).preceding =
      [approval keypers.first (p.digest sha256), approval keypers.second (p.digest sha256)] :=
    fun _ => rfl
  intro k
  rw [hpreceding, hpreceding]
  simp only [List.mem_cons, List.not_mem_nil, or_false, exists_eq_or_imp, exists_eq_left,
    approves_approval_iff]

end Sample

/-- Two different assignments of sides to the sample members, settled on the same chain. -/
theorem trace_depends_on_net_sample : ∃ r r' c c',
    Sample.recomputed = .ok r ∧ Sample.otherRecomputed = .ok r' ∧
      r'.payload = { r.payload with resultCommitment := r'.resultCommitment } ∧
      Sample.host.run (Sample.relayTx r.payload) Sample.packageChain
        (settleInstruction (Sample.host.settleAccounts Sample.payer Sample.pool Sample.epoch
          Sample.poolState) r.payload) = .ok c ∧
      (Sample.host.decrypting Sample.otherDecrypt).run (Sample.relayTx r'.payload)
        Sample.packageChain (settleInstruction (Sample.host.settleAccounts Sample.payer Sample.pool
          Sample.epoch Sample.poolState) r'.payload) = .ok c' ∧
      Chain.SameTrace Sample.epoch c c' := by
  obtain ⟨hnet, hnet', hother⟩ := Sample.recovered_net
  obtain ⟨recovered, hrecovered, htwo⟩ := Option.map_eq_some_iff.mp hnet
  obtain ⟨recovered', hrecovered', htwo'⟩ := Option.map_eq_some_iff.mp hnet'
  obtain ⟨r, hr, hresidual⟩ := Option.map_eq_some_iff.mp Sample.recomputed_residual
  obtain ⟨r', hr'⟩ := Option.isSome_iff_exists.mp hother
  have hok : Sample.recomputed = .ok r := eq_ok_of_toOption hr
  have hok' : Sample.otherRecomputed = .ok r' := eq_ok_of_toOption hr'
  obtain ⟨hpayload, -, hsettles⟩ := trace_depends_on_net Sample.sha256_ne hok hok'
    (eq_ok_of_toOption hrecovered) (eq_ok_of_toOption hrecovered') (htwo.trans htwo'.symm)
  have hon := Sample.packageLock_on
  obtain ⟨hside, hlots⟩ := Prod.mk.inj hresidual
  have hsent := Sample.relay_sent hside hlots
  obtain ⟨pool, hsound⟩ := Runtime.sound_of_run Sample.host_lawful Sample.chain_genesis
    Sample.package_run _ _ hon.epochAt
  obtain rfl : pool = Sample.poolState := hsound.poolAt.unique hon.poolAt
  obtain ⟨base, quote, hbase, hquote, hfunds⟩ := hsent.funded
  obtain ⟨c, hrun, -⟩ := (hsent.ready hok rfl Sample.sha256_ne hsound hon.epochAt rfl).succeeds
    Sample.host_lawful (Sample.hashes.runtime_transfers Sample.token) (recompute_residual hok) hbase
    hquote hsent.usable hfunds
  obtain ⟨c', hrun', htrace⟩ := (hsettles _ _ _ _ _ hon rfl
    (Sample.relayTx_alike r.payload r'.payload)).ok_left hrun
  exact ⟨r, r', c, c', hok, hok', hpayload, hrun, hrun', htrace⟩

end Kageb
