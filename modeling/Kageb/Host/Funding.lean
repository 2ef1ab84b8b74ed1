import Kageb.Host.Netting
import Kageb.Host.Reference

/-! A locked batch does not fail for lack of funds: every member of a package that a keyper accepts
holds both sides of a lot, so netting stops only at a limit or at a credit that does not fit. -/

namespace Kageb

open Binary Checks Maps

/-! ### The members of a package -/

theorem byParticipant_ok {members members' : Map Bytes32 EncryptedSubmissionV1}
    {submissions : List EncryptedSubmissionV1} (h : byParticipant members submissions = .ok members')
    (p : Bytes32) : p ∈ members' ↔
      p ∈ members ∨ ∃ s ∈ submissions, s.authorization.participantId = p := by
  induction submissions generalizing members with
  | nil =>
    cases h
    simp
  | cons s submissions ih =>
    simp only [byParticipant, bind_ok, Unique.exists_iff] at h
    rw [ih h.2, Std.ExtTreeMap.mem_insert, compare_eq_iff_eq]
    simp only [List.mem_cons, exists_eq_or_imp]
    tauto

theorem collectOrders_members {host : Host} {epochId : Bytes32}
    {submissions : Map Bytes32 EncryptedSubmissionV1} {seen : Finset Bytes32}
    {recovered : List SignedIntentV1} {orders : List FundedOrder}
    (h : collectOrders host epochId submissions seen recovered = .ok orders) :
    (recovered.map fun intent => intent.body.participantId).Nodup ∧
      ∀ intent ∈ recovered, intent.body.participantId ∈ submissions ∧
        intent.body.participantId ∉ seen := by
  induction recovered generalizing seen orders with
  | nil => simp
  | cons intent recovered ih =>
    simp only [collectOrders, bind_ok, Unique.exists_iff, okOr_eq_ok, rejectIf_eq_ok] at h
    obtain ⟨s, hs, hnew, -, -, -, -, rest, hrest, -⟩ := h
    obtain ⟨hnodup, hmembers⟩ := ih hrest
    have hmem : intent.body.participantId ∈ submissions := by
      rw [Std.ExtTreeMap.mem_iff_isSome_getElem?, hs]
      rfl
    rw [List.map_cons, List.nodup_cons, List.forall_mem_cons]
    refine ⟨⟨fun hp => ?_, hnodup⟩, ⟨hmem, hnew⟩, fun other hother => ?_⟩
    · obtain ⟨other, hother, heq⟩ := List.mem_map.mp hp
      exact (hmembers other hother).2 (Finset.mem_insert.mpr (.inl heq))
    · exact ⟨(hmembers other hother).1,
        fun hseen => (hmembers other hother).2 (Finset.mem_insert_of_mem hseen)⟩

section Package

variable {host : Host} {epochAccount poolAddress : Pubkey} {epochData poolData clockData : RpcAccountData}
  {slot : UInt64} {confirmed : ConfirmedOpenEpoch}

/-- The policy of a confirmed open epoch asks for one lot of its configuration, which is not
empty. -/
theorem confirmedOpenEpoch_lot (h : host.confirmedOpenEpochFromAccounts epochAccount epochData
      poolAddress poolData clockData slot = .ok confirmed) :
    confirmed.policy.baseAtoms = confirmed.configuration.baseLotAtoms ∧
      confirmed.policy.quoteAtoms = confirmed.configuration.quoteAtomsPerLot ∧
      confirmed.configuration.baseLotAtoms ≠ 0 ∧
      confirmed.configuration.quoteAtomsPerLot ≠ 0 := by
  simp only [Host.confirmedOpenEpochFromAccounts, AdmissionPolicyV1.new, bind_ok,
    Unique.exists_iff, rejectIf_eq_ok, mapError_eq_ok, okOr_eq_ok, not_or, not_not] at h
  obtain ⟨state, -, -, -, pool, -, clock, -, hgate, -, policy, ⟨-, -, hpolicy⟩, hconfirmed⟩ := h
  obtain ⟨-, -, -, -, -, hlot, -, -, -, -, -, -, -, -, -, -, -, -, -, -, -, -, -, -, hsame, hquote,
    -⟩ := hgate
  cases hpolicy
  cases hconfirmed
  exact ⟨hsame, rfl, hlot, hquote⟩

/-- Every member of a validated package holds both sides of a lot. -/
theorem LockPackageV1.funds_of_validate {package : LockPackageV1 host} {digest : Bytes32}
    {config : BatchConfig}
    (hread : host.confirmedOpenEpochFromAccounts epochAccount epochData poolAddress poolData
      clockData slot = .ok confirmed)
    (hvalidate : package.validate confirmed = .ok digest)
    (hconfig : BatchConfig.new package.configuration.baseLotAtoms
      package.configuration.quoteAtomsPerLot = .ok config) :
    ∀ s ∈ package.submissions, ∃ b, package.before[s.authorization.participantId]? = some b ∧
      config.Funds b := by
  intro s hs
  obtain ⟨hbasePolicy, hquotePolicy, -, -⟩ := confirmedOpenEpoch_lot hread
  have hvalid := (validate_ok hvalidate).1
  have hadmitted := hvalid.admitted s hs
  simp only [EncryptedSubmissionV1.verifyAdmission, FundedAuthorizationV1.verify, bind_ok,
    Unique.exists_iff, rejectIf_eq_ok, not_or, not_not] at hadmitted
  obtain ⟨⟨⟨-, -, hbase, hquote, -⟩, -⟩, -⟩ := hadmitted
  obtain ⟨hnodup, hbalances⟩ := balances_of_validate hvalidate
  obtain ⟨found, hmem, hparticipant, hreservedBase, hreservedQuote⟩ := hbalances s hs
  have hlots : config.baseLotAtoms = found.reservedBaseAtoms ∧
      config.quoteAtomsPerLot = found.reservedQuoteAtoms := by
    rw [hreservedBase, hreservedQuote, hbase, hquote, hbasePolicy, hquotePolicy,
      ← hvalid.configuration]
    exact BatchConfig.new_ok hconfig
  refine ⟨found.poolBalance, ?_, ?_, ?_⟩
  · rw [LockPackageV1.before, Map.getElem?_ofList (by rwa [List.map_map]), List.mem_map]
    exact ⟨found, hmem, by rw [hparticipant]⟩
  · rw [hlots.1]
    exact found.reservedBaseAtoms_le
  · rw [hlots.2]
    exact found.reservedQuoteAtoms_le

end Package

/-- Netting the orders of a validated package stops only at a limit that its trader set, or at a
credit that does not fit. -/
theorem locked_batch_funded {host : Host} {epochAccount poolAddress : Pubkey}
    {epochData poolData clockData : RpcAccountData} {slot : UInt64} {confirmed : ConfirmedOpenEpoch}
    {package : LockPackageV1 host} {digest : Bytes32} {recovered : List SignedIntentV1}
    {submissions : Map Bytes32 EncryptedSubmissionV1} {orders : List FundedOrder}
    (hread : host.confirmedOpenEpochFromAccounts epochAccount epochData poolAddress poolData
      clockData slot = .ok confirmed)
    (hvalidate : package.validate confirmed = .ok digest)
    (hlength : recovered.length = package.submissions.length)
    (hmembers : byParticipant ∅ package.submissions = .ok submissions)
    (horders : collectOrders host package.configuration.epochId submissions ∅ recovered =
      .ok orders) :
    ∃ config, BatchConfig.new package.configuration.baseLotAtoms
        package.configuration.quoteAtomsPerLot = .ok config ∧
      ∀ e, netBatch config package.before orders = .error e →
        ∃ intent ∈ recovered,
          (e = .limitViolated intent.body.participantId ∧ intent.order.LimitViolated config) ∨
          (e = .arithmeticOverflow ∧ ∃ b, package.before[intent.body.participantId]? = some b ∧
            intent.order.CreditOverflows config b) := by
  obtain ⟨-, -, hbase, hquote⟩ := confirmedOpenEpoch_lot hread
  have hvalid := (LockPackageV1.validate_ok hvalidate).1
  rw [← hvalid.configuration] at hbase hquote
  obtain ⟨config, hconfig⟩ : ∃ config, BatchConfig.new package.configuration.baseLotAtoms
      package.configuration.quoteAtomsPerLot = .ok config :=
    ⟨_, dif_neg fun h => h.elim hbase hquote⟩
  refine ⟨config, hconfig, fun e he => ?_⟩
  obtain ⟨hsubmissions, hbalances⟩ := LockPackageV1.limits_of_validate hvalidate
  obtain ⟨hnodup, hknown⟩ := collectOrders_members horders
  cases collectOrders_ok horders
  have hcount := UInt32.le_iff_toNat_le.mp (UInt32.le_trans hvalid.minimumCount hvalid.crowd)
  rw [hvalid.memberCount] at hcount
  have hbefore : package.before.size = package.balances.length := by
    refine (Map.size_ofList_eq_length.mpr ?_).trans (List.length_map _)
    rw [List.map_map]
    exact (LockPackageV1.balances_of_validate hvalidate).1
  have hsize : Addressable package.before := by
    rw [Addressable, hbefore]
    have hsmall : package.balances.length ≤ 2 ^ 32 := hbalances.trans (by decide)
    omega
  have hfunds : ∀ order ∈ recovered.map SignedIntentV1.order, ∃ b,
      package.before[order.participantId]? = some b ∧ config.Funds b := by
    intro order horder
    obtain ⟨intent, hintent, rfl⟩ := List.mem_map.mp horder
    obtain ⟨s, hs, heq⟩ :=
      ((byParticipant_ok hmembers _).mp (hknown intent hintent).1).resolve_left (by simp)
    obtain ⟨b, hb, hfunds⟩ := LockPackageV1.funds_of_validate hread hvalidate hconfig s hs
    rw [heq] at hb
    exact ⟨b, hb, hfunds⟩
  have hshort : (recovered.map SignedIntentV1.order).length < 2 ^ 32 := by
    rw [List.length_map, hlength]
    exact hsubmissions.trans_lt (by decide)
  have hcrowd : recovered.map SignedIntentV1.order ≠ [] := by
    rw [Ne, List.map_eq_nil_iff]
    rintro rfl
    rw [← hlength] at hcount
    exact absurd hcount (by decide)
  obtain ⟨order, horder, b, hb, hfails⟩ := netBatch_error hcrowd
    (by rwa [List.map_map]) hsize hshort hfunds he
  obtain ⟨intent, hintent, rfl⟩ := List.mem_map.mp horder
  refine ⟨intent, hintent, ?_⟩
  cases hfails with
  | limit violated => exact .inl ⟨rfl, violated⟩
  | overflow overflows => exact .inr ⟨rfl, b, hb, overflows⟩

namespace Sample

/-- The members' intents as orders, once the package is validated against the open epoch. -/
def lockedOrders : Option (Bytes32 × List FundedOrder) := do
  let confirmed ← (host.confirmedOpenEpochFromAccounts epoch (openChain.rpcData epoch) pool
    (openChain.rpcData pool) (openChain.rpcData clockId) 3).toOption
  let digest ← ((package [1, 2, 3, 4]).validate confirmed).toOption
  let submissions ← (byParticipant ∅ (package [1, 2, 3, 4]).submissions).toOption
  let orders ← (collectOrders host epochId submissions ∅ ([1, 2, 3, 4].map intent)).toOption
  some (digest, orders)

theorem lockedOrders_isSome : lockedOrders.isSome = true := by decide +kernel

end Sample

theorem locked_batch_funded_sample : ∃ digest orders config,
    Sample.lockedOrders = some (digest, orders) ∧ BatchConfig.new 10 100 = .ok config ∧
    ∀ p, netBatch config (Sample.package [1, 2, 3, 4]).before orders ≠
      .error (.insufficientReservation p) := by
  obtain ⟨⟨digest, orders⟩, hchain⟩ := Option.isSome_iff_exists.mp Sample.lockedOrders_isSome
  have hsteps := hchain
  simp only [Sample.lockedOrders, Option.bind_eq_bind, Option.bind_eq_some_iff] at hsteps
  obtain ⟨confirmed, hread, digest', hvalidate, submissions, hmembers, orders', horders, heq⟩ :=
    hsteps
  cases heq
  obtain ⟨config, hconfig, herror⟩ := locked_batch_funded (eq_ok_of_toOption hread)
    (eq_ok_of_toOption hvalidate) (rfl : ([1, 2, 3, 4].map Sample.intent).length = 4)
    (eq_ok_of_toOption hmembers) (eq_ok_of_toOption horders)
  refine ⟨digest, orders, config, hchain, hconfig, fun p hp => ?_⟩
  obtain ⟨intent, -, ⟨heq, -⟩ | ⟨heq, -⟩⟩ := herror _ hp
  · cases heq
  · cases heq

end Kageb
