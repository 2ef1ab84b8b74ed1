import Kageb.Host.Admission
import Kageb.Host.Frozen

/-! Who is admitted: the loop of `admit_batch` compared with the rule that a submission counts
against those admitted before it, and with the gate of a keyper. -/

namespace Kageb

open Binary Checks Maps

/-! ### The rule of admission -/

section

variable (host : Host) (policy : AdmissionPolicyV1)

/-- The loop takes the submission as a member. -/
def Admission.Admits (a : Admission) (s : EncryptedSubmissionV1) : Prop :=
  s.verifyAdmission host policy = .ok () ∧ s.authorization.participantId ∉ a.valid ∧
    s.authorization.nonce ∉ a.nonces ∧ s.receipt ∉ a.receipts

/-- The submission verifies and differs from every member so far. -/
def Admission.Rule (a : Admission) (s : EncryptedSubmissionV1) : Prop :=
  s.verifyAdmission host policy = .ok () ∧ ∀ p t, a.Member p t →
    t.authorization.participantId ≠ s.authorization.participantId ∧
    t.authorization.nonce ≠ s.authorization.nonce ∧ t.receipt ≠ s.receipt

/-- Where the loop is after some submissions. -/
def Admission.after (a : Admission) (submissions : List EncryptedSubmissionV1) : Admission :=
  submissions.foldl (Admission.step host policy) a

/-- `rest` is what is left of the submissions without some that the loop does not admit. -/
inductive Admission.Leaves : Admission → List EncryptedSubmissionV1 →
    List EncryptedSubmissionV1 → Prop
  | nil {a : Admission} : Leaves a [] []
  | keep {a : Admission} {s : EncryptedSubmissionV1} {submissions rest} :
      Leaves (a.step host policy s) submissions rest → Leaves a (s :: submissions) (s :: rest)
  | drop {a : Admission} {s : EncryptedSubmissionV1} {submissions rest} :
      ¬a.Admits host policy s → Leaves (a.step host policy s) submissions rest →
      Leaves a (s :: submissions) rest

/-- Going through the submissions in order, none that verifies and is new in its participant, its
nonce and its receipt has the nonce of an earlier one that was refused for its receipt. -/
def UnburnedNonces (participants nonces receipts burned : Finset Bytes32) :
    List EncryptedSubmissionV1 → Prop
  | [] => True
  | s :: submissions =>
    if s.verifyAdmission host policy ≠ .ok () ∨ s.authorization.participantId ∈ participants ∨
        s.authorization.nonce ∈ nonces then
      UnburnedNonces participants nonces receipts burned submissions
    else if s.receipt ∈ receipts then
      UnburnedNonces participants nonces receipts (insert s.authorization.nonce burned) submissions
    else
      s.authorization.nonce ∉ burned ∧
        UnburnedNonces (insert s.authorization.participantId participants)
          (insert s.authorization.nonce nonces) (insert s.receipt receipts) burned submissions

end

section Loop

variable {host : Host} {policy : AdmissionPolicyV1} {a b : Admission} {s : EncryptedSubmissionV1}
  {participants nonces receipts burned spent : Finset Bytes32}
  {submissions rest : List EncryptedSubmissionV1}

theorem Admission.step_of_admits (h : a.Admits host policy s) : a.step host policy s =
    ⟨a.valid.insert s.authorization.participantId s, insert s.authorization.nonce a.nonces,
      insert s.receipt a.receipts⟩ := by
  obtain ⟨hverify, hparticipant, hnonce, hreceipt⟩ := h
  rw [Admission.step, if_neg (by simp [hverify, hparticipant, hnonce]), if_neg hreceipt]

theorem Admission.member_admitted {p : Bytes32} {t : EncryptedSubmissionV1}
    (h : a.Admits host policy s) : (a.step host policy s).Member p t ↔
      (s.authorization.participantId = p ∧ s = t) ∨ a.Member p t := by
  rw [step_of_admits h]
  refine ⟨member_insert, ?_⟩
  rintro (⟨rfl, rfl⟩ | ht)
  · rw [Member, Map.getElem?_insert, if_pos rfl]
  · have hne : s.authorization.participantId ≠ p := by
      rintro rfl
      exact h.2.1 ht.mem
    rw [Member, Map.getElem?_insert, if_neg hne]
    exact ht

/-- What the sets say of the loop: `nonces` are those of the members, `burned` the other ones that
it has seen. -/
structure Admission.Tracks (a : Admission) (participants nonces receipts burned : Finset Bytes32) :
    Prop where
  own : ∀ p t, a.Member p t → t.authorization.participantId = p
  known : ∀ p, p ∈ participants ↔ p ∈ a.valid
  ofNonces : ∀ n, n ∈ nonces ↔ ∃ p t, a.Member p t ∧ t.authorization.nonce = n
  ofReceipts : ∀ r, r ∈ receipts ↔ ∃ p t, a.Member p t ∧ t.receipt = r
  seenNonces : ∀ n, n ∈ a.nonces ↔ n ∈ nonces ∨ n ∈ burned
  seenReceipts : a.receipts = receipts

theorem Admission.Tracks.empty : Admission.Tracks ⟨∅, ∅, ∅⟩ ∅ ∅ ∅ ∅ := by
  refine ⟨fun p t h => ?_, by simp, by simp [Admission.Member], by simp [Admission.Member], by simp,
    rfl⟩
  simp [Admission.Member] at h

theorem Admission.Tracks.admits_iff (h : a.Tracks participants nonces receipts burned) :
    a.Admits host policy s ↔ s.verifyAdmission host policy = .ok () ∧
      s.authorization.participantId ∉ participants ∧ s.authorization.nonce ∉ nonces ∧
      s.authorization.nonce ∉ burned ∧ s.receipt ∉ receipts := by
  rw [Admits, h.seenNonces, h.seenReceipts, h.known, not_or, and_assoc]

theorem Admission.Tracks.rule_iff (h : a.Tracks participants nonces receipts burned) :
    a.Rule host policy s ↔ s.verifyAdmission host policy = .ok () ∧
      s.authorization.participantId ∉ participants ∧ s.authorization.nonce ∉ nonces ∧
      s.receipt ∉ receipts := by
  refine and_congr_right fun _ => ⟨fun hall => ⟨?_, ?_, ?_⟩, fun ⟨hp, hn, hr⟩ p t ht => ?_⟩
  · rw [h.known, Std.ExtTreeMap.mem_iff_isSome_getElem?, Option.isSome_iff_exists]
    rintro ⟨t, ht⟩
    exact (hall _ t ht).1 (h.own _ t ht)
  · rw [h.ofNonces]
    rintro ⟨p, t, ht, heq⟩
    exact (hall p t ht).2.1 heq
  · rw [h.ofReceipts]
    rintro ⟨p, t, ht, heq⟩
    exact (hall p t ht).2.2 heq
  · refine ⟨fun heq => hp ?_, fun heq => hn ?_, fun heq => hr ?_⟩
    · rw [h.known, ← heq, h.own p t ht]
      exact ht.mem
    · exact (h.ofNonces _).mpr ⟨p, t, ht, heq⟩
    · exact (h.ofReceipts _).mpr ⟨p, t, ht, heq⟩

/-- A submission that does not verify or repeats a member's participant or nonce changes nothing. -/
theorem Admission.Tracks.step_refused (h : a.Tracks participants nonces receipts burned)
    (hrefused : s.verifyAdmission host policy ≠ .ok () ∨
      s.authorization.participantId ∈ participants ∨ s.authorization.nonce ∈ nonces) :
    a.step host policy s = a := by
  rw [Admission.step, if_pos]
  rw [← h.known, h.seenNonces]
  tauto

/-- A submission that repeats a member's receipt leaves its nonce behind. -/
theorem Admission.Tracks.step_burned (h : a.Tracks participants nonces receipts burned)
    (hrefused : ¬(s.verifyAdmission host policy ≠ .ok () ∨
      s.authorization.participantId ∈ participants ∨ s.authorization.nonce ∈ nonces))
    (hreceipt : s.receipt ∈ receipts) :
    (a.step host policy s).valid = a.valid ∧ (a.step host policy s).Tracks participants nonces
      receipts (insert s.authorization.nonce burned) := by
  have hkept : ∀ seen : Finset Bytes32,
      (∀ n, n ∈ seen ↔ n ∈ a.nonces ∨ n = s.authorization.nonce) →
      Admission.Tracks { a with nonces := seen } participants nonces receipts
        (insert s.authorization.nonce burned) := by
    intro seen hseen
    refine ⟨h.own, h.known, h.ofNonces, h.ofReceipts, fun n => ?_, h.seenReceipts⟩
    rw [hseen, h.seenNonces, Finset.mem_insert]
    tauto
  rcases @Admission.step_cases host policy a s with
    ⟨hold, heq⟩ | ⟨-, ⟨-, heq⟩ | ⟨hnew, -⟩⟩
  · rw [heq]
    refine ⟨rfl, hkept a.nonces fun n => ⟨.inl, ?_⟩⟩
    rintro (hn | rfl)
    · exact hn
    · rw [← h.known] at hold
      tauto
  · rw [heq]
    refine ⟨rfl, hkept _ fun n => ?_⟩
    rw [Finset.mem_insert, or_comm]
  · rw [h.seenReceipts] at hnew
    exact absurd hreceipt hnew

theorem Admission.Tracks.step_admitted (h : a.Tracks participants nonces receipts burned)
    (hadmits : a.Admits host policy s) :
    (a.step host policy s).Tracks (insert s.authorization.participantId participants)
      (insert s.authorization.nonce nonces) (insert s.receipt receipts) burned := by
  have hmember := fun p t => @member_admitted host policy a s p t hadmits
  rw [step_of_admits hadmits] at hmember ⊢
  have hvalues : ∀ (f : EncryptedSubmissionV1 → Bytes32) (v : Bytes32),
      (∃ p t, Admission.Member ⟨a.valid.insert s.authorization.participantId s,
        insert s.authorization.nonce a.nonces, insert s.receipt a.receipts⟩ p t ∧ f t = v) ↔
      v = f s ∨ ∃ p t, a.Member p t ∧ f t = v := by
    intro f v
    simp only [hmember]
    constructor
    · rintro ⟨p, t, ⟨-, rfl⟩ | ht, heq⟩
      · exact .inl heq.symm
      · exact .inr ⟨p, t, ht, heq⟩
    · rintro (rfl | ⟨p, t, ht, heq⟩)
      · exact ⟨_, s, .inl ⟨rfl, rfl⟩, rfl⟩
      · exact ⟨p, t, .inr ht, heq⟩
  refine ⟨fun p t ht => ?_, fun p => ?_, fun n => ?_, fun r => ?_, fun n => ?_, ?_⟩
  · rcases (hmember p t).mp ht with ⟨hp, rfl⟩ | ht
    · exact hp
    · exact h.own p t ht
  · rw [Finset.mem_insert, Std.ExtTreeMap.mem_insert, compare_eq_iff_eq, h.known, eq_comm]
  · rw [Finset.mem_insert, h.ofNonces, hvalues fun t => t.authorization.nonce]
  · rw [Finset.mem_insert, h.ofReceipts, hvalues EncryptedSubmissionV1.receipt]
  · rw [Finset.mem_insert, Finset.mem_insert, h.seenNonces]
    tauto
  · rw [h.seenReceipts]

/-! ### Loop and rule -/

/-- The loop follows the rule exactly as long as no nonce is burned that is still needed. -/
theorem Admission.Tracks.rule_foldl (h : a.Tracks participants nonces receipts burned) :
    (∀ pre s post, submissions = pre ++ s :: post →
      ((a.after host policy pre).Admits host policy s ↔
        (a.after host policy pre).Rule host policy s)) ↔
      UnburnedNonces host policy participants nonces receipts burned submissions := by
  induction submissions generalizing a participants nonces receipts burned with
  | nil => simp [UnburnedNonces]
  | cons x submissions ih =>
    have hsplit : (∀ pre s post, x :: submissions = pre ++ s :: post →
        ((a.after host policy pre).Admits host policy s ↔
          (a.after host policy pre).Rule host policy s)) ↔
        (a.Admits host policy x ↔ a.Rule host policy x) ∧
        ∀ pre s post, submissions = pre ++ s :: post →
          (((a.step host policy x).after host policy pre).Admits host policy s ↔
            ((a.step host policy x).after host policy pre).Rule host policy s) := by
      constructor
      · exact fun hall => ⟨hall [] x submissions rfl,
          fun pre s post heq => hall (x :: pre) s post (by rw [heq, List.cons_append])⟩
      · rintro ⟨hhead, htail⟩ pre s post heq
        cases pre with
        | nil =>
          cases heq
          exact hhead
        | cons y pre =>
          cases heq
          exact htail pre s post rfl
    rw [hsplit, h.admits_iff, h.rule_iff, UnburnedNonces]
    split_ifs with hrefused hreceipt
    · rw [h.step_refused hrefused, ih h]
      tauto
    · rw [ih (h.step_burned hrefused hreceipt).2]
      tauto
    · by_cases hburned : x.authorization.nonce ∈ burned
      · tauto
      · have hadmits : a.Admits host policy x := h.admits_iff.mpr (by tauto)
        rw [ih (h.step_admitted hadmits)]
        tauto

/-- Without a needed nonce among the burned ones, what the loop refuses can be left out. -/
theorem Admission.Tracks.after_leaves (ha : a.Tracks participants nonces receipts burned)
    (hb : b.Tracks participants nonces receipts spent) (hspent : spent ⊆ burned)
    (hvalid : b.valid = a.valid)
    (hunburned : UnburnedNonces host policy participants nonces receipts burned submissions)
    (hleaves : a.Leaves host policy submissions rest) :
    (b.after host policy rest).valid = (a.after host policy submissions).valid := by
  induction hleaves generalizing b participants nonces receipts burned spent with
  | nil => exact hvalid
  | @keep a s submissions rest _ ih =>
    rw [UnburnedNonces] at hunburned
    split_ifs at hunburned with hrefused hreceipt
    · have hskip := ha.step_refused hrefused
      have hskip' := hb.step_refused hrefused
      rw [hskip] at ih
      rw [after, after, List.foldl_cons, List.foldl_cons, hskip, hskip']
      exact ih ha hb hspent hvalid hunburned
    · obtain ⟨heq, ha'⟩ := ha.step_burned hrefused hreceipt
      obtain ⟨heq', hb'⟩ := hb.step_burned hrefused hreceipt
      exact ih ha' hb' (Finset.insert_subset_insert _ hspent) (by rw [heq, heq', hvalid]) hunburned
    · obtain ⟨hnonce, hunburned⟩ := hunburned
      have hadmits : a.Admits host policy s := ha.admits_iff.mpr (by tauto)
      have hadmits' : b.Admits host policy s :=
        hb.admits_iff.mpr ⟨by tauto, by tauto, by tauto, fun hmem => hnonce (hspent hmem), hreceipt⟩
      refine ih (ha.step_admitted hadmits) (hb.step_admitted hadmits') hspent ?_ hunburned
      rw [step_of_admits hadmits, step_of_admits hadmits', hvalid]
  | @drop a s submissions rest hnot _ ih =>
    rw [UnburnedNonces] at hunburned
    split_ifs at hunburned with hrefused hreceipt
    · have hskip := ha.step_refused hrefused
      rw [hskip] at ih
      rw [after, after, List.foldl_cons, hskip]
      exact ih ha hb hspent hvalid hunburned
    · obtain ⟨heq, ha'⟩ := ha.step_burned hrefused hreceipt
      exact ih ha' hb (hspent.trans (Finset.subset_insert _ _)) (by rw [heq, hvalid]) hunburned
    · exact absurd (ha.admits_iff.mpr (by tauto)) hnot

theorem Admission.Leaves.refl (a : Admission) (submissions : List EncryptedSubmissionV1) :
    a.Leaves host policy submissions submissions := by
  induction submissions generalizing a with
  | nil => exact .nil
  | cons s submissions ih => exact .keep (ih _)

/-- Whoever becomes a member has a nonce that was not seen before. -/
theorem Admission.member_after {p : Bytes32} {t : EncryptedSubmissionV1}
    (h : (a.after host policy submissions).Member p t) :
    a.Member p t ∨ t.authorization.nonce ∉ a.nonces := by
  induction submissions generalizing a with
  | nil => exact .inl h
  | cons s submissions ih =>
    have hlater := ih h
    rcases @Admission.step_cases host policy a s with
      ⟨-, heq⟩ | ⟨hnew, ⟨-, heq⟩ | ⟨-, heq⟩⟩ <;> rw [heq] at hlater
    · exact hlater
    · exact hlater.imp_right fun hnot hmem => hnot (Finset.mem_insert_of_mem hmem)
    · rcases hlater with hmember | hnot
      · rcases member_insert hmember with ⟨-, rfl⟩ | hmember
        · exact .inr fun hmem => hnew (.inr (.inr hmem))
        · exact .inl hmember
      · exact .inr fun hmem => hnot (Finset.mem_insert_of_mem hmem)

/-- A needed nonce that is burned shuts out a submission that the loop would otherwise take. -/
theorem Admission.Tracks.exists_leaves (ha : a.Tracks participants nonces receipts burned)
    (hb : b.Tracks participants nonces receipts ∅) (hvalid : b.valid = a.valid)
    (hburned : ¬UnburnedNonces host policy participants nonces receipts burned submissions) :
    ∃ rest, a.Leaves host policy submissions rest ∧
      (b.after host policy rest).valid ≠ (a.after host policy submissions).valid := by
  induction submissions generalizing a b participants nonces receipts burned with
  | nil => exact absurd trivial hburned
  | cons s submissions ih =>
    rw [UnburnedNonces] at hburned
    split_ifs at hburned with hrefused hreceipt
    · have hskip := ha.step_refused hrefused
      obtain ⟨rest, hrest, hne⟩ := ih ha hb hvalid hburned
      refine ⟨rest, .drop (fun hadmits => ?_) (hskip.symm ▸ hrest), ?_⟩
      · have := ha.admits_iff.mp hadmits
        tauto
      · rwa [after, after, List.foldl_cons, hskip]
    · obtain ⟨heq, ha'⟩ := ha.step_burned hrefused hreceipt
      obtain ⟨rest, hrest, hne⟩ := ih ha' hb (hvalid.trans heq.symm) hburned
      refine ⟨rest, .drop (fun hadmits => ?_) hrest, hne⟩
      exact (ha.admits_iff.mp hadmits).2.2.2.2 hreceipt
    · have hadmits' : b.Admits host policy s := hb.admits_iff.mpr (by simp; tauto)
      by_cases hnonce : s.authorization.nonce ∈ burned
      · -- the copy that has seen fewer nonces takes the submission, the loop never does
        refine ⟨s :: submissions, .keep (.refl _ _), fun heq => ?_⟩
        have hself : (b.after host policy (s :: submissions)).Member s.authorization.participantId s := by
          refine member_foldl submissions ?_
          rw [step_of_admits hadmits', Member, Map.getElem?_insert, if_pos rfl]
        have hmember : (a.after host policy (s :: submissions)).Member
            s.authorization.participantId s := by
          rw [Member, ← heq]
          exact hself
        rcases member_after hmember with hold | hnot
        · exact hrefused (.inr (.inl ((ha.known _).mpr hold.mem)))
        · exact hnot ((ha.seenNonces _).mpr (.inr hnonce))
      · have hadmits : a.Admits host policy s := ha.admits_iff.mpr (by tauto)
        obtain ⟨rest, hrest, hne⟩ := ih (ha.step_admitted hadmits) (hb.step_admitted hadmits')
          (by rw [step_of_admits hadmits, step_of_admits hadmits', hvalid])
          fun hunburned => hburned ⟨hnonce, hunburned⟩
        exact ⟨s :: rest, .keep hrest, hne⟩

end Loop

theorem admitBatch_congr {host : Host} {policy : AdmissionPolicyV1}
    {submissions submissions' : List EncryptedSubmissionV1}
    (h : (Admission.after host policy ⟨∅, ∅, ∅⟩ submissions).valid =
      (Admission.after host policy ⟨∅, ∅, ∅⟩ submissions').valid) :
    admitBatch host submissions policy = admitBatch host submissions' policy := by
  unfold Admission.after at h
  simp only [admitBatch, h]

/-- A submission is admitted exactly when it verifies and differs from those admitted before it, and
what is not admitted can be left out, exactly for the lists in which no needed nonce is burned. -/
theorem rejected_without_influence_iff (host : Host) (policy : AdmissionPolicyV1)
    (submissions : List EncryptedSubmissionV1) :
    ((∀ pre s post, submissions = pre ++ s :: post →
      ((Admission.after host policy ⟨∅, ∅, ∅⟩ pre).Admits host policy s ↔
        (Admission.after host policy ⟨∅, ∅, ∅⟩ pre).Rule host policy s)) ↔
      UnburnedNonces host policy ∅ ∅ ∅ ∅ submissions) ∧
    ((∀ rest, Admission.Leaves host policy ⟨∅, ∅, ∅⟩ submissions rest →
      (Admission.after host policy ⟨∅, ∅, ∅⟩ rest).valid =
        (Admission.after host policy ⟨∅, ∅, ∅⟩ submissions).valid ∧
      admitBatch host rest policy = admitBatch host submissions policy) ↔
      UnburnedNonces host policy ∅ ∅ ∅ ∅ submissions) := by
  refine ⟨Admission.Tracks.empty.rule_foldl, fun hall => ?_, fun hunburned rest hrest => ?_⟩
  · by_contra hburned
    obtain ⟨rest, hrest, hne⟩ :=
      Admission.Tracks.empty.exists_leaves Admission.Tracks.empty rfl hburned
    exact hne (hall rest hrest).1
  · have hvalid := Admission.Tracks.empty.after_leaves Admission.Tracks.empty subset_rfl rfl hunburned
      hrest
    exact ⟨hvalid, admitBatch_congr hvalid⟩

namespace Sample

/-- The submission of the second member, first with the receipt of the first. -/
def echoed : EncryptedSubmissionV1 :=
  let ciphertext := (submission 2).ciphertext
  { submission 2 with
    receipt := key 71
    outerSignature := signature (key 52) (EncryptedSubmissionV1.submissionMessage epochId
      ((authorization 2).hash host) (sha256 ciphertext) (key 71)) }

def lateSubmissions : List EncryptedSubmissionV1 := [2, 3, 4, 5].map submission

end Sample

theorem burned_nonce_shuts_out : ∃ batch batch',
    admitBatch Sample.host (Sample.submission 1 :: Sample.echoed :: Sample.lateSubmissions)
      Sample.packageOpen.policy = .ok batch ∧
    admitBatch Sample.host (Sample.submission 1 :: Sample.lateSubmissions)
      Sample.packageOpen.policy = .ok batch' ∧
    batch.members = [1, 3, 4, 5].map Sample.submission ∧
    batch'.members = [1, 2, 3, 4, 5].map Sample.submission := by
  have hboth :
      (admitBatch Sample.host (Sample.submission 1 :: Sample.echoed :: Sample.lateSubmissions)
        Sample.packageOpen.policy).toOption = some ⟨[1, 3, 4, 5].map Sample.submission⟩ ∧
      (admitBatch Sample.host (Sample.submission 1 :: Sample.lateSubmissions)
        Sample.packageOpen.policy).toOption = some ⟨[1, 2, 3, 4, 5].map Sample.submission⟩ := by
    decide +kernel
  exact ⟨_, _, eq_ok_of_toOption hboth.1, eq_ok_of_toOption hboth.2, rfl, rfl⟩

/-! ### The gate of a keyper -/

/-- A confirmed epoch as the code builds it: from accounts, or from a confirmed lock. -/
inductive ConfirmedOpenEpoch.Built (host : Host) : ConfirmedOpenEpoch → Prop
  | read {epoch pool : Pubkey} {epochData poolData clockData : RpcAccountData} {slot : UInt64}
      {confirmed : ConfirmedOpenEpoch} :
      host.confirmedOpenEpochFromAccounts epoch epochData pool poolData clockData slot =
        .ok confirmed → Built host confirmed
  | locked {lock : ConfirmedLock} {pool : PoolStateV1} {policy : AdmissionPolicyV1} :
      lock.pool = some pool →
      AdmissionPolicyV1.new (lock.state.configuration pool).epochId pool.operator
        (lock.state.configuration pool).minimumCount.toNat
        (lock.state.configuration pool).baseLotAtoms
        (lock.state.configuration pool).quoteAtomsPerLot lock.confirmationSlot = .ok policy →
      Built host
        { epochAccount := lock.epochAccount
          configuration := lock.state.configuration pool
          policy
          currentTimestamp := saturatingPred (lock.state.configuration pool).lockDeadline
          confirmationSlot := lock.confirmationSlot }

theorem ConfirmedOpenEpoch.Built.minimum {host : Host} {confirmed : ConfirmedOpenEpoch}
    (h : confirmed.Built host) :
    confirmed.policy.minimum = confirmed.configuration.minimumCount.toNat := by
  cases h with
  | read hread =>
    obtain ⟨e, p, clock, -, -, -, rfl⟩ := Host.confirmedOpenEpochFromAccounts_ok.mp hread
    rfl
  | locked hpool hpolicy =>
    simp only [AdmissionPolicyV1.new, bind_ok, Unique.exists_iff] at hpolicy
    cases hpolicy.2.2
    rfl

section Gates

variable {host : Host} {policy : AdmissionPolicyV1} {a : Admission}
  {submissions : List EncryptedSubmissionV1} {participants nonces receipts : Finset Bytes32}

/-- The loop takes all of what is admissible. -/
theorem Admission.member_after_all {p : Bytes32} {t : EncryptedSubmissionV1}
    (h : Admissible host policy submissions)
    (hnew : ∀ s ∈ submissions, s.authorization.participantId ∉ a.valid ∧
      s.authorization.nonce ∉ a.nonces ∧ s.receipt ∉ a.receipts) :
    (a.after host policy submissions).Member p t ↔
      a.Member p t ∨ t ∈ submissions ∧ t.authorization.participantId = p := by
  induction submissions generalizing a with
  | nil => simp [after]
  | cons s submissions ih =>
    obtain ⟨hverified, hrest, hdiffer⟩ := admissible_cons.mp h
    have hadmits : a.Admits host policy s := ⟨hverified, hnew s List.mem_cons_self⟩
    have hlater := ih hrest (a := a.step host policy s) ?_
    · rw [member_admitted hadmits] at hlater
      refine Iff.trans hlater ?_
      rw [List.mem_cons]
      constructor
      · rintro ((⟨hp, rfl⟩ | ht) | ⟨ht, hp⟩)
        · exact .inr ⟨.inl rfl, hp⟩
        · exact .inl ht
        · exact .inr ⟨.inr ht, hp⟩
      · rintro (ht | ⟨rfl | ht, hp⟩)
        · exact .inl (.inr ht)
        · exact .inl (.inl ⟨hp, rfl⟩)
        · exact .inr ⟨ht, hp⟩
    · intro x hx
      obtain ⟨hparticipant, hnonce, hreceipt⟩ := hnew x (List.mem_cons_of_mem _ hx)
      obtain ⟨hp, hn, hr⟩ := hdiffer x hx
      rw [step_of_admits hadmits]
      refine ⟨?_, ?_, ?_⟩
      · rw [Std.ExtTreeMap.mem_insert, compare_eq_iff_eq]
        exact not_or.mpr ⟨fun heq => hp heq.symm, hparticipant⟩
      · exact Finset.mem_insert.not.mpr (not_or.mpr ⟨hn, hnonce⟩)
      · exact Finset.mem_insert.not.mpr (not_or.mpr ⟨hr, hreceipt⟩)

theorem Admission.mem_members {t : EncryptedSubmissionV1} :
    t ∈ a.valid.toList.map Prod.snd ↔ ∃ p, a.Member p t := by
  simp only [List.mem_map, Prod.exists, exists_eq_right, Std.ExtTreeMap.mem_toList_iff_getElem?_eq_some]
  rfl

/-- What the loop has taken is admissible. -/
theorem Admission.Inv.admissible (h : a.Inv)
    (hverified : ∀ p t, a.Member p t → t.verifyAdmission host policy = .ok ()) :
    Admissible host policy (a.valid.toList.map Prod.snd) := by
  obtain ⟨hparticipants, hnonces, hreceipts⟩ := h.nodup
  refine ⟨fun s hs => ?_, hparticipants, hnonces, hreceipts⟩
  obtain ⟨p, hp⟩ := mem_members.mp hs
  exact hverified p s hp

theorem Admission.verified_after
    (h : ∀ p t, a.Member p t → t.verifyAdmission host policy = .ok ()) :
    ∀ p t, (a.after host policy submissions).Member p t → t.verifyAdmission host policy = .ok () := by
  induction submissions generalizing a with
  | nil => exact h
  | cons s submissions ih =>
    refine ih fun p t ht => ?_
    rcases @Admission.step_cases host policy a s with
      ⟨-, heq⟩ | ⟨hnew, ⟨-, heq⟩ | ⟨-, heq⟩⟩ <;> rw [heq] at ht
    · exact h p t ht
    · exact h p t ht
    · rcases member_insert ht with ⟨-, rfl⟩ | ht
      · exact of_not_not fun hnot => hnew (.inl hnot)
      · exact h p t ht

/-- What is admissible and large enough is admitted, in the order of its participants. -/
theorem Admissible.admitBatch (h : Admissible host policy submissions)
    (hcrowd : policy.minimum ≤ submissions.length) :
    ∃ batch, admitBatch host submissions policy = .ok batch ∧ batch.members.Perm submissions ∧
      (batch.members.map fun s => s.authorization.participantId).Pairwise
        fun p q => compare p q = .lt := by
  set a := Admission.after host policy ⟨∅, ∅, ∅⟩ submissions with ha
  have hmember : ∀ p t, a.Member p t ↔ t ∈ submissions ∧ t.authorization.participantId = p := by
    intro p t
    rw [ha, Admission.member_after_all h (by simp)]
    simp [Admission.Member]
  have hinv : a.Inv := Admission.Inv.empty.foldl submissions
  have hperm : (a.valid.toList.map Prod.snd).Perm submissions := by
    have hadmissible : Admissible host policy (a.valid.toList.map Prod.snd) :=
      hinv.admissible fun p t ht => h.verified t ((hmember p t).mp ht).1
    refine (List.perm_ext_iff_of_nodup hadmissible.participants.of_map h.participants.of_map).mpr ?_
    intro t
    rw [Admission.mem_members]
    simp only [hmember, exists_and_left, exists_eq', and_true]
  have hsize : a.valid.size = submissions.length := by
    rw [← hperm.length_eq, List.length_map, Std.ExtTreeMap.length_toList]
  refine ⟨⟨a.valid.toList.map Prod.snd⟩, ?_, hperm, ?_⟩
  · exact rejectIf_bind_of_not (not_lt.mpr (hcrowd.trans_eq hsize.symm))
  · have hkeys : (a.valid.toList.map Prod.snd).map (fun s => s.authorization.participantId) =
        a.valid.keys := by
      rw [List.map_map, ← Std.ExtTreeMap.map_fst_toList_eq_keys]
      refine List.map_congr_left fun entry hentry => ?_
      exact hinv.participant _ _ (Std.ExtTreeMap.mem_toList_iff_getElem?_eq_some.mp hentry)
    rw [hkeys]
    exact Std.ExtTreeMap.ordered_keys

end Gates

/-- The gate of the coordinator and the gate of a keyper agree: what a keyper accepts is admitted as
a whole in any order, and what is admitted passes the loop of a keyper. -/
theorem gates_agree (host : Host) :
    (∀ (package : LockPackageV1 host) confirmed digest, confirmed.Built host →
      package.validate confirmed = .ok digest →
      ∀ submissions, submissions.Perm package.submissions →
        ∃ batch, admitBatch host submissions confirmed.policy = .ok batch ∧
          batch.members.Perm package.submissions ∧
          batch.members.length = package.memberCount.toNat ∧
          (batch.members.map fun s => s.authorization.participantId).Pairwise
            fun p q => compare p q = .lt) ∧
    ∀ submissions policy batch, admitBatch host submissions policy = .ok batch →
      checkMembers host policy ∅ ∅ ∅ batch.members = .ok () ∧
        policy.minimum ≤ batch.members.length := by
  constructor
  · intro package confirmed digest hbuilt hvalidate submissions hperm
    have hvalid := (LockPackageV1.validate_ok hvalidate).1
    simp only [LockPackageV1.validate, bind_ok, Unique.exists_iff] at hvalidate
    obtain ⟨-, -, -, -, -, hmembers, -⟩ := hvalidate
    have hadmissible := (checkMembers_iff.mp hmembers).1.perm hperm.symm
    have hcount : package.memberCount.toNat = package.submissions.length := hvalid.memberCount
    have hcrowd : confirmed.policy.minimum ≤ submissions.length := by
      rw [hbuilt.minimum, hperm.length_eq, ← hcount, ← hvalid.configuration]
      exact UInt32.le_iff_toNat_le.mp hvalid.crowd
    obtain ⟨batch, hbatch, hmembers, hsorted⟩ := hadmissible.admitBatch hcrowd
    exact ⟨batch, hbatch, hmembers.trans hperm, by rw [hmembers.length_eq, hperm.length_eq, hcount],
      hsorted⟩
  · intro submissions policy batch h
    simp only [admitBatch, bind_ok, Unique.exists_iff, rejectIf_eq_ok, not_lt] at h
    obtain ⟨hcrowd, hok⟩ := h
    cases hok
    have hinv : (Admission.after host policy ⟨∅, ∅, ∅⟩ submissions).Inv :=
      Admission.Inv.empty.foldl submissions
    refine ⟨checkMembers_iff.mpr ⟨hinv.admissible (Admission.verified_after ?_), by simp⟩, ?_⟩
    · intro p t ht
      simp [Admission.Member] at ht
    · rw [List.length_map, Std.ExtTreeMap.length_toList]
      exact hcrowd

theorem gates_agree_sample : ∃ digest batch,
    (Sample.package [1, 2, 3, 4]).validate Sample.packageOpen = .ok digest ∧
    admitBatch Sample.host (Sample.package [1, 2, 3, 4]).submissions.reverse
      Sample.packageOpen.policy = .ok batch ∧
    batch.members.length = 4 ∧
    checkMembers Sample.host Sample.packageOpen.policy ∅ ∅ ∅ batch.members = .ok () := by
  obtain ⟨slot, hread⟩ := Sample.openChain_read
  obtain ⟨hpackage, hbatch⟩ := gates_agree Sample.host
  obtain ⟨batch, hok, -, hlength, -⟩ := hpackage _ _ _ (.read hread) Sample.package_validates _
    (List.reverse_perm _)
  exact ⟨_, batch, Sample.package_validates, hok, hlength, (hbatch _ _ _ hok).1⟩

end Kageb
