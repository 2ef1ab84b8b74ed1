import Kageb.Host.Reference

/-! Admission: which submissions of a list make up a batch, and what tells its members apart. -/

namespace Kageb

open Binary Checks Maps

/-- What `admit_batch` keeps while it goes through the submissions. -/
structure Admission where
  valid : Map Bytes32 EncryptedSubmissionV1
  nonces : Finset Bytes32
  receipts : Finset Bytes32

structure AdmittedBatch where
  members : List EncryptedSubmissionV1
  deriving DecidableEq

section

variable (host : Host)

/-- One turn of the loop. The conditions are tried in order, so that a nonce counts as seen before
the receipt is looked at. -/
def Admission.step (policy : AdmissionPolicyV1) (a : Admission) (s : EncryptedSubmissionV1) :
    Admission :=
  if s.verifyAdmission host policy ≠ .ok () ∨ s.authorization.participantId ∈ a.valid ∨
      s.authorization.nonce ∈ a.nonces then
    a
  else if s.receipt ∈ a.receipts then
    { a with nonces := insert s.authorization.nonce a.nonces }
  else
    { valid := a.valid.insert s.authorization.participantId s
      nonces := insert s.authorization.nonce a.nonces
      receipts := insert s.receipt a.receipts }

def admitBatch (submissions : List EncryptedSubmissionV1) (policy : AdmissionPolicyV1) :
    Except CryptoError AdmittedBatch := do
  let a := submissions.foldl (Admission.step host policy) ⟨∅, ∅, ∅⟩
  rejectIf (a.valid.size < policy.minimum) (.insufficientCrowd a.valid.size policy.minimum)
  .ok ⟨a.valid.toList.map Prod.snd⟩

end

/-- No two members share a participant, a nonce, a receipt or a trading key. -/
structure DistinctMembers (members : List EncryptedSubmissionV1) : Prop where
  participants : (members.map fun s => s.authorization.participantId).Nodup
  nonces : (members.map fun s => s.authorization.nonce).Nodup
  receipts : (members.map EncryptedSubmissionV1.receipt).Nodup
  tradingKeys : (members.map fun s => s.authorization.tradingKey).Nodup

/-- Going through the submissions in order, none that verifies and is new in its participant, its
nonce and its receipt has the trading key of an earlier one like it. -/
def FreshKeys (host : Host) (policy : AdmissionPolicyV1)
    (participants nonces receipts keys : Finset Bytes32) : List EncryptedSubmissionV1 → Prop
  | [] => True
  | s :: submissions =>
    if s.verifyAdmission host policy ≠ .ok () ∨ s.authorization.participantId ∈ participants ∨
        s.authorization.nonce ∈ nonces then
      FreshKeys host policy participants nonces receipts keys submissions
    else if s.receipt ∈ receipts then
      FreshKeys host policy participants (insert s.authorization.nonce nonces) receipts keys
        submissions
    else
      s.authorization.tradingKey ∉ keys ∧
        FreshKeys host policy (insert s.authorization.participantId participants)
          (insert s.authorization.nonce nonces) (insert s.receipt receipts)
          (insert s.authorization.tradingKey keys) submissions

/-! ### What the loop keeps -/

/-- `s` was admitted for the participant. -/
def Admission.Member (a : Admission) (p : Bytes32) (s : EncryptedSubmissionV1) : Prop :=
  a.valid[p]? = some s

theorem Admission.Member.mem {a : Admission} {p : Bytes32} {s : EncryptedSubmissionV1}
    (h : a.Member p s) : p ∈ a.valid := by
  rw [Std.ExtTreeMap.mem_iff_isSome_getElem?, show a.valid[p]? = some s from h]
  rfl

/-- The members so far are told apart by their nonces and their receipts, all of which are seen. -/
structure Admission.Inv (a : Admission) : Prop where
  participant : ∀ p s, a.Member p s → s.authorization.participantId = p
  seen : ∀ p s, a.Member p s → s.authorization.nonce ∈ a.nonces ∧ s.receipt ∈ a.receipts
  distinct : ∀ p q s t, a.Member p s → a.Member q t →
    s.authorization.nonce = t.authorization.nonce ∨ s.receipt = t.receipt → p = q

theorem Admission.Inv.empty : Admission.Inv ⟨∅, ∅, ∅⟩ :=
  ⟨fun _ _ h => by simp [Admission.Member] at h, fun _ _ h => by simp [Admission.Member] at h,
    fun _ _ _ _ h => by simp [Admission.Member] at h⟩

section Loop

variable {host : Host} {policy : AdmissionPolicyV1} {a : Admission} {s : EncryptedSubmissionV1}

/-- A submission is passed over, or passed over with its nonce seen, or admitted. -/
theorem Admission.step_cases (a : Admission) (s : EncryptedSubmissionV1) :
    ((s.verifyAdmission host policy ≠ .ok () ∨ s.authorization.participantId ∈ a.valid ∨
        s.authorization.nonce ∈ a.nonces) ∧ a.step host policy s = a) ∨
    (¬(s.verifyAdmission host policy ≠ .ok () ∨ s.authorization.participantId ∈ a.valid ∨
        s.authorization.nonce ∈ a.nonces) ∧
      (s.receipt ∈ a.receipts ∧
          a.step host policy s = { a with nonces := insert s.authorization.nonce a.nonces } ∨
        s.receipt ∉ a.receipts ∧ a.step host policy s =
          ⟨a.valid.insert s.authorization.participantId s, insert s.authorization.nonce a.nonces,
            insert s.receipt a.receipts⟩)) := by
  unfold Admission.step
  split_ifs with hold hreceipt
  · exact .inl ⟨hold, rfl⟩
  · exact .inr ⟨hold, .inl ⟨hreceipt, rfl⟩⟩
  · exact .inr ⟨hold, .inr ⟨hreceipt, rfl⟩⟩

theorem Admission.member_insert {p : Bytes32} {t : EncryptedSubmissionV1}
    {nonces receipts : Finset Bytes32}
    (h : Admission.Member ⟨a.valid.insert s.authorization.participantId s, nonces, receipts⟩ p t) :
    (s.authorization.participantId = p ∧ s = t) ∨ a.Member p t := by
  rw [Member, Map.getElem?_insert] at h
  split_ifs at h with heq
  · exact .inl ⟨heq, Option.some.inj h⟩
  · exact .inr h

theorem Admission.Inv.step (h : a.Inv) : (a.step host policy s).Inv := by
  rcases @Admission.step_cases host policy a s with
    ⟨-, heq⟩ | ⟨hnew, ⟨-, heq⟩ | ⟨hreceipt, heq⟩⟩ <;> rw [heq]
  · exact h
  · exact ⟨h.participant,
      fun p t ht => ⟨Finset.mem_insert_of_mem (h.seen p t ht).1, (h.seen p t ht).2⟩, h.distinct⟩
  · -- what the new member has was not seen before, so no old member has it
    have hfresh : ∀ {p t}, a.Member p t →
        ¬(s.authorization.nonce = t.authorization.nonce ∨ s.receipt = t.receipt) := by
      rintro p t ht (heq | heq)
      · exact hnew (.inr (.inr (heq ▸ (h.seen p t ht).1)))
      · exact hreceipt (heq ▸ (h.seen p t ht).2)
    refine ⟨fun p t ht => ?_, fun p t ht => ?_, fun p q t u ht hu heq => ?_⟩
    · rcases member_insert ht with ⟨rfl, rfl⟩ | ht
      · rfl
      · exact h.participant p t ht
    · rcases member_insert ht with ⟨rfl, rfl⟩ | ht
      · exact ⟨Finset.mem_insert_self _ _, Finset.mem_insert_self _ _⟩
      · exact ⟨Finset.mem_insert_of_mem (h.seen p t ht).1,
          Finset.mem_insert_of_mem (h.seen p t ht).2⟩
    · rcases member_insert ht with ⟨rfl, rfl⟩ | ht <;> rcases member_insert hu with ⟨rfl, rfl⟩ | hu
      · rfl
      · exact absurd heq (hfresh hu)
      · exact absurd (heq.imp Eq.symm Eq.symm) (hfresh ht)
      · exact h.distinct p q t u ht hu heq

theorem Admission.Inv.foldl (submissions : List EncryptedSubmissionV1) (h : a.Inv) :
    (submissions.foldl (Admission.step host policy) a).Inv := by
  induction submissions generalizing a with
  | nil => exact h
  | cons s submissions ih => exact ih h.step

/-- No two members share a participant, a nonce or a receipt. -/
theorem Admission.Inv.nodup (h : a.Inv) :
    ((a.valid.toList.map Prod.snd).map fun s => s.authorization.participantId).Nodup ∧
    ((a.valid.toList.map Prod.snd).map fun s => s.authorization.nonce).Nodup ∧
    ((a.valid.toList.map Prod.snd).map EncryptedSubmissionV1.receipt).Nodup := by
  refine ⟨?_, ?_, ?_⟩ <;> rw [List.map_map]
  · refine (Map.nodup_map_toList (fun s => s.authorization.participantId) a.valid).mpr ?_
    intro p q s t hs ht heq
    rw [← h.participant p s hs, ← h.participant q t ht, heq]
  · refine (Map.nodup_map_toList (fun s => s.authorization.nonce) a.valid).mpr ?_
    exact fun p q s t hs ht heq => h.distinct p q s t hs ht (.inl heq)
  · refine (Map.nodup_map_toList EncryptedSubmissionV1.receipt a.valid).mpr ?_
    exact fun p q s t hs ht heq => h.distinct p q s t hs ht (.inr heq)

/-! ### Trading keys -/

def Admission.KeysDistinct (a : Admission) : Prop :=
  ∀ p q s t, a.Member p s → a.Member q t →
    s.authorization.tradingKey = t.authorization.tradingKey → p = q

/-- A member is never replaced. -/
theorem Admission.member_foldl {p : Bytes32} {t : EncryptedSubmissionV1}
    (submissions : List EncryptedSubmissionV1) (h : a.Member p t) :
    (submissions.foldl (Admission.step host policy) a).Member p t := by
  induction submissions generalizing a with
  | nil => exact h
  | cons s submissions ih =>
    refine ih ?_
    rcases @Admission.step_cases host policy a s with
      ⟨-, heq⟩ | ⟨hnew, ⟨-, heq⟩ | ⟨-, heq⟩⟩ <;> rw [heq]
    · exact h
    · exact h
    · have hne : s.authorization.participantId ≠ p := by
        rintro rfl
        exact hnew (.inr (.inl h.mem))
      rw [Member, Map.getElem?_insert, if_neg hne]
      exact h

/-- The trading keys of the members stay distinct exactly as long as the keys are fresh. -/
theorem Admission.keysDistinct_foldl {participants keys : Finset Bytes32}
    (submissions : List EncryptedSubmissionV1) (h : a.KeysDistinct)
    (hparticipants : ∀ p, p ∈ participants ↔ p ∈ a.valid)
    (hkeys : ∀ k, k ∈ keys ↔ ∃ p t, a.Member p t ∧ t.authorization.tradingKey = k) :
    (submissions.foldl (Admission.step host policy) a).KeysDistinct ↔
      FreshKeys host policy participants a.nonces a.receipts keys submissions := by
  induction submissions generalizing a participants keys with
  | nil => exact ⟨fun _ => trivial, fun _ => h⟩
  | cons s submissions ih =>
    have hcond : (s.verifyAdmission host policy ≠ .ok () ∨
          s.authorization.participantId ∈ participants ∨ s.authorization.nonce ∈ a.nonces) ↔
        (s.verifyAdmission host policy ≠ .ok () ∨ s.authorization.participantId ∈ a.valid ∨
          s.authorization.nonce ∈ a.nonces) := by
      rw [hparticipants]
    rw [List.foldl_cons, FreshKeys, if_congr hcond rfl rfl]
    rcases @Admission.step_cases host policy a s with
      ⟨hold, heq⟩ | ⟨hnew, ⟨hreceipt, heq⟩ | ⟨hreceipt, heq⟩⟩ <;> rw [heq]
    · rw [if_pos hold]
      exact ih h hparticipants hkeys
    · rw [if_neg hnew, if_pos hreceipt]
      exact @ih { a with nonces := insert s.authorization.nonce a.nonces } _ _ h hparticipants hkeys
    · rw [if_neg hnew, if_neg hreceipt]
      set a' : Admission := ⟨a.valid.insert s.authorization.participantId s,
        insert s.authorization.nonce a.nonces, insert s.receipt a.receipts⟩
      have hself : a'.Member s.authorization.participantId s := by
        rw [Member, Map.getElem?_insert, if_pos rfl]
      have hfresh : ∀ {p t}, a.Member p t → p ≠ s.authorization.participantId := by
        rintro p t ht rfl
        exact hnew (.inr (.inl ht.mem))
      have hkept : ∀ {p t}, a.Member p t → a'.Member p t := by
        intro p t ht
        rw [Member, Map.getElem?_insert, if_neg (hfresh ht).symm]
        exact ht
      by_cases hkey : s.authorization.tradingKey ∈ keys
      · obtain ⟨p, t, ht, htk⟩ := (hkeys _).mp hkey
        refine iff_of_false (fun hdistinct => hfresh ht ?_) fun hfalse => hfalse.1 hkey
        exact hdistinct p _ t s (member_foldl submissions (hkept ht)) (member_foldl submissions hself)
          htk
      · rw [and_iff_right hkey]
        refine ih ?_ (fun p => ?_) fun k => ?_
        · intro p q t u ht hu htk
          rcases member_insert ht with ⟨rfl, rfl⟩ | ht <;>
            rcases member_insert hu with ⟨rfl, rfl⟩ | hu
          · rfl
          · exact absurd ((hkeys _).mpr ⟨q, u, hu, htk.symm⟩) hkey
          · exact absurd ((hkeys _).mpr ⟨p, t, ht, htk⟩) hkey
          · exact h p q t u ht hu htk
        · rw [Finset.mem_insert, Std.ExtTreeMap.mem_insert, compare_eq_iff_eq, hparticipants,
            eq_comm]
        · rw [Finset.mem_insert, hkeys]
          constructor
          · rintro (rfl | ⟨p, t, ht, htk⟩)
            · exact ⟨_, s, hself, rfl⟩
            · exact ⟨p, t, hkept ht, htk⟩
          · rintro ⟨p, t, ht, htk⟩
            rcases member_insert ht with ⟨rfl, rfl⟩ | ht
            · exact .inl htk.symm
            · exact .inr ⟨p, t, ht, htk⟩

end Loop

/-! ### The loop of a keyper -/

/-- The submissions verify, and no two share a participant, a nonce or a receipt. -/
structure Admissible (host : Host) (policy : AdmissionPolicyV1)
    (submissions : List EncryptedSubmissionV1) : Prop where
  verified : ∀ s ∈ submissions, s.verifyAdmission host policy = .ok ()
  participants : (submissions.map fun s => s.authorization.participantId).Nodup
  nonces : (submissions.map fun s => s.authorization.nonce).Nodup
  receipts : (submissions.map EncryptedSubmissionV1.receipt).Nodup

section Admissible

variable {host : Host} {policy : AdmissionPolicyV1} {s : EncryptedSubmissionV1}
  {submissions : List EncryptedSubmissionV1}

theorem admissible_cons : Admissible host policy (s :: submissions) ↔
    s.verifyAdmission host policy = .ok () ∧ Admissible host policy submissions ∧
      ∀ t ∈ submissions, t.authorization.participantId ≠ s.authorization.participantId ∧
        t.authorization.nonce ≠ s.authorization.nonce ∧ t.receipt ≠ s.receipt := by
  constructor
  · rintro ⟨hverified, hparticipants, hnonces, hreceipts⟩
    simp only [List.map_cons, List.nodup_cons, List.mem_map, not_exists, not_and] at *
    rw [List.forall_mem_cons] at hverified
    exact ⟨hverified.1, ⟨hverified.2, hparticipants.2, hnonces.2, hreceipts.2⟩, fun t ht =>
      ⟨hparticipants.1 t ht, hnonces.1 t ht, hreceipts.1 t ht⟩⟩
  · rintro ⟨hhead, ⟨hverified, hparticipants, hnonces, hreceipts⟩, hdiffer⟩
    refine ⟨List.forall_mem_cons.mpr ⟨hhead, hverified⟩, ?_, ?_, ?_⟩ <;>
      simp only [List.map_cons, List.nodup_cons, List.mem_map, not_exists, not_and]
    · exact ⟨fun t ht => (hdiffer t ht).1, hparticipants⟩
    · exact ⟨fun t ht => (hdiffer t ht).2.1, hnonces⟩
    · exact ⟨fun t ht => (hdiffer t ht).2.2, hreceipts⟩

theorem Admissible.perm {submissions' : List EncryptedSubmissionV1}
    (h : Admissible host policy submissions) (hperm : submissions.Perm submissions') :
    Admissible host policy submissions' where
  verified s hs := h.verified s (hperm.mem_iff.mpr hs)
  participants := (hperm.map _).nodup_iff.mp h.participants
  nonces := (hperm.map _).nodup_iff.mp h.nonces
  receipts := (hperm.map _).nodup_iff.mp h.receipts

/-- The loop of a keyper passes exactly what is admissible. -/
theorem checkMembers_iff {participants nonces receipts : Finset Bytes32} :
    checkMembers host policy participants nonces receipts submissions = .ok () ↔
      Admissible host policy submissions ∧ ∀ s ∈ submissions,
        s.authorization.participantId ∉ participants ∧ s.authorization.nonce ∉ nonces ∧
          s.receipt ∉ receipts := by
  induction submissions generalizing participants nonces receipts with
  | nil => simpa [checkMembers] using ⟨by simp, by simp, by simp, by simp⟩
  | cons s submissions ih =>
    simp only [checkMembers, bind_ok, Unique.exists_iff, mapError_eq_ok, rejectIf_eq_ok, ih,
      Finset.mem_insert, not_or, admissible_cons, List.forall_mem_cons]
    constructor
    · rintro ⟨hverified, hparticipant, hnonce, hreceipt, hrest, hnew⟩
      exact ⟨⟨hverified, hrest, fun t ht => ⟨(hnew t ht).1.1, (hnew t ht).2.1.1, (hnew t ht).2.2.1⟩⟩,
        ⟨hparticipant, hnonce, hreceipt⟩,
        fun t ht => ⟨(hnew t ht).1.2, (hnew t ht).2.1.2, (hnew t ht).2.2.2⟩⟩
    · rintro ⟨⟨hverified, hrest, hdiffer⟩, ⟨hparticipant, hnonce, hreceipt⟩, hnew⟩
      exact ⟨hverified, hparticipant, hnonce, hreceipt, hrest, fun t ht =>
        ⟨⟨(hdiffer t ht).1, (hnew t ht).1⟩, ⟨(hdiffer t ht).2.1, (hnew t ht).2.1⟩,
          (hdiffer t ht).2.2, (hnew t ht).2.2⟩⟩

end Admissible

/-- What is admitted, and what can be locked, is of distinct participants, nonces and receipts; its
trading keys are distinct exactly when those that are handed in are. -/
theorem members_distinct_iff (host : Host) :
    (∀ submissions policy batch, admitBatch host submissions policy = .ok batch →
      (DistinctMembers batch.members ↔ FreshKeys host policy ∅ ∅ ∅ ∅ submissions)) ∧
    ∀ (package : LockPackageV1 host) confirmed digest, package.validate confirmed = .ok digest →
      (DistinctMembers package.submissions ↔
        (package.submissions.map fun s => s.authorization.tradingKey).Nodup) := by
  constructor
  · intro submissions policy batch h
    simp only [admitBatch, bind_ok, Unique.exists_iff] at h
    cases h.2
    set a := submissions.foldl (Admission.step host policy) ⟨∅, ∅, ∅⟩
    have hinv : a.Inv := Admission.Inv.empty.foldl submissions
    have hkeys : a.KeysDistinct ↔ FreshKeys host policy ∅ ∅ ∅ ∅ submissions := by
      refine Admission.keysDistinct_foldl submissions (fun p q s t hs => ?_) (fun p => ?_) fun k => ?_
      · simp [Admission.Member] at hs
      · simp
      · simp [Admission.Member]
    rw [← hkeys]
    constructor
    · intro hdistinct
      have := hdistinct.tradingKeys
      rw [List.map_map] at this
      exact fun p q s t hs ht heq =>
        (Map.nodup_map_toList (fun s : EncryptedSubmissionV1 => s.authorization.tradingKey) a.valid).mp
          this p q s t hs ht heq
    · intro hdistinct
      obtain ⟨hparticipants, hnonces, hreceipts⟩ := hinv.nodup
      refine ⟨hparticipants, hnonces, hreceipts, ?_⟩
      rw [List.map_map]
      refine (Map.nodup_map_toList (fun s => s.authorization.tradingKey) a.valid).mpr ?_
      exact fun p q s t hs ht heq => hdistinct p q s t hs ht heq
  · intro package confirmed digest h
    simp only [LockPackageV1.validate, bind_ok, Unique.exists_iff] at h
    obtain ⟨-, -, -, -, -, hmembers, -⟩ := h
    have hadmissible := (checkMembers_iff.mp hmembers).1
    exact ⟨fun hdistinct => hdistinct.tradingKeys, fun hkeys =>
      ⟨hadmissible.participants, hadmissible.nonces, hadmissible.receipts, hkeys⟩⟩

theorem members_distinct_iff_sample : ∃ digest,
    (Sample.package [1, 2, 3, 4]).validate Sample.packageOpen = .ok digest ∧
      DistinctMembers (Sample.package [1, 2, 3, 4]).submissions := by
  have hvalidate :
      ((Sample.package [1, 2, 3, 4]).validate Sample.packageOpen).toOption.isSome = true := by
    decide +kernel
  obtain ⟨digest, hdigest⟩ := Option.isSome_iff_exists.mp hvalidate
  refine ⟨digest, eq_ok_of_toOption hdigest, ?_⟩
  have hkeys : ((Sample.package [1, 2, 3, 4]).submissions.map
      fun s => s.authorization.tradingKey).Nodup := by
    show [Sample.key 51, Sample.key 52, Sample.key 53, Sample.key 54].Nodup
    decide
  exact ((members_distinct_iff Sample.host).2 _ _ _ (eq_ok_of_toOption hdigest)).mpr hkeys

/-! ### One trading key for a whole crowd -/

namespace Sample

/-- The authorization of a member, for the trading key of the first. -/
def sharedAuthorization (member : UInt8) : FundedAuthorizationV1 :=
  let unsigned := { authorization member with tradingKey := key 51 }
  { unsigned with
    operatorSignature := signature operator
      (FundedAuthorizationV1.authorizationMessage unsigned.authorizationBytes) }

def sharedSubmission (member : UInt8) : EncryptedSubmissionV1 :=
  let ciphertext := (submission member).ciphertext
  let receipt := key (70 + member)
  { authorization := sharedAuthorization member
    ciphertext
    receipt
    outerSignature := signature (key 51) (EncryptedSubmissionV1.submissionMessage epochId
      ((sharedAuthorization member).hash host) (sha256 ciphertext) receipt) }

def sharedSubmissions : List EncryptedSubmissionV1 := [1, 2, 3, 4].map sharedSubmission

def sharedPackage : LockPackageV1 host :=
  { package [1, 2, 3, 4] with
    submissions := sharedSubmissions
    memberRoot := rootOf (memberRoot host ⟨line⟩ sharedSubmissions) }

end Sample

theorem shared_key_admitted : ∃ batch digest,
    admitBatch Sample.host Sample.sharedSubmissions Sample.packageOpen.policy = .ok batch ∧
    batch.members.map (fun s => s.authorization.tradingKey) = List.replicate 4 (Sample.key 51) ∧
    Sample.host.fetchConfirmedOpenEpoch (Sample.rpc Sample.openChain) Sample.epoch =
      .ok Sample.packageOpen ∧
    Sample.sharedPackage.validate Sample.packageOpen = .ok digest ∧
    Sample.sharedPackage.submissions.map (fun s => s.authorization.tradingKey) =
      List.replicate 4 (Sample.key 51) := by
  have hboth : (admitBatch Sample.host Sample.sharedSubmissions
        Sample.packageOpen.policy).toOption.map (fun batch =>
          batch.members.map fun s => s.authorization.tradingKey) =
        some (List.replicate 4 (Sample.key 51)) ∧
      (Sample.sharedPackage.validate Sample.packageOpen).toOption.isSome = true := by
    decide +kernel
  obtain ⟨hbatch, hpackage⟩ := hboth
  obtain ⟨batch, hok, hkeys⟩ := Option.map_eq_some_iff.mp hbatch
  obtain ⟨digest, hdigest⟩ := Option.isSome_iff_exists.mp hpackage
  exact ⟨batch, digest, eq_ok_of_toOption hok, hkeys, Sample.fetch_packageOpen,
    eq_ok_of_toOption hdigest, rfl⟩

end Kageb
