import Kageb.Host.Frozen
import Kageb.Host.Funding

/-! Whose order a ciphertext holds. `recompute` looks up the submission of each recovered intent by
the participant that the intent names, and passes the same participant to `SignedIntentV1.verify`.
So every order is signed for the member that it names, but nothing ties it to the submission that
carried it. -/

namespace Kageb

open Maps Checks

/-- The order names the participant of the submission, and the trading key that was authorized
there signed it. -/
def EncryptedSubmissionV1.Authored (host : Host) (s : EncryptedSubmissionV1)
    (intent : SignedIntentV1) : Prop :=
  intent.body.participantId = s.authorization.participantId ∧
    host.verify s.authorization.tradingKey (SignedIntentV1.intentMessage intent.body.encode)
      intent.signature = true

theorem byParticipant_getElem {members members' : Map Bytes32 EncryptedSubmissionV1}
    {submissions : List EncryptedSubmissionV1} (h : byParticipant members submissions = .ok members')
    {p : Bytes32} {s : EncryptedSubmissionV1} : members'[p]? = some s ↔
      members[p]? = some s ∨ s ∈ submissions ∧ s.authorization.participantId = p := by
  induction submissions generalizing members with
  | nil =>
    cases h
    simp
  | cons first submissions ih =>
    simp only [byParticipant, bind_ok, Unique.exists_iff, rejectIf_eq_ok] at h
    rw [ih h.2, Std.ExtTreeMap.getElem?_insert, List.mem_cons]
    by_cases hp : first.authorization.participantId = p
    · have hnone : members[p]? = none := Std.ExtTreeMap.getElem?_eq_none (hp ▸ h.1)
      rw [if_pos (compare_eq_iff_eq.mpr hp), hnone, Option.some.injEq]
      constructor
      · rintro (rfl | hs)
        · exact .inr ⟨.inl rfl, hp⟩
        · exact .inr ⟨.inr hs.1, hs.2⟩
      · rintro (hs | ⟨rfl | hs, hs'⟩)
        · cases hs
        · exact .inl rfl
        · exact .inr ⟨hs, hs'⟩
    · rw [if_neg (mt compare_eq_iff_eq.mp hp)]
      constructor
      · exact Or.imp_right fun hs => ⟨.inr hs.1, hs.2⟩
      · refine Or.imp_right ?_
        rintro ⟨rfl | hs, hs'⟩
        · exact absurd hs' hp
        · exact ⟨hs, hs'⟩

theorem collectOrders_verified {host : Host} {epochId : Bytes32}
    {submissions : Map Bytes32 EncryptedSubmissionV1} {seen : Finset Bytes32}
    {recovered : List SignedIntentV1} {orders : List FundedOrder}
    (h : collectOrders host epochId submissions seen recovered = .ok orders) :
    ∀ intent ∈ recovered, ∃ s, submissions[intent.body.participantId]? = some s ∧
      host.verify s.authorization.tradingKey (SignedIntentV1.intentMessage intent.body.encode)
        intent.signature = true := by
  induction recovered generalizing seen orders with
  | nil => simp
  | cons intent recovered ih =>
    simp only [collectOrders, SignedIntentV1.verify, bind_ok, Unique.exists_iff, okOr_eq_ok,
      rejectIf_eq_ok, mapError_eq_ok, Bool.not_eq_false] at h
    obtain ⟨s, hs, -, -, ⟨-, -, hverify⟩, -, -, rest, hrest, -⟩ := h
    exact List.forall_mem_cons.mpr ⟨⟨s, hs, hverify⟩, ih hrest⟩

section Recompute

variable {host : Host} {package : LockPackageV1 host} {evidence : List (DecryptionEvidenceV1 host)}
  {settlementNonce : Bytes32} {confirmed : ConfirmedLock} {r : RecomputedSettlement}

/-- Each ciphertext opens to the order of the one member that it names. -/
theorem recompute_authored (h : recompute package evidence settlementNonce confirmed = .ok r)
    {i : Nat} {s : EncryptedSubmissionV1} {ev : DecryptionEvidenceV1 host}
    (hs : package.submissions[i]? = some s) (hev : evidence[i]? = some ev) :
    ∃ intent, package.epochPublicKeys.recoverSubmission s ev.shares = .ok intent ∧
      ∃ own ∈ package.submissions, own.Authored host intent ∧
        ∀ s' ∈ package.submissions,
          s'.authorization.participantId = intent.body.participantId → s' = own := by
  simp only [recompute, bind_ok, Unique.exists_iff, mapError_eq_ok, rejectIf_eq_ok] at h
  obtain ⟨-, -, -, -, recovered, hrecovered, submissions, hsubmissions, orders, horders, -⟩ := h
  have hzip : (s, ev) ∈ package.submissions.zip evidence :=
    List.mem_of_getElem? (List.getElem?_zip_eq_some.mpr ⟨hs, hev⟩)
  obtain ⟨intent, hintent, hmember⟩ := mem_of_mapM_ok hrecovered hzip
  simp only [recoverMember, bind_ok, Unique.exists_iff, mapError_eq_ok] at hmember
  obtain ⟨own, hown, hverify⟩ := collectOrders_verified horders intent hintent
  obtain ⟨hmem, hparticipant⟩ :=
    ((byParticipant_getElem hsubmissions).mp hown).resolve_left (by simp)
  refine ⟨intent, hmember.2, own, hmem, ⟨hparticipant.symm, hverify⟩, fun s' hs' heq => ?_⟩
  have hs' := (byParticipant_getElem hsubmissions).mpr (.inr ⟨hs', heq⟩)
  exact Option.some.inj (hs'.symm.trans hown)

end Recompute

/-- In a settlement that is recomputed, each submission carries its own member's order exactly when
no ciphertext opens to an order that names another participant. -/
theorem order_sealed_iff {host : Host} {package : LockPackageV1 host}
    {evidence : List (DecryptionEvidenceV1 host)} {settlementNonce : Bytes32}
    {confirmed : ConfirmedLock} {r : RecomputedSettlement}
    (h : recompute package evidence settlementNonce confirmed = .ok r) :
    (∀ (i : Nat) s (ev : DecryptionEvidenceV1 host),
        package.submissions[i]? = some s → evidence[i]? = some ev →
        ∃ intent, package.epochPublicKeys.recoverSubmission s ev.shares = .ok intent ∧
          s.Authored host intent) ↔
      ∀ (i : Nat) s (ev : DecryptionEvidenceV1 host),
        package.submissions[i]? = some s → evidence[i]? = some ev →
        ∀ intent, package.epochPublicKeys.recoverSubmission s ev.shares = .ok intent →
          intent.body.participantId = s.authorization.participantId := by
  constructor
  · intro hall i s ev hs hev intent hrecover
    obtain ⟨intent', hrecover', hauthored⟩ := hall i s ev hs hev
    cases hrecover.symm.trans hrecover'
    exact hauthored.1
  · intro hnames i s ev hs hev
    obtain ⟨intent, hrecover, own, -, hauthored, honly⟩ := recompute_authored h hs hev
    have hown : s = own :=
      honly s (List.mem_of_getElem? hs) (hnames i s ev hs hev intent hrecover).symm
    exact ⟨intent, hrecover, hown ▸ hauthored⟩

namespace Sample

/-- The first two members seal each other's orders. -/
def swappedPackage : LockPackageV1 host :=
  resealedPackage fun member => if member = 1 then 2 else if member = 2 then 1 else member

def swappedChain : Chain :=
  rt.execute (approvedTx swappedPackage.lockPayload) openChain lockAccounts
    (KagebInstruction.lock swappedPackage.lockPayload).encode

/-- The shares of two keypers of each ciphertext of a package. -/
def evidenceOf (package : LockPackageV1 host) : List (DecryptionEvidenceV1 host) :=
  let digest := package.lockPayload.digest sha256
  package.submissions.filterMap fun s => do
    let a ← ((secretShare 0).release epoch digest s.ciphertext).toOption
    let b ← ((secretShare 1).release epoch digest s.ciphertext).toOption
    (DecryptionEvidenceV1.new a b).toOption

/-- Whose order the submission at `i` carries in a settlement that is recomputed, and who sent
it. -/
def sealedAt (c : Chain) (package : LockPackageV1 host) (evidence : List (DecryptionEvidenceV1 host))
    (i : Nat) : Option (Bytes32 × Bytes32) := do
  let lock ← (host.fetchConfirmedLock (rpc c) epoch).toOption
  let _ ← (recompute package evidence (key 90) lock).toOption
  let s ← package.submissions[i]?
  let ev ← evidence[i]?
  let intent ← (package.epochPublicKeys.recoverSubmission s ev.shares).toOption
  some (intent.body.participantId, s.authorization.participantId)

theorem sealedAt_eq_some {c : Chain} {package : LockPackageV1 host}
    {evidence : List (DecryptionEvidenceV1 host)} {i : Nat} {author sender : Bytes32}
    (h : sealedAt c package evidence i = some (author, sender)) :
    ∃ lock r s ev intent, host.fetchConfirmedLock (rpc c) epoch = .ok lock ∧
      recompute package evidence (key 90) lock = .ok r ∧ package.submissions[i]? = some s ∧
      evidence[i]? = some ev ∧
      package.epochPublicKeys.recoverSubmission s ev.shares = .ok intent ∧
      intent.body.participantId = author ∧ s.authorization.participantId = sender := by
  simp only [sealedAt, Option.bind_eq_bind, Option.bind_eq_some_iff, Option.some.injEq,
    Prod.mk.injEq] at h
  obtain ⟨lock, hlock, r, hr, s, hs, ev, hev, intent, hintent, hauthor, hsender⟩ := h
  exact ⟨lock, r, s, ev, intent, eq_ok_of_toOption hlock, eq_ok_of_toOption hr, hs, hev,
    eq_ok_of_toOption hintent, hauthor, hsender⟩

def ownOrders (package : LockPackageV1 host) (evidence : List (DecryptionEvidenceV1 host)) : Bool :=
  (package.submissions.zip evidence).all fun member =>
    match package.epochPublicKeys.recoverSubmission member.1 member.2.shares with
    | .ok intent => intent.body.participantId = member.1.authorization.participantId
    | .error _ => true

theorem names_of_ownOrders {package : LockPackageV1 host}
    {evidence : List (DecryptionEvidenceV1 host)} (h : ownOrders package evidence = true) {i : Nat}
    {s : EncryptedSubmissionV1} {ev : DecryptionEvidenceV1 host}
    (hs : package.submissions[i]? = some s) (hev : evidence[i]? = some ev) {intent : SignedIntentV1}
    (hintent : package.epochPublicKeys.recoverSubmission s ev.shares = .ok intent) :
    intent.body.participantId = s.authorization.participantId := by
  have hzip : (s, ev) ∈ package.submissions.zip evidence :=
    List.mem_of_getElem? (List.getElem?_zip_eq_some.mpr ⟨hs, hev⟩)
  have hown := List.all_eq_true.mp h _ hzip
  rw [hintent] at hown
  exact of_decide_eq_true hown

/-- Whose orders the two sample settlements carry, evaluated once. -/
theorem sealed_facts :
    sealedAt swappedChain swappedPackage (evidenceOf swappedPackage) 0 = some (key 42, key 41) ∧
    ownOrders request.package request.decryptionEvidence = true := by
  decide +kernel

end Sample

/-- The settlement of the first two members' swapped orders is recomputed, and the order in the
first submission is the second member's. -/
theorem swapped_orders_recomputed : ∃ lock r s ev intent,
    Sample.host.fetchConfirmedLock (Sample.rpc Sample.swappedChain) Sample.epoch = .ok lock ∧
      recompute Sample.swappedPackage (Sample.evidenceOf Sample.swappedPackage) (Sample.key 90)
        lock = .ok r ∧
      Sample.swappedPackage.submissions[0]? = some s ∧
      (Sample.evidenceOf Sample.swappedPackage)[0]? = some ev ∧
      Sample.swappedPackage.epochPublicKeys.recoverSubmission s ev.shares = .ok intent ∧
      intent.body.participantId = Sample.key 42 ∧ s.authorization.participantId = Sample.key 41 :=
  Sample.sealedAt_eq_some Sample.sealed_facts.1

/-- In the sample settlement each member sealed its own order. -/
theorem order_sealed_iff_sample : ∃ r, Sample.recomputed = .ok r ∧
    ∀ (i : Nat) s (ev : DecryptionEvidenceV1 Sample.host),
      Sample.request.package.submissions[i]? = some s →
      Sample.request.decryptionEvidence[i]? = some ev →
      ∃ intent, Sample.request.package.epochPublicKeys.recoverSubmission s ev.shares =
          .ok intent ∧ s.Authored Sample.host intent := by
  obtain ⟨r, hr, -⟩ := Option.map_eq_some_iff.mp Sample.recomputed_residual
  have hok : Sample.recomputed = .ok r := eq_ok_of_toOption hr
  refine ⟨r, hok, (order_sealed_iff hok).mpr ?_⟩
  exact fun i s ev hs hev intent hintent => Sample.names_of_ownOrders Sample.sealed_facts.2 hs hev
    hintent

end Kageb
