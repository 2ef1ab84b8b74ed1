import Kageb.Host.Reference

/-! What the roots of a package say: two member roots are equal exactly for the same key set and the
same set of submissions, two balance roots exactly for the same set of balances. -/

namespace Kageb

open Binary Binary.Codec Checks Maps

variable {host : Host}

/-- What is hashed for the roots of two sets has no collision. -/
def NoCollision (host : Host) (messages messages' : List Bytes) : Prop :=
  Set.InjOn host.sha256 {m | m ∈ messages ∨ m ∈ messages'}

theorem mem_map_committed_iff {x : EncryptedSubmissionV1}
    {submissions : List EncryptedSubmissionV1} :
    x.commitmentBytes host ∈ submissions.map (EncryptedSubmissionV1.commitmentBytes host) ↔
      x.committed host ∈ submissions.map (EncryptedSubmissionV1.committed host) := by
  simp only [List.mem_map, EncryptedSubmissionV1.commitmentBytes_eq_iff]

/-- The leaves of two sets of submissions are the same exactly when the submissions are. -/
theorem map_commitmentBytes_iff {submissions submissions' : List EncryptedSubmissionV1} :
    (∀ leaf, leaf ∈ submissions.map (EncryptedSubmissionV1.commitmentBytes host) ↔
      leaf ∈ submissions'.map (EncryptedSubmissionV1.commitmentBytes host)) ↔
    ∀ c, c ∈ submissions.map (EncryptedSubmissionV1.committed host) ↔
      c ∈ submissions'.map (EncryptedSubmissionV1.committed host) := by
  constructor <;> intro h c <;> constructor <;> intro hc <;> obtain ⟨x, hx, rfl⟩ := List.mem_map.mp hc
  · exact mem_map_committed_iff.mp ((h _).mp (List.mem_map_of_mem hx))
  · exact mem_map_committed_iff.mp ((h _).mpr (List.mem_map_of_mem hx))
  · exact mem_map_committed_iff.mpr ((h _).mp (List.mem_map_of_mem hx))
  · exact mem_map_committed_iff.mpr ((h _).mpr (List.mem_map_of_mem hx))

theorem memberRoot_eq_iff (keys : host.KeysDetermined) {k k' : EpochPublicKeys host}
    {submissions submissions' : List EncryptedSubmissionV1} {root root' : Bytes32}
    (hversion : ∀ x ∈ submissions, x.authorization.version = authorizationVersion)
    (hversion' : ∀ x ∈ submissions', x.authorization.version = authorizationVersion)
    (hinj : NoCollision host (memberMessages host k submissions)
      (memberMessages host k' submissions'))
    (h : memberRoot host k submissions = .ok root)
    (h' : memberRoot host k' submissions' = .ok root') :
    root = root' ↔ k = k' ∧ ∀ c, c ∈ submissions.map (EncryptedSubmissionV1.committed host) ↔
      c ∈ submissions'.map (EncryptedSubmissionV1.committed host) := by
  obtain ⟨encoded, hencoded, hroot, hmessages⟩ := memberRoot_ok h
  obtain ⟨encoded', hencoded', hroot', hmessages'⟩ := memberRoot_ok h'
  rw [NoCollision, hmessages, hmessages'] at hinj
  rw [contentRoot_eq_iff hinj (fun m hm => .inl hm) (fun m hm => .inr hm) hroot hroot',
    ← map_commitmentBytes_iff, and_iff_right rfl]
  -- no leaf of a submission is a key set
  have hkeySet : ∀ {subs : List EncryptedSubmissionV1} {e : Bytes},
      (∀ x ∈ subs, x.authorization.version = authorizationVersion) →
      epochKeySetDomain ++ e ∉ subs.map (EncryptedSubmissionV1.commitmentBytes host) := by
    intro subs e hsubs hmem
    obtain ⟨x, hx, heq⟩ := List.mem_map.mp hmem
    exact EncryptedSubmissionV1.commitmentBytes_ne_keySet (hsubs x hx) e heq
  constructor
  · intro hleaves
    have hencodings : epochKeySetDomain ++ encoded = epochKeySetDomain ++ encoded' :=
      (List.mem_cons.mp ((hleaves _).mp List.mem_cons_self)).resolve_right (hkeySet hversion')
    have hk : k = k' := by
      cases k
      cases k'
      rw [List.append_cancel_left hencodings] at hencoded
      exact congrArg EpochPublicKeys.mk (keys _ _ _ hencoded hencoded')
    refine ⟨hk, fun leaf => ⟨fun hleaf => ?_, fun hleaf => ?_⟩⟩
    · refine (List.mem_cons.mp ((hleaves leaf).mp (List.mem_cons_of_mem _ hleaf))).resolve_left ?_
      rintro rfl
      exact hkeySet hversion hleaf
    · refine (List.mem_cons.mp ((hleaves leaf).mpr (List.mem_cons_of_mem _ hleaf))).resolve_left ?_
      rintro rfl
      exact hkeySet hversion' hleaf
  · rintro ⟨rfl, hleaves⟩ leaf
    cases hencoded.symm.trans hencoded'
    rw [List.mem_cons, List.mem_cons, hleaves]

theorem balanceRoot_eq_iff {records records' : List BalanceRecordV1} {root root' : Bytes32}
    (hinj : NoCollision host
      (contentMessages host.sha256 .balanceSet (records.map BalanceRecordV1.encode))
      (contentMessages host.sha256 .balanceSet (records'.map BalanceRecordV1.encode)))
    (h : balanceRoot host records = .ok root) (h' : balanceRoot host records' = .ok root') :
    root = root' ↔ ∀ record, record ∈ records ↔ record ∈ records' := by
  rw [contentRoot_eq_iff hinj (fun m hm => .inl hm) (fun m hm => .inr hm) (mapError_eq_ok.mp h)
    (mapError_eq_ok.mp h'), and_iff_right rfl]
  constructor
  · intro hleaves record
    rw [← List.mem_map_of_injective BalanceRecordV1.encode_injective, hleaves,
      List.mem_map_of_injective BalanceRecordV1.encode_injective]
  · intro hrecords leaf
    simp only [List.mem_map, hrecords]

/-- A root is that of a set: the order of the leaves does not matter, equal leaves are refused, and
two roots are equal exactly for one domain and one set of leaves. -/
theorem roots_bind (host : Host) :
    (∀ domain leaves leaves', leaves.Perm leaves' →
      contentRoot host.sha256 domain leaves = contentRoot host.sha256 domain leaves') ∧
    (∀ domain leaves, Set.InjOn host.sha256 {m | m ∈ contentMessages host.sha256 domain leaves} →
      (contentRoot host.sha256 domain leaves = .error .duplicateLeaf ↔ ¬leaves.Nodup)) ∧
    (∀ domain domain' leaves leaves' root root',
      NoCollision host (contentMessages host.sha256 domain leaves)
        (contentMessages host.sha256 domain' leaves') →
      contentRoot host.sha256 domain leaves = .ok root →
      contentRoot host.sha256 domain' leaves' = .ok root' →
      (root = root' ↔ domain = domain' ∧ ∀ leaf, leaf ∈ leaves ↔ leaf ∈ leaves')) ∧
    (host.KeysDetermined → ∀ (k k' : EpochPublicKeys host) submissions submissions' root root',
      (∀ x ∈ submissions ++ submissions', x.authorization.version = authorizationVersion) →
      NoCollision host (memberMessages host k submissions) (memberMessages host k' submissions') →
      memberRoot host k submissions = .ok root → memberRoot host k' submissions' = .ok root' →
      (root = root' ↔ k = k' ∧ ∀ c, c ∈ submissions.map (EncryptedSubmissionV1.committed host) ↔
        c ∈ submissions'.map (EncryptedSubmissionV1.committed host))) ∧
    ∀ records records' root root',
      NoCollision host
        (contentMessages host.sha256 .balanceSet (records.map BalanceRecordV1.encode))
        (contentMessages host.sha256 .balanceSet (records'.map BalanceRecordV1.encode)) →
      balanceRoot host records = .ok root → balanceRoot host records' = .ok root' →
      (root = root' ↔ ∀ record, record ∈ records ↔ record ∈ records') := by
  refine ⟨fun domain leaves leaves' h => contentRoot_of_perm h, ?_, ?_, ?_, ?_⟩
  · intro domain leaves hinj
    exact contentRoot_error_iff hinj fun leaf hleaf =>
      List.mem_cons_of_mem _ (List.mem_map_of_mem hleaf)
  · intro domain domain' leaves leaves' root root' hinj h h'
    exact contentRoot_eq_iff hinj (fun m hm => .inl hm) (fun m hm => .inr hm) h h'
  · intro keys k k' submissions submissions' root root' hversion hinj h h'
    rw [List.forall_mem_append] at hversion
    exact memberRoot_eq_iff keys hversion.1 hversion.2 hinj h h'
  · intro records records' root root' hinj h h'
    exact balanceRoot_eq_iff hinj h h'

/-- The members and the balances in either order, other leaves, and a leaf that is there twice. -/
theorem roots_bind_sample : ∃ member member' balance balance' result result',
    memberRoot Sample.host ⟨Sample.line⟩ (Sample.package [1, 2, 3, 4]).submissions = .ok member ∧
    memberRoot Sample.host ⟨Sample.line⟩ (Sample.package [4, 3, 2, 1]).submissions = .ok member' ∧
    member = member' ∧
    balanceRoot Sample.host (Sample.package [1, 2, 3, 4]).balances = .ok balance ∧
    balanceRoot Sample.host (Sample.package [4, 3, 2, 1]).balances = .ok balance' ∧
    balance = balance' ∧
    contentRoot Sample.sha256 .resultSet [[1], [2]] = .ok result ∧
    contentRoot Sample.sha256 .resultSet [[1], [3]] = .ok result' ∧ result ≠ result' ∧
    contentRoot Sample.sha256 .resultSet [[1], [2], [1]] = .error .duplicateLeaf := by
  obtain ⟨-, hduplicate, hcontent, hmembers, hbalances⟩ := roots_bind Sample.host
  have hroots :
      (memberRoot Sample.host ⟨Sample.line⟩
        (Sample.package [1, 2, 3, 4]).submissions).toOption.isSome ∧
      (memberRoot Sample.host ⟨Sample.line⟩
        (Sample.package [4, 3, 2, 1]).submissions).toOption.isSome ∧
      (balanceRoot Sample.host (Sample.package [1, 2, 3, 4]).balances).toOption.isSome ∧
      (balanceRoot Sample.host (Sample.package [4, 3, 2, 1]).balances).toOption.isSome ∧
      (contentRoot Sample.sha256 .resultSet [[1], [2]]).toOption.isSome ∧
      (contentRoot Sample.sha256 .resultSet [[1], [3]]).toOption.isSome := by
    decide +kernel
  obtain ⟨h1, h2, h3, h4, h5, h6⟩ := hroots
  have hmember := eq_ok_of_isSome zero32 h1
  have hmember' := eq_ok_of_isSome zero32 h2
  have hbalance := eq_ok_of_isSome zero32 h3
  have hbalance' := eq_ok_of_isSome zero32 h4
  have hresult := eq_ok_of_isSome zero32 h5
  have hresult' := eq_ok_of_isSome zero32 h6
  have hreordered : ([1, 2, 3, 4] : List UInt8).Perm [4, 3, 2, 1] := List.reverse_perm [4, 3, 2, 1]
  refine ⟨_, _, _, _, _, _, hmember, hmember', ?_, hbalance, hbalance', ?_, hresult, hresult', ?_, ?_⟩
  · refine (hmembers Sample.host_keysDetermined _ _ _ _ _ _ ?_ ?_ hmember hmember').mpr ⟨rfl, ?_⟩
    · decide +kernel
    · refine Sample.package_injOn.mono fun m hm => hm.imp (fun hm => ?_) fun hm => ?_ <;>
        exact List.mem_cons_of_mem _ (List.mem_append_left _ (List.mem_append_left _ hm))
    · exact fun c => ((hreordered.map Sample.submission).map _).mem_iff
  · refine (hbalances _ _ _ _ ?_ hbalance hbalance').mpr fun record =>
      (hreordered.filterMap fun member => (Sample.balance member).toOption).mem_iff
    refine Sample.package_injOn.mono fun m hm => hm.imp (fun hm => ?_) fun hm => ?_ <;>
      exact List.mem_cons_of_mem _ (List.mem_append_right _ hm)
  · have hdistinct : ∀ x ∈ contentMessages Sample.sha256 .resultSet [[1], [2]] ++
        contentMessages Sample.sha256 .resultSet [[1], [3]],
        ∀ y ∈ contentMessages Sample.sha256 .resultSet [[1], [2]] ++
          contentMessages Sample.sha256 .resultSet [[1], [3]],
        Sample.sha256 x = Sample.sha256 y → x = y := by decide +kernel
    have hclean : NoCollision Sample.host (contentMessages Sample.sha256 .resultSet [[1], [2]])
        (contentMessages Sample.sha256 .resultSet [[1], [3]]) := fun x hx y hy heq =>
      hdistinct x (List.mem_append.mpr hx) y (List.mem_append.mpr hy) heq
    intro heq
    have hsame := ((hcontent _ _ _ _ _ _ hclean hresult hresult').mp heq).2 [2]
    revert hsame
    decide
  · have hdistinct : ∀ x ∈ contentMessages Sample.sha256 .resultSet [[1], [2], [1]],
        ∀ y ∈ contentMessages Sample.sha256 .resultSet [[1], [2], [1]],
        Sample.sha256 x = Sample.sha256 y → x = y := by decide +kernel
    exact (hduplicate .resultSet [[1], [2], [1]] fun x hx y hy heq => hdistinct x hx y hy heq).mpr
      (by decide)

end Kageb
