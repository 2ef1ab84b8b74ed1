import Kageb.Lib.Checks
import Kageb.Program.Wire

/-! The root of an unordered set of byte strings, and what it binds: two sets with one root are the
same, when the hash has no collision on what it is given. -/

namespace Kageb

open Binary Binary.Codec Checks

/-- `LEAF_TAG`, the bytes of `KAGEB_LEAF_V1\0`. -/
def leafTag : Bytes := [75, 65, 71, 69, 66, 95, 76, 69, 65, 70, 95, 86, 49, 0]

/-- `ROOT_TAG`, the bytes of `KAGEB_ROOT_V1\0`. -/
def rootTag : Bytes := [75, 65, 71, 69, 66, 95, 82, 79, 79, 84, 95, 86, 49, 0]

inductive CommitmentDomain where
  | balanceSet
  | memberSet
  | resultSet
  deriving DecidableEq

/-- The bytes of `KAGEB_BALANCE_SET_V1\0`, `KAGEB_MEMBER_SET_V1\0` and `KAGEB_RESULT_SET_V1\0`. -/
def CommitmentDomain.tag : CommitmentDomain → Bytes
  | balanceSet =>
    [75, 65, 71, 69, 66, 95, 66, 65, 76, 65, 78, 67, 69, 95, 83, 69, 84, 95, 86, 49, 0]
  | memberSet => [75, 65, 71, 69, 66, 95, 77, 69, 77, 66, 69, 82, 95, 83, 69, 84, 95, 86, 49, 0]
  | resultSet => [75, 65, 71, 69, 66, 95, 82, 69, 83, 85, 76, 84, 95, 83, 69, 84, 95, 86, 49, 0]

inductive CommitmentError where
  | duplicateLeaf
  deriving DecidableEq

def leafMessage (domain : CommitmentDomain) (leaf : Bytes) : Bytes :=
  leafTag ++ leBytes 8 domain.tag.length ++ domain.tag ++ leBytes 8 leaf.length ++ leaf

def rootMessage (domain : CommitmentDomain) (leafHashes : List Bytes32) : Bytes :=
  rootTag ++ leBytes 8 domain.tag.length ++ domain.tag ++ leBytes 8 leafHashes.length ++
    leafHashes.flatMap ByteVec.bytes

def sortedHashes (sha256 : Bytes → Bytes32) (messages : List Bytes) : List Bytes32 :=
  (messages.map sha256).insertionSort (· ≤ ·)

def contentRoot (sha256 : Bytes → Bytes32) (domain : CommitmentDomain) (leaves : List Bytes) :
    Except CommitmentError Bytes32 := do
  let leafHashes := sortedHashes sha256 (leaves.map (leafMessage domain))
  rejectIf (∃ pair ∈ leafHashes.zip leafHashes.tail, pair.1 = pair.2) .duplicateLeaf
  .ok (sha256 (rootMessage domain leafHashes))

/-- What is hashed to compute the root of `leaves`. -/
def contentMessages (sha256 : Bytes → Bytes32) (domain : CommitmentDomain) (leaves : List Bytes) :
    List Bytes :=
  rootMessage domain (sortedHashes sha256 (leaves.map (leafMessage domain))) ::
    leaves.map (leafMessage domain)

theorem leafMessage_injective (domain : CommitmentDomain) :
    Function.Injective (leafMessage domain) := by
  intro leaf leaf' h
  exact List.append_inj_right h (by simp)

theorem rootMessage_injective (domain : CommitmentDomain) :
    Function.Injective (rootMessage domain) := by
  intro hashes hashes' h
  exact (array_width 32).flatMap_injective (by decide) (List.append_inj_right h (by simp))

theorem sortedHashes_perm (sha256 : Bytes → Bytes32) (messages : List Bytes) :
    (sortedHashes sha256 messages).Perm (messages.map sha256) :=
  List.perm_insertionSort _ _

/-- Sorting forgets the order, and nothing else. -/
theorem sortedHashes_eq_iff {sha256 : Bytes → Bytes32} {messages messages' : List Bytes} :
    sortedHashes sha256 messages = sortedHashes sha256 messages' ↔
      (messages.map sha256).Perm (messages'.map sha256) := by
  constructor
  · intro h
    have hperm := sortedHashes_perm sha256 messages
    rw [h] at hperm
    exact hperm.symm.trans (sortedHashes_perm sha256 messages')
  · intro h
    apply List.Perm.eq_of_pairwise (fun _ _ _ _ => le_antisymm)
      (List.pairwise_insertionSort _ _) (List.pairwise_insertionSort _ _)
    exact (sortedHashes_perm sha256 messages).trans
      (h.trans (sortedHashes_perm sha256 messages').symm)

/-- A function that is injective on the members of two lists tells whether they have the same
members, as often. -/
theorem perm_of_map_perm {α β : Type} {f : α → β} {s : Set α} (hf : Set.InjOn f s)
    {as bs : List α} (has : ∀ a ∈ as, a ∈ s) (hbs : ∀ b ∈ bs, b ∈ s)
    (h : (as.map f).Perm (bs.map f)) : as.Perm bs := by
  refine List.rel_perm_imp (r := fun y x => x ∈ s ∧ f x = y) ?_ ?_ ?_ h
  · rintro y x x' ⟨hx, rfl⟩ ⟨hx', heq⟩
    exact hf hx hx' heq.symm
  · rw [List.forall₂_map_left_iff]
    exact List.forall₂_same.mpr fun a ha => ⟨has a ha, rfl⟩
  · rw [List.forall₂_map_left_iff]
    exact List.forall₂_same.mpr fun b hb => ⟨hbs b hb, rfl⟩

theorem contentRoot_ok {sha256 : Bytes → Bytes32} {domain : CommitmentDomain}
    {leaves : List Bytes} {root : Bytes32} (h : contentRoot sha256 domain leaves = .ok root) :
    root = sha256 (rootMessage domain (sortedHashes sha256 (leaves.map (leafMessage domain)))) := by
  simp only [contentRoot, rejectIf_bind_ok] at h
  exact (Except.ok.inj h.2).symm

/-- A root binds its leaves. -/
theorem contentRoot_perm {sha256 : Bytes → Bytes32} {domain : CommitmentDomain}
    {leaves leaves' : List Bytes} {root : Bytes32} {s : Set Bytes} (hinj : Set.InjOn sha256 s)
    (hmem : ∀ m ∈ contentMessages sha256 domain leaves, m ∈ s)
    (hmem' : ∀ m ∈ contentMessages sha256 domain leaves', m ∈ s)
    (h : contentRoot sha256 domain leaves = .ok root)
    (h' : contentRoot sha256 domain leaves' = .ok root) : leaves.Perm leaves' := by
  simp only [contentMessages, List.forall_mem_cons] at hmem hmem'
  have hroot := (contentRoot_ok h).symm.trans (contentRoot_ok h')
  have hhashes := sortedHashes_eq_iff.mp
    (rootMessage_injective domain (hinj hmem.1 hmem'.1 hroot))
  have hmessages := perm_of_map_perm hinj hmem.2 hmem'.2 hhashes
  exact perm_of_map_perm (leafMessage_injective domain).injOn (s := Set.univ) (by simp) (by simp)
    hmessages

/-! ### When two roots are equal -/

/-- In a sorted list, equal members are neighbours. -/
theorem exists_neighbours_iff {α : Type} [LinearOrder α] {l : List α} (h : l.Pairwise (· ≤ ·)) :
    (∃ pair ∈ l.zip l.tail, pair.1 = pair.2) ↔ ¬l.Nodup := by
  induction l with
  | nil => simp
  | cons a l ih =>
    cases l with
    | nil => simp
    | cons b l =>
      obtain ⟨hhead, htail⟩ := List.pairwise_cons.mp h
      -- whatever equals the first member lies between it and the second
      have hmem : a ∈ b :: l ↔ a = b := by
        constructor
        · intro ha
          rcases List.mem_cons.mp ha with heq | ha
          · exact heq
          · exact le_antisymm (hhead b List.mem_cons_self) ((List.pairwise_cons.mp htail).1 a ha)
        · rintro rfl
          exact List.mem_cons_self
      rw [List.tail_cons, List.zip_cons_cons, List.exists_mem_cons_iff, List.nodup_cons, hmem]
      rw [List.tail_cons] at ih
      rw [ih htail]
      tauto

/-- The length of the first tag, and the seventh byte of it, tell the domains apart. -/
theorem rootMessage_domain {domain domain' : CommitmentDomain} {hashes hashes' : List Bytes32}
    (h : rootMessage domain hashes = rootMessage domain' hashes') : domain = domain' := by
  have hbytes : ∀ d hs, ((rootMessage d hs)[14]?, (rootMessage d hs)[28]?) =
      (some (UInt8.ofNat d.tag.length), d.tag[6]?) := by
    intro d hs
    cases d <;> rfl
  have heq := (hbytes domain hashes).symm.trans ((h ▸ rfl : _ = _).trans (hbytes domain' hashes'))
  revert heq
  cases domain <;> cases domain' <;> decide

section Roots

variable {sha256 : Bytes → Bytes32} {domain domain' : CommitmentDomain} {leaves leaves' : List Bytes}
  {root root' : Bytes32} {s : Set Bytes}

theorem contentRoot_of_perm (h : leaves.Perm leaves') :
    contentRoot sha256 domain leaves = contentRoot sha256 domain leaves' := by
  have hhashes : sortedHashes sha256 (leaves.map (leafMessage domain)) =
      sortedHashes sha256 (leaves'.map (leafMessage domain)) :=
    sortedHashes_eq_iff.mpr ((h.map _).map _)
  simp only [contentRoot, hhashes]

/-- The list of hashes has neighbours that are equal exactly when two leaves are equal. -/
theorem contentRoot_nodup_iff (hinj : Set.InjOn sha256 s)
    (hmem : ∀ leaf ∈ leaves, leafMessage domain leaf ∈ s) :
    (∃ pair ∈ (sortedHashes sha256 (leaves.map (leafMessage domain))).zip
      (sortedHashes sha256 (leaves.map (leafMessage domain))).tail, pair.1 = pair.2) ↔
      ¬leaves.Nodup := by
  have hsorted : (sortedHashes sha256 (leaves.map (leafMessage domain))).Pairwise (· ≤ ·) :=
    List.pairwise_insertionSort _ _
  rw [exists_neighbours_iff hsorted, not_iff_not, (sortedHashes_perm _ _).nodup_iff, List.map_map]
  refine ⟨List.Nodup.of_map _, fun h => h.map_on fun x hx y hy heq => ?_⟩
  exact leafMessage_injective domain (hinj (hmem x hx) (hmem y hy) heq)

theorem contentRoot_error_iff (hinj : Set.InjOn sha256 s)
    (hmem : ∀ leaf ∈ leaves, leafMessage domain leaf ∈ s) :
    contentRoot sha256 domain leaves = .error .duplicateLeaf ↔ ¬leaves.Nodup := by
  rw [← contentRoot_nodup_iff hinj hmem]
  simp only [contentRoot, bind_error, rejectIf_eq_error, and_true, reduceCtorEq, and_false,
    exists_false, or_false]

theorem contentRoot_nodup (hinj : Set.InjOn sha256 s)
    (hmem : ∀ leaf ∈ leaves, leafMessage domain leaf ∈ s)
    (h : contentRoot sha256 domain leaves = .ok root) : leaves.Nodup := by
  by_contra hduplicate
  rw [(contentRoot_error_iff hinj hmem).mpr hduplicate] at h
  cases h

/-- Two roots are equal exactly when the domains and the sets of leaves are. -/
theorem contentRoot_eq_iff (hinj : Set.InjOn sha256 s)
    (hmem : ∀ m ∈ contentMessages sha256 domain leaves, m ∈ s)
    (hmem' : ∀ m ∈ contentMessages sha256 domain' leaves', m ∈ s)
    (h : contentRoot sha256 domain leaves = .ok root)
    (h' : contentRoot sha256 domain' leaves' = .ok root') :
    root = root' ↔ domain = domain' ∧ ∀ leaf, leaf ∈ leaves ↔ leaf ∈ leaves' := by
  constructor
  · rintro rfl
    have hroot := (contentRoot_ok h).symm.trans (contentRoot_ok h')
    have hdomain : domain = domain' :=
      rootMessage_domain (hinj (hmem _ List.mem_cons_self) (hmem' _ List.mem_cons_self) hroot)
    subst hdomain
    exact ⟨rfl, fun leaf => (contentRoot_perm hinj hmem hmem' h h').mem_iff⟩
  · rintro ⟨rfl, hleaves⟩
    simp only [contentMessages, List.forall_mem_cons, List.forall_mem_map] at hmem hmem'
    have hperm : leaves.Perm leaves' :=
      (List.perm_ext_iff_of_nodup (contentRoot_nodup hinj hmem.2 h)
        (contentRoot_nodup hinj hmem'.2 h')).mpr hleaves
    rw [contentRoot_of_perm hperm, h'] at h
    exact (Except.ok.inj h).symm

end Roots

end Kageb
