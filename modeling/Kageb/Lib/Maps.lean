import Mathlib

/-! Finite maps with ordered keys: two maps with the same entries are equal, and a map does not
depend on the order in which distinct keys were put into it. -/

namespace Maps

abbrev Map (κ α : Type) [LinearOrder κ] := Std.ExtTreeMap κ α compare

variable {κ α : Type} [LinearOrder κ]

instance lawfulEqCmp_compare : Std.LawfulEqCmp (compare : κ → κ → Ordering) where
  eq_of_compare h := compare_eq_iff_eq.mp h

instance transCmp_compare : Std.TransCmp (compare : κ → κ → Ordering) := inferInstance

namespace Map

@[simp] theorem getElem?_insert (m : Map κ α) (k k' : κ) (a : α) :
    (m.insert k a)[k']? = if k = k' then some a else m[k']? := by
  simp [Std.ExtTreeMap.getElem?_insert]

theorem toList_injective : Function.Injective (Std.ExtTreeMap.toList : Map κ α → List (κ × α)) := by
  intro m m' h
  apply Std.ExtTreeMap.ext_getElem?
  intro k
  apply Option.ext
  intro a
  rw [← Std.ExtTreeMap.mem_toList_iff_getElem?_eq_some, h,
    Std.ExtTreeMap.mem_toList_iff_getElem?_eq_some]

instance [DecidableEq α] : DecidableEq (Map κ α) := fun m m' =>
  decidable_of_iff (m.toList = m'.toList) toList_injective.eq_iff

/-- The later of two entries with one key stays. -/
def ofList (entries : List (κ × α)) : Map κ α := Std.ExtTreeMap.ofList entries compare

theorem mem_ofList {entries : List (κ × α)} {k : κ} :
    k ∈ ofList entries ↔ k ∈ entries.map Prod.fst := by
  rw [ofList, Std.ExtTreeMap.mem_ofList]
  simp

theorem getElem?_ofList {entries : List (κ × α)} (h : (entries.map Prod.fst).Nodup) {k : κ}
    {a : α} : (ofList entries)[k]? = some a ↔ (k, a) ∈ entries := by
  have hdistinct : entries.Pairwise fun x y => ¬compare x.1 y.1 = .eq := by
    rw [List.Nodup, List.pairwise_map] at h
    simpa [compare_eq_iff_eq] using h
  have hmem : ∀ {b}, (k, b) ∈ entries → (ofList entries)[k]? = some b := fun hb =>
    Std.ExtTreeMap.getElem?_ofList_of_mem (compare_eq_iff_eq.mpr rfl) hdistinct hb
  constructor
  · intro hk
    have hkey : k ∈ ofList entries := by
      rw [Std.ExtTreeMap.mem_iff_isSome_getElem?, hk]
      rfl
    obtain ⟨⟨k', b⟩, hb, rfl⟩ := List.mem_map.mp (mem_ofList.mp hkey)
    rw [hmem hb] at hk
    cases hk
    exact hb
  · exact hmem

theorem ofList_perm {entries entries' : List (κ × α)} (h : (entries.map Prod.fst).Nodup)
    (hperm : entries.Perm entries') : ofList entries = ofList entries' := by
  apply Std.ExtTreeMap.ext_getElem?
  intro k
  apply Option.ext
  intro a
  rw [getElem?_ofList h, getElem?_ofList ((hperm.map _).nodup_iff.mp h), hperm.mem_iff]

theorem size_eq_card (m : Map κ α) : m.size = m.keys.toFinset.card := by
  rw [List.toFinset_card_of_nodup, Std.ExtTreeMap.length_keys]
  exact Std.ExtTreeMap.distinct_keys.imp fun h heq => h (compare_eq_iff_eq.mpr heq)

theorem size_eq_of_mem_iff {m m' : Map κ α} (h : ∀ k, k ∈ m ↔ k ∈ m') : m.size = m'.size := by
  have hkeys : m.keys.toFinset = m'.keys.toFinset := by
    ext k
    simp [h]
  rw [size_eq_card, size_eq_card, hkeys]

/-- A map has as many entries as the list it was built from exactly when their keys differ. -/
theorem size_ofList_eq_length {entries : List (κ × α)} :
    (ofList entries).size = entries.length ↔ (entries.map Prod.fst).Nodup := by
  have hkeys : (ofList entries).keys.toFinset = (entries.map Prod.fst).toFinset := by
    ext k
    simp [← mem_ofList]
  rw [size_eq_card, hkeys]
  constructor
  · intro h
    rw [← Multiset.coe_nodup, ← Multiset.toFinset_card_eq_card_iff_nodup]
    simpa using h
  · intro h
    rw [List.toFinset_card_of_nodup h, List.length_map]

/-- The entries of a map have distinct images exactly when an image determines its key. -/
theorem nodup_map_toList {β : Type} (f : α → β) (m : Map κ α) :
    (m.toList.map fun entry => f entry.2).Nodup ↔
      ∀ (k k' : κ) (a a' : α), m[k]? = some a → m[k']? = some a' → f a = f a' → k = k' := by
  have hnodup : m.toList.Nodup :=
    Std.ExtTreeMap.distinct_keys_toList.imp fun h heq => h (compare_eq_iff_eq.mpr (by rw [heq]))
  have hmem : ∀ {k a}, (k, a) ∈ m.toList ↔ m[k]? = some a :=
    Std.ExtTreeMap.mem_toList_iff_getElem?_eq_some
  rw [List.nodup_map_iff_inj_on hnodup]
  constructor
  · intro hinj k k' a a' ha ha' heq
    exact congrArg Prod.fst (hinj _ (hmem.mpr ha) _ (hmem.mpr ha') heq)
  · rintro hinj ⟨k, a⟩ hx ⟨k', a'⟩ hy heq
    have ha := hmem.mp hx
    have ha' := hmem.mp hy
    obtain rfl := hinj k k' a a' ha ha' heq
    cases ha.symm.trans ha'
    rfl

end Map

/-! ### Sums over a map -/

def domain (m : Map κ α) : Finset κ := m.keys.toFinset

@[simp] theorem mem_domain {m : Map κ α} {k : κ} : k ∈ domain m ↔ k ∈ m := by
  simp [domain]

/-- What `f` makes of the entry at a key, zero if there is none. -/
def valueAt {M : Type} [Zero M] (f : α → M) (m : Map κ α) (k : κ) : M := (m[k]?.map f).getD 0

section Total

variable {M : Type} [AddCommMonoid M] (f : α → M)

theorem valueAt_of_some {m : Map κ α} {k : κ} {a : α} (h : m[k]? = some a) :
    valueAt f m k = f a := by
  rw [valueAt, h]
  rfl

def total (m : Map κ α) : M := ∑ k ∈ domain m, valueAt f m k

theorem sum_toList (m : Map κ α) : (m.toList.map fun entry => f entry.2).sum = total f m := by
  have hnodup : m.keys.Nodup :=
    Std.ExtTreeMap.distinct_keys.imp fun h heq => h (compare_eq_iff_eq.mpr heq)
  rw [total, domain, List.sum_toFinset _ hnodup, ← Std.ExtTreeMap.map_fst_toList_eq_keys,
    List.map_map]
  congr 1
  refine List.map_congr_left fun entry hentry => ?_
  exact (valueAt_of_some f (Std.ExtTreeMap.mem_toList_iff_getElem?_eq_some.mp hentry)).symm

theorem total_insert {m : Map κ α} {k : κ} {a : α} (h : k ∉ m) :
    total f (m.insert k a) = f a + total f m := by
  have hdomain : domain (m.insert k a) = insert k (domain m) := by
    ext k'
    rw [mem_domain, Std.ExtTreeMap.mem_insert, Finset.mem_insert, mem_domain, compare_eq_iff_eq]
    exact or_congr_left eq_comm
  have hrest : ∀ k' ∈ domain m, valueAt f (m.insert k a) k' = valueAt f m k' := by
    intro k' hk'
    have hne : k ≠ k' := fun heq => h (heq ▸ mem_domain.mp hk')
    rw [valueAt, Map.getElem?_insert, if_neg hne, valueAt]
  rw [total, hdomain, Finset.sum_insert (fun hk => h (mem_domain.mp hk)),
    Finset.sum_congr rfl hrest, valueAt_of_some f (Map.getElem?_insert m k k a ▸ if_pos rfl)]
  rfl

/-- A new value for a key that has one replaces it in the sum. -/
theorem total_update {m : Map κ α} {k : κ} {a : α} (h : m[k]? = some a) (a' : α) :
    total f (m.insert k a') + f a = total f m + f a' := by
  have hk : k ∈ domain m := by
    rw [mem_domain, Std.ExtTreeMap.mem_iff_isSome_getElem?, h]
    rfl
  have hdomain : domain (m.insert k a') = domain m := by
    ext k'
    rw [mem_domain, Std.ExtTreeMap.mem_insert, mem_domain, compare_eq_iff_eq]
    exact or_iff_right_of_imp fun heq => heq ▸ mem_domain.mp hk
  have hrest : ∀ k' ∈ (domain m).erase k, valueAt f (m.insert k a') k' = valueAt f m k' := by
    intro k' hk'
    rw [valueAt, Map.getElem?_insert, if_neg (Finset.ne_of_mem_erase hk').symm, valueAt]
  have hnew : (m.insert k a')[k]? = some a' := by
    rw [Map.getElem?_insert, if_pos rfl]
  rw [total, total, hdomain, ← Finset.add_sum_erase _ _ hk, ← Finset.add_sum_erase _ _ hk,
    Finset.sum_congr rfl hrest, valueAt_of_some f hnew, valueAt_of_some f h]
  ac_rfl

end Total

end Maps
