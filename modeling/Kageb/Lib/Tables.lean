import Kageb.Lib.Bytes
import Kageb.Lib.Checks
import Kageb.Lib.Maps

/-! Tables: a map written as its records one after another in the order of the keys, and read back
record by record. -/

namespace Tables

open Binary Checks Maps

def chunks (width : Nat) : Nat → Bytes → List Bytes
  | 0, _ => []
  | count + 1, bs => bs.take width :: chunks width count (bs.drop width)

theorem chunks_flatMap {α : Type} {width : Nat} {encode : α → Bytes} {as : List α}
    (h : ∀ a ∈ as, (encode a).length = width) (rest : Bytes) :
    chunks width as.length (as.flatMap encode ++ rest) = as.map encode := by
  induction as with
  | nil => rfl
  | cons a as ih =>
    have ha : (encode a).length = width := h a List.mem_cons_self
    have has := ih fun x hx => h x (List.mem_cons_of_mem a hx)
    rw [List.length_cons, chunks, List.flatMap_cons, List.append_assoc, List.map_cons,
      List.take_left' ha, List.drop_left' ha, has]

theorem length_flatMap {α : Type} {width : Nat} {encode : α → Bytes} {as : List α}
    (h : ∀ a ∈ as, (encode a).length = width) :
    (as.flatMap encode).length = as.length * width := by
  induction as with
  | nil => simp
  | cons a as ih =>
    rw [List.flatMap_cons, List.length_append, h a List.mem_cons_self,
      ih fun x hx => h x (List.mem_cons_of_mem a hx), List.length_cons]
    ring

section InsertAll

variable {κ α ε : Type} [LinearOrder κ] {decode : Bytes → Except ε (κ × α)} {duplicate : ε}

/-- The loop that puts every record into a map, and fails on a key that is already there. -/
def insertAll (decode : Bytes → Except ε (κ × α)) (duplicate : ε) (m : Map κ α) :
    List Bytes → Except ε (Map κ α)
  | [] => .ok m
  | record :: records => do
    let entry ← decode record
    rejectIf (entry.1 ∈ m) duplicate
    insertAll decode duplicate (m.insert entry.1 entry.2) records

theorem getElem?_foldl_insert {entries : List (κ × α)} {m : Map κ α}
    (hnodup : (entries.map Prod.fst).Nodup) {k : κ} {a : α} :
    (entries.foldl (fun m entry => m.insert entry.1 entry.2) m)[k]? = some a ↔
      (k, a) ∈ entries ∨ k ∉ entries.map Prod.fst ∧ m[k]? = some a := by
  induction entries generalizing m with
  | nil => simp
  | cons entry entries ih =>
    obtain ⟨k', a'⟩ := entry
    obtain ⟨hfresh, hnodup⟩ := List.nodup_cons.mp hnodup
    have hmem : ∀ {b}, (k, b) ∈ entries → k ∈ entries.map Prod.fst :=
      fun hb => List.mem_map_of_mem hb
    rw [List.foldl_cons, ih hnodup, Map.getElem?_insert]
    by_cases hk : k' = k
    · subst hk
      simp only [List.mem_cons, Prod.mk.injEq, true_and, List.map_cons, not_or]
      grind
    · simp only [List.mem_cons, Prod.mk.injEq, List.map_cons, not_or]
      grind

theorem insertAll_map {encode : κ × α → Bytes} {entries : List (κ × α)} {m : Map κ α}
    (hdecode : ∀ e ∈ entries, decode (encode e) = .ok e)
    (hnodup : (entries.map Prod.fst).Nodup) (hfresh : ∀ e ∈ entries, e.1 ∉ m) :
    insertAll decode duplicate m (entries.map encode) =
      .ok (entries.foldl (fun m entry => m.insert entry.1 entry.2) m) := by
  induction entries generalizing m with
  | nil => rfl
  | cons entry entries ih =>
    obtain ⟨hkey, hnodup⟩ := List.nodup_cons.mp hnodup
    have hrest : insertAll decode duplicate (m.insert entry.1 entry.2) (entries.map encode) =
        .ok (entries.foldl (fun m entry => m.insert entry.1 entry.2)
          (m.insert entry.1 entry.2)) := by
      refine ih (fun e he => hdecode e (List.mem_cons_of_mem _ he)) hnodup fun e he hmem => ?_
      rcases Std.ExtTreeMap.mem_insert.mp hmem with heq | hmem
      · exact hkey (compare_eq_iff_eq.mp heq ▸ List.mem_map_of_mem he)
      · exact hfresh e (List.mem_cons_of_mem _ he) hmem
    rw [List.map_cons, insertAll, hdecode entry List.mem_cons_self]
    refine (rejectIf_bind_of_not (hfresh entry List.mem_cons_self)).trans ?_
    rw [hrest, List.foldl_cons]

/-- What is written of a map is read back as the map. -/
theorem insertAll_toList {encode : κ × α → Bytes} {m : Map κ α}
    (hdecode : ∀ e ∈ m.toList, decode (encode e) = .ok e) :
    insertAll decode duplicate ∅ (m.toList.map encode) = .ok m := by
  have hnodup : (m.toList.map Prod.fst).Nodup := by
    rw [Std.ExtTreeMap.map_fst_toList_eq_keys]
    exact Std.ExtTreeMap.distinct_keys.imp fun h heq => h (compare_eq_iff_eq.mpr heq)
  rw [insertAll_map hdecode hnodup fun e _ => Std.ExtTreeMap.not_mem_empty]
  congr 1
  apply Std.ExtTreeMap.ext_getElem?
  intro k
  apply Option.ext
  intro a
  rw [getElem?_foldl_insert hnodup, Std.ExtTreeMap.mem_toList_iff_getElem?_eq_some]
  simp

end InsertAll

section Sealed

variable {κ α ε : Type} [LinearOrder κ] {hash : Bytes → ByteVec 32} {header : Bytes}

/-- A header, the number of records, the records, and a checksum of all of it. -/
def encodeTable (hash : Bytes → ByteVec 32) (header : Bytes) (tooMany : ε)
    (encode : κ × α → Bytes) (m : Map κ α) : Except ε Bytes := do
  let count ← okOr (count32 m.size) tooMany
  let payload := header ++ le32 count ++ m.toList.flatMap encode
  .ok (payload ++ (hash payload).bytes)

def decodeTable (hash : Bytes → ByteVec 32) (header : Bytes) (width : Nat) (corrupt : ε)
    (decode : Bytes → Except ε (κ × α)) (bytes : Bytes) : Except ε (Map κ α) := do
  rejectIf (bytes.length < header.length + 4 + 32 ∨ bytes.take header.length ≠ header) corrupt
  let payloadLen := bytes.length - 32
  rejectIf ((hash (bytes.take payloadLen)).bytes ≠ bytes.drop payloadLen) corrupt
  let count := leValue (slice bytes header.length (header.length + 4))
  rejectIf (bytes.length ≠ header.length + 4 + count * width + 32) corrupt
  insertAll decode corrupt ∅ (chunks width count (bytes.drop (header.length + 4)))

theorem decodeTable_encodeTable {width : Nat} {tooMany corrupt : ε} {encode : κ × α → Bytes}
    {decode : Bytes → Except ε (κ × α)} {m : Map κ α} {bytes : Bytes}
    (hwidth : ∀ e ∈ m.toList, (encode e).length = width)
    (hdecode : ∀ e ∈ m.toList, decode (encode e) = .ok e)
    (h : encodeTable hash header tooMany encode m = .ok bytes) :
    decodeTable hash header width corrupt decode bytes = .ok m := by
  simp only [encodeTable, bind_ok, okOr_eq_ok] at h
  obtain ⟨count, hcount, hbytes⟩ := h
  have hsize : count.toNat = m.toList.length := by
    rw [count32_toNat hcount, Std.ExtTreeMap.length_toList]
  have hbody := length_flatMap hwidth
  generalize hpayload : header ++ le32 count ++ m.toList.flatMap encode = payload at hbytes
  have hlength : payload.length = header.length + 4 + m.toList.length * width := by
    rw [← hpayload, List.length_append, hbody]
    simp
  obtain rfl := Except.ok.inj hbytes
  have htotal : (payload ++ (hash payload).bytes).length = payload.length + 32 := by simp
  have htake : (payload ++ (hash payload).bytes).take payload.length = payload := by simp
  have hdrop : (payload ++ (hash payload).bytes).drop payload.length = (hash payload).bytes := by
    simp
  have hheader : (payload ++ (hash payload).bytes).take header.length = header := by
    rw [← hpayload, List.append_assoc, List.append_assoc, List.take_left]
  have hvalue : leValue (slice (payload ++ (hash payload).bytes) header.length (header.length + 4))
      = m.toList.length := by
    rw [← hpayload, List.append_assoc, slice_append rfl (by simp), leValue_le32, hsize]
  have hrecords : (payload ++ (hash payload).bytes).drop (header.length + 4) =
      m.toList.flatMap encode ++ (hash payload).bytes := by
    nth_rewrite 1 [← hpayload]
    rw [List.append_assoc, List.drop_left' (by simp)]
  simp only [decodeTable, bind_ok, Unique.exists_iff, rejectIf_eq_ok, htotal,
    Nat.add_sub_cancel, htake, hdrop, hheader, hvalue, hrecords, chunks_flatMap hwidth, not_or,
    not_not, ne_eq, not_true, not_false_eq_true, and_true, true_and]
  refine ⟨?_, ?_, insertAll_toList hdecode⟩
  · omega
  · rw [hlength]

end Sealed

end Tables
