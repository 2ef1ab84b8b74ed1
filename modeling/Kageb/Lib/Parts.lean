import Kageb.Lib.Offsets
import Kageb.Lib.Tables

/-! What a reader at offsets has seen when it succeeds: which part stands where in the buffer. A
buffer is the concatenation of the parts that stand in it one after another, so the success of a
reader and the shape of what it read say the same. -/

namespace Binary

open Checks

/-! ### Parts -/

/-- `part` stands in `data` from `start` on. -/
def PartAt (data : Bytes) (start : Nat) (part : Bytes) : Prop :=
  start + part.length ≤ data.length ∧ slice data start (start + part.length) = part

section PartAt

variable {data p q : Bytes} {start : Nat}

theorem partAt_iff_drop : PartAt data start p ↔
    start ≤ data.length ∧ data.drop start = p ++ data.drop (start + p.length) := by
  constructor
  · rintro ⟨hle, heq⟩
    refine ⟨by omega, ?_⟩
    nth_rewrite 1 [← heq]
    exact (slice_append_drop (Nat.le_add_right _ _)).symm
  · rintro ⟨hle, heq⟩
    have hlength := congrArg List.length heq
    simp only [List.length_drop, List.length_append] at hlength
    refine ⟨by omega, ?_⟩
    rw [slice, heq, Nat.add_sub_cancel_left, List.take_left]

theorem partAt_append :
    PartAt data start (p ++ q) ↔ PartAt data start p ∧ PartAt data (start + p.length) q := by
  simp only [partAt_iff_drop, List.length_append, ← Nat.add_assoc, List.append_assoc]
  constructor
  · rintro ⟨hle, heq⟩
    have hlength := congrArg List.length heq
    simp only [List.length_drop, List.length_append] at hlength
    have hrest : data.drop (start + p.length) = q ++ data.drop (start + p.length + q.length) := by
      rw [← List.drop_drop, heq, List.drop_left]
    exact ⟨⟨hle, by rw [heq, hrest]⟩, by omega, hrest⟩
  · rintro ⟨⟨hle, heq⟩, -, hrest⟩
    exact ⟨hle, by rw [heq, ← hrest]⟩

theorem partAt_nil : PartAt data start [] ↔ start ≤ data.length := by
  simp [PartAt, slice]

theorem partAt_singleton {b : UInt8} : PartAt data start [b] ↔ data[start]? = some b := by
  rw [partAt_iff_drop]
  by_cases h : start < data.length
  · have hdrop := List.drop_eq_getElem_cons h
    rw [List.getElem?_eq_getElem h, Option.some_inj]
    constructor
    · rintro ⟨-, heq⟩
      exact (List.cons.inj (hdrop.symm.trans heq)).1
    · rintro rfl
      exact ⟨h.le, hdrop⟩
  · rw [List.getElem?_eq_none (not_lt.mp h), List.drop_of_length_le (not_lt.mp h)]
    constructor
    · rintro ⟨-, heq⟩
      cases heq
    · intro heq
      cases heq

theorem PartAt.stop_le (h : PartAt data start p) : start + p.length ≤ data.length := h.1

theorem PartAt.eq (hp : PartAt data start p) (hq : PartAt data start q)
    (h : p.length = q.length) : p = q := by
  rw [← hp.2, h, hq.2]

theorem eq_iff_partAt : data = p ↔ data.length = p.length ∧ PartAt data 0 p := by
  constructor
  · rintro rfl
    exact ⟨rfl, by simp, by simp [slice]⟩
  · rintro ⟨hlength, -, heq⟩
    rw [← heq, Nat.zero_add, ← hlength]
    simp [slice]

end PartAt

/-! ### Readers that end -/

namespace Guarded

variable {ε ε' α β : Type}

/-- No access is out of range. -/
def Ends (x : Guarded ε α) : Prop := ∃ r, x = check r

theorem ends_check (x : Except ε α) : (check x).Ends := ⟨x, rfl⟩

theorem ends_pure (a : α) : (pure a : Guarded ε α).Ends := ⟨.ok a, rfl⟩

theorem Ends.bind {x : Guarded ε α} {f : α → Guarded ε β} (hx : x.Ends)
    (hf : ∀ a, x = pure a → (f a).Ends) : (x >>= f).Ends := by
  obtain ⟨r, rfl⟩ := hx
  cases r with
  | error e => exact ⟨.error e, rfl⟩
  | ok a => exact hf a rfl

theorem ends_reject {bad : Prop} [Decidable bad] {e : ε} {f : Unit → Guarded ε α}
    (hf : ¬bad → (f ()).Ends) : (check (rejectIf bad e) >>= f).Ends := by
  by_cases h : bad
  · rw [reject_of h]
    exact ends_check _
  · rw [reject_of_not h]
    exact hf h

theorem ends_byte {data : Bytes} {i : Nat} (h : i < data.length) :
    (byte data i : Guarded ε UInt8).Ends := by
  rw [byte_eq h]
  exact ends_pure _

theorem ends_slice {data : Bytes} {start stop : Nat} (h : start ≤ stop) (h' : stop ≤ data.length) :
    (slice data start stop : Guarded ε Bytes).Ends := by
  rw [slice_eq h h']
  exact ends_pure _

theorem ends_array {n : Nat} {data : Bytes} {start : Nat} (h : start + n ≤ data.length) (e : ε) :
    (array n data start e).Ends := by
  rw [array_eq h]
  exact ends_pure _

/-- `data.get(start..stop)`, with an error when it is out of range. -/
def get (data : Bytes) (start stop : Nat) (e : ε) : Guarded ε Bytes :=
  check (okOr (if start ≤ stop ∧ stop ≤ data.length then some (Binary.slice data start stop)
    else none) e)

theorem ends_get (data : Bytes) (start stop : Nat) (e : ε) : (get data start stop e).Ends :=
  ends_check _

/-- `map_err`. -/
def mapError (f : ε → ε') (x : Guarded ε α) : Guarded ε' α := ExceptT.adapt f x

theorem Ends.mapError {x : Guarded ε α} (h : x.Ends) (f : ε → ε') : (x.mapError f).Ends := by
  obtain ⟨r, rfl⟩ := h
  exact ⟨r.mapError f, by cases r <;> rfl⟩

theorem ends_mapM {f : α → Guarded ε β} {as : List α} (h : ∀ a ∈ as, (f a).Ends) :
    (as.mapM f).Ends := by
  induction as with
  | nil => exact ends_pure _
  | cons a as ih =>
    rw [List.mapM_cons]
    refine (h a List.mem_cons_self).bind fun b _ => ?_
    refine (ih fun x hx => h x (List.mem_cons_of_mem a hx)).bind fun bs _ => ?_
    exact ends_pure _

/-! ### Readers that succeed -/

theorem bind_eq_pure {x : Guarded ε α} {f : α → Guarded ε β} {b : β} :
    x >>= f = pure b ↔ ∃ a, x = pure a ∧ f a = pure b := by
  constructor
  · intro h
    match x, h with
    | some (.ok a), h => exact ⟨a, rfl, h⟩
    | some (.error e), h => cases h
    | none, h => cases h
  · rintro ⟨a, rfl, h⟩
    exact h

theorem check_eq_pure {x : Except ε α} {a : α} : check x = pure a ↔ x = .ok a :=
  ⟨fun h => Option.some.inj h, fun h => congrArg some h⟩

theorem pure_eq_pure {a b : α} : (pure a : Guarded ε α) = pure b ↔ a = b :=
  ⟨fun h => Except.ok.inj (Option.some.inj h), fun h => by rw [h]⟩

theorem byte_eq_pure {data : Bytes} {i : Nat} {b : UInt8} :
    (byte data i : Guarded ε UInt8) = pure b ↔ PartAt data i [b] := by
  rw [partAt_singleton, byte]
  cases data[i]? with
  | none => constructor <;> intro h <;> cases h
  | some c => exact pure_eq_pure.trans (Option.some_inj).symm

theorem slice_eq_pure {data part : Bytes} {start stop : Nat} :
    (slice data start stop : Guarded ε Bytes) = pure part ↔
      PartAt data start part ∧ start + part.length = stop := by
  by_cases h : start ≤ stop ∧ stop ≤ data.length
  · rw [slice_eq h.1 h.2, pure_eq_pure]
    constructor
    · rintro rfl
      have hlength : (Binary.slice data start stop).length = stop - start := by
        simp [Binary.slice]
        omega
      rw [PartAt, hlength, Nat.add_sub_cancel' h.1]
      exact ⟨⟨h.2, rfl⟩, rfl⟩
    · rintro ⟨hpart, rfl⟩
      exact hpart.2
  · rw [slice, if_neg h]
    constructor
    · intro heq
      cases heq
    · rintro ⟨⟨hle, -⟩, rfl⟩
      exact absurd ⟨Nat.le_add_right _ _, hle⟩ h

theorem get_eq_pure {data part : Bytes} {start stop : Nat} {e : ε} :
    get data start stop e = pure part ↔ PartAt data start part ∧ start + part.length = stop := by
  rw [get, check_eq_pure, okOr_eq_ok, ← slice_eq_pure (ε := ε), slice]
  split
  · exact ⟨fun h => congrArg (fun x => ExceptT.lift x) h,
      fun h => congrArg some (pure_eq_pure.mp h)⟩
  · constructor <;> intro h <;> cases h

theorem array_eq_pure {n : Nat} {data : Bytes} {start : Nat} {e : ε} {v : ByteVec n} :
    array n data start e = pure v ↔ PartAt data start v.bytes := by
  rw [array, bind_eq_pure]
  simp only [check_eq_pure, okOr_eq_ok, ByteVec.ofBytes?_eq_some, slice_eq_pure]
  constructor
  · rintro ⟨part, ⟨hpart, -⟩, rfl⟩
    exact hpart
  · intro h
    exact ⟨v.bytes, ⟨h, by rw [v.length_bytes]⟩, rfl⟩

theorem fixed_eq_pure {n : Nat} {data : Bytes} {start : Nat} {v : ByteVec n} :
    (fixed n data start : Guarded ε (ByteVec n)) = pure v ↔ PartAt data start v.bytes := by
  by_cases h : start + n ≤ data.length
  · rw [fixed_eq h, pure_eq_pure, PartAt, v.length_bytes]
    exact ⟨fun heq => ⟨h, heq ▸ rfl⟩, fun hpart => ByteVec.ext hpart.2⟩
  · rw [fixed, slice, if_neg fun hboth => h hboth.2]
    constructor
    · intro heq
      cases heq
    · rintro ⟨hle, -⟩
      rw [v.length_bytes] at hle
      exact absurd hle h

theorem take_eq_pure {n : Nat} (hn : 0 < n) {data : Bytes} {offset offset' : Nat} {e : ε}
    {v : ByteVec n} :
    take n data offset e = pure (v, offset') ↔
      offset' = offset + n ∧ PartAt data offset v.bytes := by
  simp only [take, check_eq_pure, okOr_eq_ok, Option.map_eq_some_iff, ByteVec.ofBytes?_eq_some,
    Prod.mk.injEq]
  constructor
  · rintro ⟨w, hw, rfl, rfl⟩
    have hlength := congrArg List.length hw
    simp only [Binary.slice, List.length_take, List.length_drop, ByteVec.length_bytes,
      Nat.add_sub_cancel_left] at hlength
    refine ⟨rfl, ?_, by rw [w.length_bytes, hw]⟩
    rw [w.length_bytes]
    omega
  · rintro ⟨rfl, hle, heq⟩
    rw [v.length_bytes] at heq
    exact ⟨v, heq, rfl, rfl⟩

/-- The little-endian word at `start`. -/
def u32 (data : Bytes) (start : Nat) (e : ε) : Guarded ε UInt32 := do
  let word ← array 4 data start e
  pure (word32 word)

def u64 (data : Bytes) (start : Nat) (e : ε) : Guarded ε UInt64 := do
  let word ← array 8 data start e
  pure (word64 word)

theorem u32_eq_pure {data : Bytes} {start : Nat} {e : ε} {x : UInt32} :
    u32 data start e = pure x ↔ PartAt data start (le32 x) := by
  simp only [u32, bind_eq_pure, array_eq_pure, pure_eq_pure]
  constructor
  · rintro ⟨word, h, rfl⟩
    rwa [le32_word32]
  · intro h
    refine ⟨⟨le32 x, le32_length x⟩, h, ?_⟩
    rw [word32, leValue_le32, UInt32.ofNat_toNat]

theorem u64_eq_pure {data : Bytes} {start : Nat} {e : ε} {x : UInt64} :
    u64 data start e = pure x ↔ PartAt data start (le64 x) := by
  simp only [u64, bind_eq_pure, array_eq_pure, pure_eq_pure]
  constructor
  · rintro ⟨word, h, rfl⟩
    rwa [le64_word64]
  · intro h
    refine ⟨⟨le64 x, le64_length x⟩, h, ?_⟩
    rw [word64, leValue_le64, UInt64.ofNat_toNat]

theorem exists_array {n : Nat} {data : Bytes} {start : Nat} (h : start + n ≤ data.length) (e : ε) :
    ∃ v, array n data start e = pure v ∧ PartAt data start v.bytes :=
  ⟨_, array_eq h e, array_eq_pure.mp (array_eq h e)⟩

theorem exists_u64 {data : Bytes} {start : Nat} (h : start + 8 ≤ data.length) (e : ε) :
    ∃ x, u64 data start e = pure x ∧ PartAt data start (le64 x) := by
  have hword : u64 data start e = pure (word64 (arrayAt data start 8 h)) := by
    rw [u64, array_eq h, pure_bind]
  exact ⟨_, hword, u64_eq_pure.mp hword⟩

theorem exists_byte {data : Bytes} {i : Nat} (h : i < data.length) :
    ∃ b, (byte data i : Guarded ε UInt8) = pure b ∧ PartAt data i [b] :=
  ⟨_, byte_eq h, byte_eq_pure.mp (byte_eq (ε := ε) h)⟩

/-- The word at `start`, with an error when it is out of range. -/
def getU32 (data : Bytes) (start : Nat) (e : ε) : Guarded ε UInt32 := do
  let part ← get data start (start + 4) e
  let word ← check (okOr (ByteVec.ofBytes? 4 part) e)
  pure (word32 word)

theorem getU32_eq_pure {data : Bytes} {start : Nat} {e : ε} {x : UInt32} :
    getU32 data start e = pure x ↔ PartAt data start (le32 x) := by
  simp only [getU32, bind_eq_pure, get_eq_pure, check_eq_pure, okOr_eq_ok,
    ByteVec.ofBytes?_eq_some, pure_eq_pure]
  constructor
  · rintro ⟨part, ⟨hpart, -⟩, word, rfl, rfl⟩
    rwa [le32_word32]
  · intro h
    refine ⟨le32 x, ⟨h, by rw [le32_length]⟩, ⟨le32 x, le32_length x⟩, rfl, ?_⟩
    rw [word32, leValue_le32, UInt32.ofNat_toNat]

theorem ends_getU32 (data : Bytes) (start : Nat) (e : ε) : (getU32 data start e).Ends :=
  (ends_get _ _ _ e).bind fun _ _ => (ends_check _).bind fun _ _ => ends_pure _

theorem ends_u32 {data : Bytes} {start : Nat} (h : start + 4 ≤ data.length) (e : ε) :
    (u32 data start e).Ends :=
  (ends_array h e).bind fun _ _ => ends_pure _

theorem ends_u64 {data : Bytes} {start : Nat} (h : start + 8 ≤ data.length) (e : ε) :
    (u64 data start e).Ends :=
  (ends_array h e).bind fun _ _ => ends_pure _

theorem mapError_eq_pure {x : Guarded ε α} {f : ε → ε'} {a : α} :
    x.mapError f = pure a ↔ x = pure a := by
  match x with
  | some (.ok b) => exact pure_eq_pure.trans pure_eq_pure.symm
  | some (.error e) => constructor <;> intro h <;> cases h
  | none => constructor <;> intro h <;> cases h

/-- A loop that reads `count` elements, each from where the one before it ended. -/
def takeMany (one : Nat → Guarded ε (α × Nat)) : Nat → Nat → Guarded ε (List α × Nat)
  | 0, offset => pure ([], offset)
  | count + 1, offset => do
    let (a, offset) ← one offset
    let (as, offset) ← takeMany one count offset
    pure (a :: as, offset)

theorem ends_takeMany {one : Nat → Guarded ε (α × Nat)} (h : ∀ offset, (one offset).Ends)
    (count offset : Nat) : (takeMany one count offset).Ends := by
  induction count generalizing offset with
  | zero => exact ends_pure _
  | succ count ih =>
    refine (h offset).bind fun _ _ => ?_
    exact (ih _).bind fun _ _ => ends_pure _

/-- What such a loop accepts is its elements one after another. -/
theorem takeMany_eq_pure {one : Nat → Guarded ε (α × Nat)} {encodes : α → Bytes → Prop}
    {data : Bytes} (hone : ∀ offset offset' a, one offset = pure (a, offset') ↔
      ∃ part, encodes a part ∧ PartAt data offset part ∧ offset' = offset + part.length)
    {count offset offset' : Nat} {as : List α} (hoffset : offset ≤ data.length) :
    takeMany one count offset = pure (as, offset') ↔ as.length = count ∧
      ∃ parts, List.Forall₂ encodes as parts ∧ PartAt data offset parts.flatten ∧
        offset' = offset + parts.flatten.length := by
  induction count generalizing offset offset' as with
  | zero =>
    simp only [takeMany, pure_eq_pure, Prod.mk.injEq, List.length_eq_zero_iff]
    constructor
    · rintro ⟨rfl, rfl⟩
      exact ⟨rfl, [], .nil, partAt_nil.mpr hoffset, rfl⟩
    · rintro ⟨rfl, parts, hparts, -, rfl⟩
      obtain rfl := List.forall₂_nil_left_iff.mp hparts
      exact ⟨rfl, rfl⟩
  | succ count ih =>
    simp only [takeMany, bind_eq_pure, Prod.exists, hone, pure_eq_pure, Prod.mk.injEq]
    constructor
    · rintro ⟨a, _, ⟨part, ha, hpart, rfl⟩, rest, _, hrest, rfl, rfl⟩
      obtain ⟨hcount, parts, hforall, hparts, rfl⟩ := (ih hpart.stop_le).mp hrest
      refine ⟨by rw [List.length_cons, hcount], part :: parts, .cons ha hforall, ?_, ?_⟩
      · rw [List.flatten_cons, partAt_append]
        exact ⟨hpart, hparts⟩
      · rw [List.flatten_cons, List.length_append, Nat.add_assoc]
    · rintro ⟨hcount, parts, hforall, hpart, rfl⟩
      cases hforall with
      | nil => cases hcount
      | @cons a part rest parts ha hforall =>
        rw [List.flatten_cons, partAt_append] at hpart
        refine ⟨a, _, ⟨part, ha, hpart.1, rfl⟩, rest, _, (ih hpart.1.stop_le).mpr
          ⟨Nat.succ.inj hcount, parts, hforall, hpart.2, rfl⟩, rfl, ?_⟩
        rw [List.flatten_cons, List.length_append, Nat.add_assoc]

theorem forall₂_eq_iff {encode : α → Bytes} {as : List α} {parts : List Bytes} :
    List.Forall₂ (fun a part => part = encode a) as parts ↔ parts = as.map encode := by
  induction as generalizing parts with
  | nil => rw [List.forall₂_nil_left_iff, List.map_nil]
  | cons a as ih => simp [List.forall₂_cons_left_iff, ih]

theorem takeMany_encoded_eq_pure {one : Nat → Guarded ε (α × Nat)} {encode : α → Bytes}
    {data : Bytes} (hone : ∀ offset offset' a, one offset = pure (a, offset') ↔
      ∃ part, part = encode a ∧ PartAt data offset part ∧ offset' = offset + part.length)
    {count offset offset' : Nat} {as : List α} (hoffset : offset ≤ data.length) :
    takeMany one count offset = pure (as, offset') ↔ as.length = count ∧
      PartAt data offset (as.flatMap encode) ∧
        offset' = offset + (as.flatMap encode).length := by
  rw [takeMany_eq_pure hone hoffset]
  simp only [forall₂_eq_iff, exists_eq_left, List.flatMap_def]

/-- What a chunked reader accepts is its elements one after another. -/
theorem mapM_chunks_eq_pure {decode : Bytes → Guarded ε α} {encode : α → Bytes} {P : α → Prop}
    {width : Nat} (hdecode : ∀ bs a, decode bs = pure a ↔ P a ∧ bs = encode a)
    (hwidth : ∀ a, P a → (encode a).length = width) {count : Nat} {part : Bytes} {as : List α}
    (hlength : part.length = count * width) :
    (Tables.chunks width count part).mapM decode = pure as ↔
      as.length = count ∧ (∀ a ∈ as, P a) ∧ part = as.flatMap encode := by
  induction count generalizing part as with
  | zero =>
    rw [Nat.zero_mul, List.length_eq_zero_iff] at hlength
    subst hlength
    rw [Tables.chunks, List.mapM_nil, pure_eq_pure, List.length_eq_zero_iff]
    constructor
    · rintro rfl
      simp
    · rintro ⟨rfl, -, -⟩
      rfl
  | succ count ih =>
    have hrest : (part.drop width).length = count * width := by
      rw [List.length_drop, hlength, Nat.succ_mul]
      omega
    simp only [Tables.chunks, List.mapM_cons, bind_eq_pure, hdecode, ih hrest, pure_eq_pure]
    constructor
    · rintro ⟨a, ⟨ha, htake⟩, bs, ⟨hcount, hbs, hdrop⟩, rfl⟩
      refine ⟨by rw [List.length_cons, hcount], by simpa using ⟨ha, hbs⟩, ?_⟩
      rw [List.flatMap_cons, ← htake, ← hdrop, List.take_append_drop]
    · rintro ⟨hcount, hP, rfl⟩
      cases as with
      | nil => cases hcount
      | cons a bs =>
        have ha := hP a List.mem_cons_self
        rw [List.flatMap_cons, List.take_left' (hwidth a ha), List.drop_left' (hwidth a ha)]
        exact ⟨a, ⟨ha, rfl⟩, bs, ⟨Nat.succ.inj hcount, fun x hx => hP x (List.mem_cons_of_mem a hx),
          rfl⟩, rfl⟩

end Guarded

end Binary
