import Kageb.Lib.Checks
import Kageb.Lib.Codec

/-! Records that are written into a buffer and read from it at counted offsets. An access outside
the buffer stops the program; it is `none` here. -/

namespace Binary

open Checks

/-! ### Writing -/

/-- `copy_from_slice` at `start`. -/
def writeAt (buffer : Bytes) (start : Nat) (data : Bytes) : Option Bytes :=
  if start + data.length ≤ buffer.length then
    some (buffer.take start ++ data ++ buffer.drop (start + data.length))
  else none

/-- Parts written one after another from `offset` on. -/
def consecutive (offset : Nat) : List Bytes → List (Nat × Bytes)
  | [] => []
  | part :: parts => (offset, part) :: consecutive (offset + part.length) parts

/-- A zeroed buffer after the writes. -/
def written (length : Nat) (writes : List (Nat × Bytes)) : Option Bytes :=
  writes.foldlM (fun buffer w => writeAt buffer w.1 w.2) (List.replicate length 0)

/-- The writes go from left to right and stay inside the buffer. -/
def LeftToRight (length : Nat) : Nat → List (Nat × Bytes) → Prop
  | offset, [] => offset ≤ length
  | offset, (start, data) :: writes =>
    offset ≤ start ∧ LeftToRight length (start + data.length) writes

/-- What stands in the buffer from `offset` on. -/
def rendered (length : Nat) : Nat → List (Nat × Bytes) → Bytes
  | offset, [] => List.replicate (length - offset) 0
  | offset, (start, data) :: writes =>
    List.replicate (start - offset) 0 ++ (data ++ rendered length (start + data.length) writes)

theorem LeftToRight.le {length offset : Nat} {writes : List (Nat × Bytes)}
    (h : LeftToRight length offset writes) : offset ≤ length := by
  induction writes generalizing offset with
  | nil => exact h
  | cons w writes ih =>
    obtain ⟨hstart, hrest⟩ := h
    have := ih hrest
    omega

/-- Writes from left to right leave what they wrote, and zeros between. -/
theorem LeftToRight.written {length : Nat} {writes : List (Nat × Bytes)} (done : Bytes)
    (h : LeftToRight length done.length writes) :
    writes.foldlM (fun buffer w => writeAt buffer w.1 w.2)
        (done ++ List.replicate (length - done.length) 0) =
      some (done ++ rendered length done.length writes) := by
  induction writes generalizing done with
  | nil => rfl
  | cons w writes ih =>
    obtain ⟨start, data⟩ := w
    obtain ⟨hstart, hrest⟩ := h
    have hle := hrest.le
    have hwrite : writeAt (done ++ List.replicate (length - done.length) 0) start data =
        some ((done ++ List.replicate (start - done.length) 0 ++ data) ++
          List.replicate (length - (start + data.length)) 0) := by
      have hbuffer : done ++ List.replicate (length - done.length) (0 : UInt8) =
          done ++ List.replicate (start - done.length) 0 ++
            (List.replicate data.length 0 ++ List.replicate (length - (start + data.length)) 0) := by
        rw [List.append_assoc, ← List.replicate_add, ← List.replicate_add]
        congr 2
        omega
      have hprefix : (done ++ List.replicate (start - done.length) (0 : UInt8)).length = start := by
        simp
        omega
      rw [writeAt, if_pos (by simp; omega), hbuffer, List.take_left' hprefix]
      rw [← List.append_assoc (done ++ _), List.drop_left' (by rw [List.length_append, hprefix]; simp)]
    have hdone : (done ++ List.replicate (start - done.length) (0 : UInt8) ++ data).length =
        start + data.length := by
      simp
      omega
    rw [List.foldlM_cons, hwrite]
    have hnext := ih _ (hdone ▸ hrest)
    rw [hdone] at hnext
    refine hnext.trans ?_
    rw [rendered]
    simp only [List.append_assoc]

theorem written_eq {length : Nat} {writes : List (Nat × Bytes)} (h : LeftToRight length 0 writes) :
    written length writes = some (rendered length 0 writes) :=
  LeftToRight.written [] h

/-! ### Reading -/

/-- A computation that stops the program, or returns a value or an error. -/
abbrev Guarded (ε α : Type) := ExceptT ε Option α

namespace Guarded

variable {ε α : Type}

/-- What does not touch the buffer. -/
def check (x : Except ε α) : Guarded ε α := ExceptT.mk (some x)

/-- `data[i]`. -/
def byte (data : Bytes) (i : Nat) : Guarded ε UInt8 := ExceptT.lift data[i]?

/-- `data[start..stop]`. -/
def slice (data : Bytes) (start stop : Nat) : Guarded ε Bytes :=
  ExceptT.lift
    (if start ≤ stop ∧ stop ≤ data.length then some (Binary.slice data start stop) else none)

/-- `data[start..start + n].try_into()`. -/
def array (n : Nat) (data : Bytes) (start : Nat) (e : ε) : Guarded ε (ByteVec n) := do
  let part ← slice data start (start + n)
  check (okOr (ByteVec.ofBytes? n part) e)

/-- `data[start..start + n].try_into().expect(..)`. -/
def fixed (n : Nat) (data : Bytes) (start : Nat) : Guarded ε (ByteVec n) := do
  let part ← slice data start (start + n)
  ExceptT.lift (ByteVec.ofBytes? n part)

@[simp] theorem arrayAt_bytes {data : Bytes} {start n : Nat} (h : start + n ≤ data.length) :
    (arrayAt data start n h).bytes = Binary.slice data start (start + n) := rfl

/-- `data.get(offset..offset + n)` at a cursor, which moves on. -/
def take (n : Nat) (data : Bytes) (offset : Nat) (e : ε) : Guarded ε (ByteVec n × Nat) :=
  check (okOr ((ByteVec.ofBytes? n (Binary.slice data offset (offset + n))).map
    fun v => (v, offset + n)) e)

/-- The little-endian word of an array. -/
def word32 (v : ByteVec 4) : UInt32 := UInt32.ofNat (leValue v.bytes)

def word64 (v : ByteVec 8) : UInt64 := UInt64.ofNat (leValue v.bytes)

theorem reject_of_not {bad : Prop} [Decidable bad] {e : ε} {f : Unit → Guarded ε α} (h : ¬bad) :
    check (rejectIf bad e) >>= f = f () := by
  rw [rejectIf, if_neg h]
  rfl

theorem reject_of {bad : Prop} [Decidable bad] {e : ε} {f : Unit → Guarded ε α} (h : bad) :
    check (rejectIf bad e) >>= f = check (.error e) := by
  rw [rejectIf, if_pos h]
  rfl

theorem byte_eq {data : Bytes} {i : Nat} (h : i < data.length) :
    (byte data i : Guarded ε UInt8) = pure data[i] := by
  rw [byte, List.getElem?_eq_getElem h]
  rfl

theorem slice_eq {data : Bytes} {start stop : Nat} (h : start ≤ stop) (h' : stop ≤ data.length) :
    (slice data start stop : Guarded ε Bytes) = pure (Binary.slice data start stop) := by
  rw [slice, if_pos ⟨h, h'⟩]
  rfl

theorem array_eq {n : Nat} {data : Bytes} {start : Nat} (h : start + n ≤ data.length) (e : ε) :
    array n data start e = pure (arrayAt data start n h) := by
  have hpart : ByteVec.ofBytes? n (Binary.slice data start (start + n)) =
      some (arrayAt data start n h) := ByteVec.ofBytes?_eq_some.mpr rfl
  rw [array, slice_eq (Nat.le_add_right _ _) h, pure_bind, hpart]
  rfl

theorem fixed_eq {n : Nat} {data : Bytes} {start : Nat} (h : start + n ≤ data.length) :
    (fixed n data start : Guarded ε (ByteVec n)) = pure (arrayAt data start n h) := by
  have hpart : ByteVec.ofBytes? n (Binary.slice data start (start + n)) =
      some (arrayAt data start n h) := ByteVec.ofBytes?_eq_some.mpr rfl
  rw [fixed, slice_eq (Nat.le_add_right _ _) h, pure_bind, hpart]
  rfl

theorem check_bind {β : Type} (x : Except ε α) (f : α → Except ε β) :
    (check x >>= fun a => check (f a)) = check (x >>= f) := by
  cases x <;> rfl

theorem take_eq {n : Nat} {data : Bytes} {offset : Nat} (h : offset + n ≤ data.length) (e : ε) :
    take n data offset e = pure (arrayAt data offset n h, offset + n) := by
  have hpart : ByteVec.ofBytes? n (Binary.slice data offset (offset + n)) =
      some (arrayAt data offset n h) := ByteVec.ofBytes?_eq_some.mpr rfl
  rw [take, hpart]
  rfl

/-- A reader at offsets is the reader of a format if it returns the value of an encoding and
refuses what is none. -/
theorem eq_check {encode : α → Bytes} {data : Bytes} {x : Except ε α} {r : Guarded ε α} {e : ε}
    (hok : ∀ a, x = .ok a ↔ data = encode a) (herror : ∀ e', x = .error e' → e' = e)
    (h : (∃ a, r = pure a ∧ data = encode a) ∨ r = check (.error e) ∧ ∀ a, data ≠ encode a) :
    r = check x := by
  obtain ⟨a, rfl, hdata⟩ | ⟨rfl, hnone⟩ := h
  · rw [(hok a).mpr hdata]
    rfl
  · cases hx : x with
    | ok a => exact absurd ((hok a).mp hx) (hnone a)
    | error e' => rw [herror e' hx]

theorem eq_read {c : Codec α} {data : Bytes} {r : Guarded ε α} {e : ε}
    (h : (∃ a, r = pure a ∧ data = c.encode a) ∨ r = check (.error e) ∧ ∀ a, data ≠ c.encode a) :
    r = check (okOr (c.read data) e) :=
  eq_check (fun _ => okOr_eq_ok.trans Codec.read_eq_some) (fun _ he => (okOr_eq_error.mp he).2.symm) h

end Guarded

/-- A writer and a reader of one format. No access is out of range, reading what was written returns
the value, and what is read is what would have been written. -/
structure Exact {ε α : Type} (write : α → Option Bytes) (read : Bytes → Guarded ε α) : Prop where
  writes : ∀ a, ∃ bs, write a = some bs ∧ read bs = pure a
  ends : ∀ bs, ∃ r, read bs = Guarded.check r
  reads : ∀ bs a, read bs = pure a → write a = some bs

/-- The same for the values with `P`, when no others can be read. -/
structure ExactOn {ε α : Type} (P : α → Prop) (write : α → Option Bytes)
    (read : Bytes → Guarded ε α) : Prop where
  writes : ∀ a, P a → ∃ bs, write a = some bs ∧ read bs = pure a
  ends : ∀ bs, ∃ r, read bs = Guarded.check r
  reads : ∀ bs a, read bs = pure a → P a ∧ write a = some bs

theorem Exact.of_decode {ε α : Type} {encode : α → Bytes} {decode : Bytes → Except ε α}
    {write : α → Option Bytes} {read : Bytes → Guarded ε α}
    (hok : ∀ bs a, decode bs = .ok a ↔ bs = encode a) (hwrite : ∀ a, write a = some (encode a))
    (hread : ∀ bs, read bs = Guarded.check (decode bs)) : Exact write read where
  writes a := ⟨encode a, hwrite a, by rw [hread, (hok _ _).mpr rfl]; rfl⟩
  ends bs := ⟨decode bs, hread bs⟩
  reads bs a h := by
    rw [hread] at h
    rw [hwrite, ← (hok bs a).mp (Option.some.inj h)]

/-! ### Slices that meet -/

theorem slice_append_drop {data : Bytes} {start stop : Nat} (h : start ≤ stop) :
    slice data start stop ++ data.drop stop = data.drop start := by
  have hdrop : data.drop stop = (data.drop start).drop (stop - start) := by
    rw [List.drop_drop]
    congr 1
    omega
  rw [slice, hdrop, List.take_append_drop]

theorem slice_to_end {data : Bytes} {start stop : Nat} (h : data.length ≤ stop) :
    slice data start stop = data.drop start := by
  rw [slice, List.take_of_length_le]
  rw [List.length_drop]
  omega

theorem singleton_append_drop {data : Bytes} {i j : Nat} (h : i < data.length) (hj : j = i + 1) :
    [data[i]] ++ data.drop j = data.drop i := by
  rw [hj, List.singleton_append]
  exact (List.drop_eq_getElem_cons h).symm

theorem le32_word32 (v : ByteVec 4) : le32 (Guarded.word32 v) = v.bytes := by
  have hlt : leValue v.bytes < 2 ^ 32 := by simpa using leValue_lt v.bytes
  rw [le32, Guarded.word32, UInt32.toNat_ofNat_of_lt' hlt]
  simpa using leBytes_leValue v.bytes

theorem le64_word64 (v : ByteVec 8) : le64 (Guarded.word64 v) = v.bytes := by
  have hlt : leValue v.bytes < 2 ^ 64 := by simpa using leValue_lt v.bytes
  rw [le64, Guarded.word64, UInt64.toNat_ofNat_of_lt' hlt]
  simpa using leBytes_leValue v.bytes

end Binary
