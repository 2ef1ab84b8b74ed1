import Mathlib

/-! Byte strings, arrays of bytes of a fixed length with the lexicographic order, slices, and
little-endian words. -/

namespace Binary

abbrev Bytes := List UInt8

@[ext] structure ByteVec (n : Nat) where
  bytes : Bytes
  length_eq : bytes.length = n
  deriving DecidableEq

namespace ByteVec

variable {n : Nat}

@[simp] theorem length_bytes (v : ByteVec n) : v.bytes.length = n := v.length_eq

theorem bytes_injective : Function.Injective (bytes : ByteVec n → Bytes) :=
  fun _ _ h => ByteVec.ext h

@[simp] theorem bytes_inj {a b : ByteVec n} : a.bytes = b.bytes ↔ a = b := bytes_injective.eq_iff

def fill (n : Nat) (b : UInt8) : ByteVec n := ⟨List.replicate n b, by simp⟩

def zero (n : Nat) : ByteVec n := fill n 0

def ofBytes? (n : Nat) (bs : Bytes) : Option (ByteVec n) :=
  if h : bs.length = n then some ⟨bs, h⟩ else none

theorem ofBytes?_eq_some {bs : Bytes} {v : ByteVec n} : ofBytes? n bs = some v ↔ bs = v.bytes := by
  unfold ofBytes?
  split
  · simp [ByteVec.ext_iff]
  · rename_i h
    simp only [reduceCtorEq, false_iff]
    rintro rfl
    exact h v.length_eq

/-- Arrays compare byte by byte from the left. -/
instance : LinearOrder (ByteVec n) :=
  LinearOrder.lift' (fun v => v.bytes.map UInt8.toNat) fun _ _ h =>
    bytes_injective (List.map_injective_iff.mpr (fun _ _ => UInt8.toNat_inj.mp) h)

end ByteVec

def slice (bs : Bytes) (start stop : Nat) : Bytes := (bs.drop start).take (stop - start)

/-- The `n` bytes from `start` on. -/
def arrayAt (bs : Bytes) (start n : Nat) (h : start + n ≤ bs.length) : ByteVec n :=
  ⟨slice bs start (start + n), by simp [slice]; omega⟩

def leBytes : Nat → Nat → Bytes
  | 0, _ => []
  | width + 1, value => UInt8.ofNat (value % 256) :: leBytes width (value / 256)

def leValue : Bytes → Nat
  | [] => 0
  | b :: bs => b.toNat + 256 * leValue bs

@[simp] theorem leBytes_length (width value : Nat) : (leBytes width value).length = width := by
  induction width generalizing value with
  | zero => rfl
  | succ width ih => simp [leBytes, ih]

theorem leValue_lt (bs : Bytes) : leValue bs < 256 ^ bs.length := by
  induction bs with
  | nil => simp [leValue]
  | cons b bs ih =>
    have hb := b.toNat_lt
    simp only [leValue, List.length_cons, pow_succ]
    omega

theorem leValue_leBytes {width value : Nat} (h : value < 256 ^ width) :
    leValue (leBytes width value) = value := by
  induction width generalizing value with
  | zero => simp at h; simp [leBytes, leValue, h]
  | succ width ih =>
    have hdiv : value / 256 < 256 ^ width := by
      rw [Nat.div_lt_iff_lt_mul (by decide)]
      simpa [pow_succ] using h
    have hlow : value % 256 < 256 := Nat.mod_lt _ (by decide)
    simp only [leBytes, leValue, ih hdiv, UInt8.toNat_ofNat']
    omega

theorem leBytes_leValue (bs : Bytes) : leBytes bs.length (leValue bs) = bs := by
  induction bs with
  | nil => rfl
  | cons b bs ih =>
    have hb := b.toNat_lt
    have hmod : (b.toNat + 256 * leValue bs) % 256 = b.toNat := by omega
    have hdiv : (b.toNat + 256 * leValue bs) / 256 = leValue bs := by omega
    simp only [List.length_cons, leBytes, leValue, hmod, hdiv, ih, UInt8.ofNat_toNat]

def le32 (v : UInt32) : Bytes := leBytes 4 v.toNat

def le64 (v : UInt64) : Bytes := leBytes 8 v.toNat

@[simp] theorem le32_length (v : UInt32) : (le32 v).length = 4 := leBytes_length ..

@[simp] theorem le64_length (v : UInt64) : (le64 v).length = 8 := leBytes_length ..

/-- A length as a word of 32 bits, if it fits. -/
def count32 (length : Nat) : Option UInt32 :=
  if length < 2 ^ 32 then some (UInt32.ofNat length) else none

theorem count32_toNat {length : Nat} {count : UInt32} (h : count32 length = some count) :
    count.toNat = length := by
  unfold count32 at h
  split at h
  · rename_i hlt
    rw [← Option.some.inj h, UInt32.toNat_ofNat_of_lt' hlt]
  · cases h

theorem count32_eq_some {length : Nat} {count : UInt32} :
    count32 length = some count ↔ count.toNat = length := by
  refine ⟨count32_toNat, ?_⟩
  rintro rfl
  rw [count32, if_pos count.toNat_lt, UInt32.ofNat_toNat]

theorem exists_word {n : Nat} (h : n < 2 ^ 32) : ∃ count : UInt32, count.toNat = n :=
  ⟨UInt32.ofNat n, UInt32.toNat_ofNat_of_lt' h⟩

theorem leValue_le32 (v : UInt32) : leValue (le32 v) = v.toNat := leValue_leBytes v.toNat_lt

theorem leValue_le64 (v : UInt64) : leValue (le64 v) = v.toNat := leValue_leBytes v.toNat_lt

theorem slice_append {a b c : Bytes} {start stop : Nat} (hstart : a.length = start)
    (hstop : start + b.length = stop) : slice (a ++ b ++ c) start stop = b := by
  have hlength : b.length = stop - start := by omega
  rw [slice, List.append_assoc, List.drop_left' hstart, List.take_left' hlength]

theorem slice_append_right {a rest : Bytes} {start stop : Nat} (h : a.length ≤ start) :
    slice (a ++ rest) start stop = slice rest (start - a.length) (stop - a.length) := by
  have hwidth : stop - a.length - (start - a.length) = stop - start := by omega
  rw [slice, slice, List.drop_append, List.drop_of_length_le h, List.nil_append, hwidth]

theorem slice_append_left {a rest : Bytes} {stop : Nat} (h : a.length = stop) :
    slice (a ++ rest) 0 stop = a := by
  rw [slice, List.drop_zero, Nat.sub_zero, List.take_left' h]

end Binary
