import Kageb.Lib.Bytes

/-! Formats: a writer and a reader of byte strings, with the proof that the reader takes from a
string the encoding of one value and nothing else.  Formats of records are built from formats of
their fields, and every format built this way accepts one encoding for each value. -/

namespace Binary

/-- A format for the values of `α`: reading what was written returns the value and the rest of the
string, and what was read was written. -/
structure Codec (α : Type) where
  encode : α → Bytes
  decode : Bytes → Option (α × Bytes)
  decode_append : ∀ a rest, decode (encode a ++ rest) = some (a, rest)
  eq_append : ∀ bs a rest, decode bs = some (a, rest) → bs = encode a ++ rest

namespace Codec

variable {α β γ : Type}

def read (c : Codec α) (bs : Bytes) : Option α :=
  match c.decode bs with
  | some (a, []) => some a
  | _ => none

/-- A string is read as `a` exactly when it is the encoding of `a`. -/
theorem read_eq_some {c : Codec α} {bs : Bytes} {a : α} : c.read bs = some a ↔ bs = c.encode a := by
  constructor
  · intro h
    unfold read at h
    split at h
    · rename_i b hb
      cases h
      simpa using c.eq_append _ _ _ hb
    · cases h
  · rintro rfl
    have h := c.decode_append a []
    rw [List.append_nil] at h
    simp [read, h]

@[simp] theorem read_encode (c : Codec α) (a : α) : c.read (c.encode a) = some a :=
  read_eq_some.mpr rfl

theorem append_inj {c : Codec α} {a b : α} {s t : Bytes} (h : c.encode a ++ s = c.encode b ++ t) :
    a = b ∧ s = t := by
  have ha := c.decode_append a s
  rw [h, c.decode_append] at ha
  simp only [Option.some.injEq, Prod.mk.injEq] at ha
  exact ⟨ha.1.symm, ha.2.symm⟩

theorem encode_injective (c : Codec α) : Function.Injective c.encode := by
  intro a b h
  exact (append_inj (s := []) (t := []) (by simpa using h)).1

def Width (c : Codec α) (n : Nat) : Prop := ∀ a, (c.encode a).length = n

/-! ### Fields -/

def array (n : Nat) : Codec (ByteVec n) where
  encode v := v.bytes
  decode bs := (ByteVec.ofBytes? n (bs.take n)).map fun v => (v, bs.drop n)
  decode_append v rest := by
    have htake : (v.bytes ++ rest).take n = v.bytes := by
      rw [List.take_append_of_le_length (by simp), List.take_of_length_le (by simp)]
    have hdrop : (v.bytes ++ rest).drop n = rest := by
      rw [List.drop_append_of_le_length (by simp), List.drop_of_length_le (by simp)]
      rfl
    rw [htake, hdrop, ByteVec.ofBytes?_eq_some.mpr rfl]
    rfl
  eq_append bs v rest h := by
    simp only [Option.map_eq_some_iff, Prod.mk.injEq] at h
    obtain ⟨w, hw, rfl, rfl⟩ := h
    rw [← ByteVec.ofBytes?_eq_some.mp hw, List.take_append_drop]

def tagged (c : Codec α) (tag : Bytes) : Codec α where
  encode a := tag ++ c.encode a
  decode bs := if tag <+: bs then c.decode (bs.drop tag.length) else none
  decode_append a rest := by
    rw [List.append_assoc, if_pos (List.prefix_append ..), List.drop_left, c.decode_append]
  eq_append bs a rest h := by
    split at h
    · rename_i hp
      obtain ⟨s, rfl⟩ := hp
      rw [List.drop_left] at h
      rw [c.eq_append _ _ _ h, List.append_assoc]
    · cases h

def padded (c : Codec α) (pad : Bytes) : Codec α where
  encode a := c.encode a ++ pad
  decode bs := (c.decode bs).bind fun (a, rest) =>
    if pad <+: rest then some (a, rest.drop pad.length) else none
  decode_append a rest := by
    simp [List.append_assoc, c.decode_append, List.prefix_append]
  eq_append bs a rest h := by
    simp only [Option.bind_eq_some_iff, Prod.exists, Option.ite_none_right_eq_some,
      Option.some.injEq, Prod.mk.injEq] at h
    obtain ⟨b, s, hb, ⟨t, rfl⟩, rfl, rfl⟩ := h
    rw [c.eq_append _ _ _ hb, List.drop_left, List.append_assoc]

def pair (c : Codec α) (d : Codec β) : Codec (α × β) where
  encode p := c.encode p.1 ++ d.encode p.2
  decode bs := (c.decode bs).bind fun (a, rest) => (d.decode rest).map fun (b, rest') => ((a, b), rest')
  decode_append p rest := by
    simp [List.append_assoc, c.decode_append, d.decode_append]
  eq_append bs p rest h := by
    simp only [Option.bind_eq_some_iff, Option.map_eq_some_iff, Prod.exists, Prod.mk.injEq] at h
    obtain ⟨a, s, hs, b, t, ht, rfl, rfl⟩ := h
    rw [c.eq_append _ _ _ hs, d.eq_append _ _ _ ht, List.append_assoc]

/-- A format for `β` from a format for `α`, when `β` is the part of `α` on which `from?` is defined. -/
def via (c : Codec α) (into : β → α) (from? : α → Option β)
    (from_into : ∀ b, from? (into b) = some b) (into_from : ∀ a b, from? a = some b → into b = a) :
    Codec β where
  encode b := c.encode (into b)
  decode bs := (c.decode bs).bind fun (a, rest) => (from? a).map fun b => (b, rest)
  decode_append b rest := by simp [c.decode_append, from_into]
  eq_append bs b rest h := by
    simp only [Option.bind_eq_some_iff, Option.map_eq_some_iff, Prod.exists, Prod.mk.injEq] at h
    obtain ⟨a, s, hs, b', hb', rfl, rfl⟩ := h
    rw [c.eq_append _ _ _ hs, into_from _ _ hb']

def iso (c : Codec α) (e : β ≃ α) : Codec β :=
  c.via e (fun a => some (e.symm a)) (by simp) (by rintro a b h; cases h; simp)

def byte : Codec UInt8 where
  encode b := [b]
  decode
    | [] => none
    | b :: rest => some (b, rest)
  decode_append _ _ := rfl
  eq_append bs b rest h := by
    cases bs with
    | nil => cases h
    | cons c cs => cases h; rfl

def u32 : Codec UInt32 :=
  (array 4).via (fun v => ⟨le32 v, le32_length v⟩) (fun a => some (UInt32.ofNat (leValue a.bytes)))
    (fun v => by simp [le32, leValue_leBytes (show v.toNat < 256 ^ 4 from v.toNat_lt)])
    (by
      rintro a v h
      cases h
      have hlt : leValue a.bytes < 2 ^ 32 := by simpa using leValue_lt a.bytes
      apply ByteVec.ext
      show leBytes 4 (UInt32.ofNat (leValue a.bytes)).toNat = a.bytes
      rw [UInt32.toNat_ofNat_of_lt' hlt]
      simpa using leBytes_leValue a.bytes)

def u64 : Codec UInt64 :=
  (array 8).via (fun v => ⟨le64 v, le64_length v⟩) (fun a => some (UInt64.ofNat (leValue a.bytes)))
    (fun v => by simp [le64, leValue_leBytes (show v.toNat < 256 ^ 8 from v.toNat_lt)])
    (by
      rintro a v h
      cases h
      have hlt : leValue a.bytes < 2 ^ 64 := by simpa using leValue_lt a.bytes
      apply ByteVec.ext
      show leBytes 8 (UInt64.ofNat (leValue a.bytes)).toNat = a.bytes
      rw [UInt64.toNat_ofNat_of_lt' hlt]
      simpa using leBytes_leValue a.bytes)

def i64 : Codec Int64 :=
  u64.iso ⟨Int64.toUInt64, UInt64.toInt64, fun v => by simp, fun v => by simp⟩

/-! ### Widths -/

theorem array_width (n : Nat) : (array n).Width n := fun v => v.length_eq

theorem byte_width : byte.Width 1 := fun _ => rfl

theorem u32_width : u32.Width 4 := le32_length

theorem u64_width : u64.Width 8 := le64_length

theorem i64_width : i64.Width 8 := fun v => le64_length v.toUInt64

theorem Width.read_eq_none {c : Codec α} {n : Nat} (hc : c.Width n) {bs : Bytes}
    (h : bs.length ≠ n) : c.read bs = none := by
  rw [Option.eq_none_iff_forall_ne_some]
  intro a ha
  rw [read_eq_some.mp ha] at h
  exact h (hc a)

theorem Width.pair {c : Codec α} {d : Codec β} {m n : Nat} (hc : c.Width m) (hd : d.Width n) :
    (c.pair d).Width (m + n) := fun p => by
  simp [Codec.pair, hc p.1, hd p.2]

theorem Width.tagged {c : Codec α} {n : Nat} (hc : c.Width n) (tag : Bytes) :
    (c.tagged tag).Width (tag.length + n) := fun a => by
  simp [Codec.tagged, hc a]

theorem Width.padded {c : Codec α} {n : Nat} (hc : c.Width n) (pad : Bytes) :
    (c.padded pad).Width (n + pad.length) := fun a => by
  simp [Codec.padded, hc a]

theorem Width.iso {c : Codec α} {n : Nat} (hc : c.Width n) (e : β ≃ α) : (c.iso e).Width n :=
  fun b => hc (e b)

/-! ### Sequences -/

def decodeMany (c : Codec α) : Nat → Bytes → Option (List α × Bytes)
  | 0, bs => some ([], bs)
  | count + 1, bs => (c.decode bs).bind fun (a, rest) =>
      (decodeMany c count rest).map fun (as, rest') => (a :: as, rest')

theorem decodeMany_append (c : Codec α) (as : List α) (rest : Bytes) :
    c.decodeMany as.length (as.flatMap c.encode ++ rest) = some (as, rest) := by
  induction as with
  | nil => rfl
  | cons a as ih => simp [decodeMany, List.append_assoc, c.decode_append, ih]

/-- Encodings of one positive width can be put one after another without a separator. -/
theorem Width.flatMap_injective {c : Codec α} {n : Nat} (h : c.Width n) (hn : 0 < n) :
    Function.Injective (List.flatMap c.encode) := by
  intro as bs heq
  have hlength : ∀ xs : List α, (xs.flatMap c.encode).length = n * xs.length := by
    intro xs
    induction xs with
    | nil => rfl
    | cons x xs ih =>
      rw [List.flatMap_cons, List.length_append, h x, ih, List.length_cons]
      ring
  have hsame : as.length = bs.length := by
    have := congrArg List.length heq
    rw [hlength, hlength] at this
    exact Nat.eq_of_mul_eq_mul_left hn this
  have has := c.decodeMany_append as []
  rw [heq, hsame, c.decodeMany_append] at has
  simp only [Option.some.injEq, Prod.mk.injEq] at has
  exact has.1.symm

end Codec

end Binary
