import Kageb.Lib.Parts

/-! Tables read at offsets: the checks of a sealed file and the loops over its records, with every
access that could be out of range. None is, and what the scan returns is what the table holds. -/

namespace Tables

open Binary Checks Maps

variable {ε : Type}

theorem check_bind_congr {α β : Type} {x : Except ε α} {F : α → Guarded ε β} {f : α → Except ε β}
    (h : ∀ a, x = .ok a → F a = Guarded.check (f a)) :
    Guarded.check x >>= F = Guarded.check (x >>= f) := by
  cases hx : x with
  | error e => rfl
  | ok a => exact h a hx

/-- The checks on the length, the header and the checksum; `fields` bytes follow the header. -/
def openSealed (hash : Bytes → ByteVec 32) (header : Bytes) (fields : Nat) (corrupt : ε)
    (bytes : Bytes) : Guarded ε Nat := do
  Guarded.check (rejectIf (bytes.length < header.length + fields + 32) corrupt)
  let head ← Guarded.slice bytes 0 header.length
  Guarded.check (rejectIf (head ≠ header) corrupt)
  let payloadLen := bytes.length - 32
  let payload ← Guarded.slice bytes 0 payloadLen
  let checksum ← Guarded.slice bytes payloadLen bytes.length
  Guarded.check (rejectIf ((hash payload).bytes ≠ checksum) corrupt)
  pure payloadLen

variable {hash : Bytes → ByteVec 32} {header : Bytes} {fields : Nat} {corrupt : ε} {bytes : Bytes}

section Loops

variable {κ α : Type} [LinearOrder κ] {duplicate : ε}

/-- The loop over records that are read at growing offsets. -/
def insertEach (readAt : Nat → Guarded ε (κ × α)) (duplicate : ε) (width : Nat) :
    Nat → Nat → Map κ α → Guarded ε (Map κ α)
  | 0, _, m => pure m
  | count + 1, offset, m => do
    let entry ← readAt offset
    Guarded.check (rejectIf (entry.1 ∈ m) duplicate)
    insertEach readAt duplicate width count (offset + width) (m.insert entry.1 entry.2)

/-- The loop over the parts of a slice. -/
def insertParts (decodeAt : Bytes → Guarded ε (κ × α)) (duplicate : ε) :
    List Bytes → Map κ α → Guarded ε (Map κ α)
  | [], m => pure m
  | part :: parts, m => do
    let entry ← decodeAt part
    Guarded.check (rejectIf (entry.1 ∈ m) duplicate)
    insertParts decodeAt duplicate parts (m.insert entry.1 entry.2)

/-- `chunks_exact`. -/
def chunksExact (width : Nat) (bytes : Bytes) : List Bytes :=
  chunks width (bytes.length / width) bytes

end Loops

/-! ### Files that hold one table -/

section Scan

variable {κ α : Type} [LinearOrder κ] {width : Nat} {decode : Bytes → Except ε (κ × α)}
  {decodeAt : Bytes → Guarded ε (κ × α)}

/-- How many records the file announces, once the length of the file agrees. -/
def scanCount (header : Bytes) (width : Nat) (corrupt : ε) (bytes : Bytes) : Guarded ε Nat := do
  let count ← Guarded.u32 bytes header.length corrupt
  Guarded.check (rejectIf (bytes.length ≠ header.length + 4 + count.toNat * width + 32) corrupt)
  pure count.toNat

/-- The scan that slices each record at its offset. -/
def scanTable (hash : Bytes → ByteVec 32) (header : Bytes) (width : Nat) (corrupt : ε)
    (decodeAt : Bytes → Guarded ε (κ × α)) (bytes : Bytes) : Guarded ε (Map κ α) := do
  let _ ← openSealed hash header 4 corrupt bytes
  let count ← scanCount header width corrupt bytes
  insertEach (fun offset => do
    let part ← Guarded.slice bytes offset (offset + width)
    decodeAt part) corrupt width count (header.length + 4) ∅

/-- The scan that slices all records and goes through the parts. -/
def scanChunks (hash : Bytes → ByteVec 32) (header : Bytes) (width : Nat) (corrupt : ε)
    (decodeAt : Bytes → Guarded ε (κ × α)) (bytes : Bytes) : Guarded ε (Map κ α) := do
  let payloadLen ← openSealed hash header 4 corrupt bytes
  let _ ← scanCount header width corrupt bytes
  let body ← Guarded.slice bytes (header.length + 4) payloadLen
  insertParts decodeAt corrupt (chunksExact width body) ∅

end Scan

/-! ### Reading back -/

/-- A file that a writer and a reader share: no access of the reader is out of range, and what it
accepts can be written and is then read again. -/
structure Rereads {σ : Type} (encode : σ → Except ε Bytes) (scan : Bytes → Guarded ε σ) : Prop where
  ends : ∀ bytes, (scan bytes).Ends
  again : ∀ bytes m, scan bytes = pure m →
    ∃ bytes', encode m = .ok bytes' ∧ scan bytes' = pure m

/-- The file is what is written of some value, and that value is read back from it. -/
def Loads {σ : Type} (encode : σ → Except ε Bytes) (scan : Bytes → Guarded ε σ) (bytes : Bytes) :
    Prop :=
  ∃ m, encode m = .ok bytes ∧ scan bytes = pure m

theorem Rereads.of_decode {σ : Type} {P : σ → Prop} {encode : σ → Except ε Bytes}
    {decode : Bytes → Except ε σ} {scan : Bytes → Guarded ε σ}
    (hscan : ∀ bytes, scan bytes = Guarded.check (decode bytes))
    (hback : ∀ m bytes, P m → encode m = .ok bytes → decode bytes = .ok m)
    (hok : ∀ bytes m, decode bytes = .ok m → P m ∧ ∃ bytes', encode m = .ok bytes') :
    Rereads encode scan where
  ends bytes := ⟨_, hscan bytes⟩
  again bytes m h := by
    rw [hscan, Guarded.check_eq_pure] at h
    obtain ⟨hm, bytes', hbytes⟩ := hok bytes m h
    refine ⟨bytes', hbytes, ?_⟩
    rw [hscan, Guarded.check_eq_pure]
    exact hback m bytes' hm hbytes

end Tables
