import Kageb.Program.Runtime

/-! Approvals: instructions to the Ed25519 verifier in one strict layout, and how many keypers
approve a digest in front of the running instruction. -/

namespace Kageb

open Binary Checks

def verifierDataLen : Nat := 144

structure StrictEd25519 where
  signer : Pubkey
  digest : Bytes32
  deriving DecidableEq

def readU16 (data : Bytes) (offset : Nat) : Except ProgramError UInt16 := do
  rejectIf (data.length < offset + 2) KagebError.invalidLock
  .ok (UInt16.ofNat (leValue (slice data offset (offset + 2))))

/-- The word of a strict approval at `offset` is `value`. -/
def requireU16 (data : Bytes) (offset : Nat) (value : UInt16) : Except ProgramError Unit := do
  let word ← readU16 data offset
  rejectIf (word ≠ value) KagebError.invalidLock

def parseStrictEd25519 (instruction : Instruction) : Except ProgramError StrictEd25519 := do
  let data := instruction.data
  rejectIf (instruction.programId ≠ ed25519ProgramId ∨ instruction.accounts ≠ [] ∨
    data.length ≠ verifierDataLen ∨ data[0]? ≠ some 1 ∨ data[1]? ≠ some 0) KagebError.invalidLock
  requireU16 data 2 48
  requireU16 data 4 0xffff
  requireU16 data 6 16
  requireU16 data 8 0xffff
  requireU16 data 10 112
  requireU16 data 12 32
  requireU16 data 14 0xffff
  let signer ← okOr (ByteVec.ofBytes? 32 (slice data 16 48)) (KagebError.invalidLock : ProgramError)
  let digest ← okOr (ByteVec.ofBytes? 32 (slice data 112 144)) (KagebError.invalidLock : ProgramError)
  .ok { signer, digest }

/-- `[bool; 3]`: which keypers have been seen. -/
structure Matched where
  first : Bool
  second : Bool
  third : Bool
  deriving DecidableEq

namespace Matched

def none : Matched := ⟨false, false, false⟩

def set (m : Matched) : Nat → Matched
  | 0 => { m with first := true }
  | 1 => { m with second := true }
  | _ => { m with third := true }

-- `filter(|value| *value).count() as u8`
def count (m : Matched) : UInt8 := UInt8.ofNat ([m.first, m.second, m.third].count true)

end Matched

/-- One pass of the counting loops: an approval of `digest` by a configured keyper sets the place
where that key stands first. -/
def noteApproval (keypers : Keypers) (digest : Bytes32) (matched : Matched)
    (instruction : Instruction) : Matched :=
  match parseStrictEd25519 instruction with
  | .error _ => matched
  | .ok parsed =>
    if parsed.digest ≠ digest then matched
    else
      match keypers.toList.findIdx? (fun keyper => keyper = parsed.signer) with
      | some index => matched.set index
      | Option.none => matched

def countMatchingKeypers (instructions : List Instruction) (keypers : Keypers) (digest : Bytes32) :
    UInt8 :=
  (instructions.foldl (noteApproval keypers digest) Matched.none).count

-- `load_instruction_at_checked`
def InstructionsSysvar.loadInstructionAtChecked (tx : InstructionsSysvar) (index : Nat) :
    Except ProgramError Instruction :=
  okOr tx.instructions[index]? (.runtime 0)

def countPrecedingKeypers (tx : InstructionsSysvar) (keypers : Keypers) (digest : Bytes32) :
    Except ProgramError UInt8 := do
  let matched ← (List.range tx.currentIndex.toNat).foldlM (fun matched index => do
    let instruction ← tx.loadInstructionAtChecked index
    .ok (noteApproval keypers digest matched instruction)) Matched.none
  .ok matched.count

end Kageb
