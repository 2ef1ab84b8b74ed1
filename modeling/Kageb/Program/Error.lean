import Kageb.Program.Wire

/-! The errors of the program. -/

namespace Kageb

inductive KagebError where
  | invalidInstruction
  | invalidAccounts
  | missingSignature
  | invalidOwner
  | invalidPda
  | invalidState
  | invalidConfiguration
  | invalidTokenAccount
  | deadlinePassed
  | deadlineNotReached
  | crowdBelowMinimum
  | invalidLock
  | insufficientQuorum
  | arithmeticOverflow
  | invalidSettlement
  deriving DecidableEq

def KagebError.code : KagebError → UInt32
  | invalidInstruction => 1
  | invalidAccounts => 2
  | missingSignature => 3
  | invalidOwner => 4
  | invalidPda => 5
  | invalidState => 6
  | invalidConfiguration => 7
  | invalidTokenAccount => 8
  | deadlinePassed => 9
  | deadlineNotReached => 10
  | crowdBelowMinimum => 11
  | invalidLock => 12
  | insufficientQuorum => 13
  | arithmeticOverflow => 14
  | invalidSettlement => 15

/-- `ProgramError`: the program's own errors, the two others it returns itself, and those that
calls to the runtime return. -/
inductive ProgramError where
  | custom (code : UInt32)
  | incorrectProgramId
  | invalidAccountData
  | runtime (code : UInt64)
  deriving DecidableEq

instance : Coe KagebError ProgramError := ⟨fun e => .custom e.code⟩

end Kageb
