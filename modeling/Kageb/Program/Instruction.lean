import Kageb.Program.State

/-! The six instructions of the program and their bytes. -/

namespace Kageb

open Binary Binary.Codec Checks

structure InitializePoolArgs where
  lockThreshold : UInt8
  settlementThreshold : UInt8
  baseLotAtoms : UInt64
  keypers : Keypers
  deriving DecidableEq

structure CreateEpochArgs where
  epochId : Bytes32
  minimumCount : UInt32
  quoteAtomsPerLot : UInt64
  lockDeadline : Int64
  abortDeadline : Int64
  deriving DecidableEq

/-- The four fields of a settlement that its instruction carries; the other eleven are taken from
the pool and the epoch. -/
structure CompactSettlementPayload where
  resultCommitment : Bytes32
  residualSide : UInt8
  residualLots : UInt32
  settlementNonce : Bytes32
  deriving DecidableEq

def CompactSettlementPayload.ofPayload (p : SettlementPayloadV1) : CompactSettlementPayload where
  resultCommitment := p.resultCommitment
  residualSide := p.residualSide
  residualLots := p.residualLots
  settlementNonce := p.settlementNonce

inductive KagebInstruction where
  | initializePool (args : InitializePoolArgs)
  | createEpoch (args : CreateEpochArgs)
  | lock (payload : LockPayloadV1)
  | settle (payload : CompactSettlementPayload)
  | expire
  | abort
  deriving DecidableEq

def InitializePoolArgs.layout : Codec InitializePoolArgs :=
  (byte.pair <| byte.pair <| u64.pair Keypers.layout).iso
    ⟨fun a => (a.lockThreshold, a.settlementThreshold, a.baseLotAtoms, a.keypers),
      fun (lockThreshold, settlementThreshold, baseLotAtoms, keypers) =>
        { lockThreshold, settlementThreshold, baseLotAtoms, keypers },
      fun _ => rfl, fun _ => rfl⟩

def CreateEpochArgs.layout : Codec CreateEpochArgs :=
  ((array 32).pair <| u32.pair <| u64.pair <| i64.pair i64).iso
    ⟨fun a => (a.epochId, a.minimumCount, a.quoteAtomsPerLot, a.lockDeadline, a.abortDeadline),
      fun (epochId, minimumCount, quoteAtomsPerLot, lockDeadline, abortDeadline) =>
        { epochId, minimumCount, quoteAtomsPerLot, lockDeadline, abortDeadline },
      fun _ => rfl, fun _ => rfl⟩

def CompactSettlementPayload.layout : Codec CompactSettlementPayload :=
  ((array 32).pair <| byte.pair <| u32.pair (array 32)).iso
    ⟨fun p => (p.resultCommitment, p.residualSide, p.residualLots, p.settlementNonce),
      fun (resultCommitment, residualSide, residualLots, settlementNonce) =>
        { resultCommitment, residualSide, residualLots, settlementNonce },
      fun _ => rfl, fun _ => rfl⟩

namespace KagebInstruction

def encode : KagebInstruction → Bytes
  | initializePool args => 0 :: InitializePoolArgs.layout.encode args
  | createEpoch args => 1 :: CreateEpochArgs.layout.encode args
  | lock payload => 2 :: payload.encode
  | settle payload => 3 :: CompactSettlementPayload.layout.encode payload
  | expire => [4]
  | abort => [5]

/-- The first byte selects the instruction; the rest must be exactly its arguments. -/
def decode (data : Bytes) : Except ProgramError KagebInstruction :=
  let instruction? : Option KagebInstruction :=
    match data with
    | [] => none
    | tag :: rest =>
      if tag = 0 then (InitializePoolArgs.layout.read rest).map initializePool
      else if tag = 1 then (CreateEpochArgs.layout.read rest).map createEpoch
      else if tag = 2 then (LockPayloadV1.decode rest).map lock
      else if tag = 3 then (CompactSettlementPayload.layout.read rest).map settle
      else if tag = 4 then (if rest = [] then some expire else none)
      else if tag = 5 then (if rest = [] then some abort else none)
      else none
  okOr instruction? KagebError.invalidInstruction

end KagebInstruction

end Kageb
