import Kageb.Lib.Checks
import Kageb.Program.Error

/-! The two kinds of account that the program owns, a pool and an epoch, and their 384 bytes. -/

namespace Kageb

open Binary Binary.Codec Checks

def stateLen : Nat := 384

/-- `POOL_DISCRIMINATOR`, the bytes of `KAGEPOOL`. -/
def poolDiscriminator : Bytes := [75, 65, 71, 69, 80, 79, 79, 76]

/-- `EPOCH_DISCRIMINATOR`, the bytes of `KAGEEPCH`. -/
def epochDiscriminator : Bytes := [75, 65, 71, 69, 69, 80, 67, 72]

def stateVersion : UInt8 := 1

inductive EpochTerminalState where
  | open
  | locked
  | settled
  | expired
  | aborted
  deriving DecidableEq

namespace EpochTerminalState

def toByte : EpochTerminalState → UInt8
  | .open => 1
  | locked => 2
  | settled => 3
  | expired => 4
  | aborted => 5

def ofByte? (b : UInt8) : Option EpochTerminalState :=
  if b = 1 then some .open
  else if b = 2 then some locked
  else if b = 3 then some settled
  else if b = 4 then some expired
  else if b = 5 then some aborted
  else none

theorem ofByte?_toByte (s : EpochTerminalState) : ofByte? s.toByte = some s := by
  cases s <;> decide

theorem toByte_of_ofByte? {b : UInt8} {s : EpochTerminalState} (h : ofByte? b = some s) :
    s.toByte = b := by
  unfold ofByte? at h
  split_ifs at h <;> cases h <;> simp_all [toByte]

def layout : Codec EpochTerminalState :=
  byte.via toByte ofByte? ofByte?_toByte fun _ _ => toByte_of_ofByte?

end EpochTerminalState

structure PoolStateV1 where
  poolBump : UInt8
  vaultBump : UInt8
  lockThreshold : UInt8
  settlementThreshold : UInt8
  operator : Pubkey
  baseMint : Pubkey
  quoteMint : Pubkey
  poolBaseVault : Pubkey
  poolQuoteVault : Pubkey
  venueAuthority : Pubkey
  venueBaseAccount : Pubkey
  venueQuoteAccount : Pubkey
  keypers : Keypers
  baseLotAtoms : UInt64
  deriving DecidableEq

namespace PoolStateV1

/-- Bytes 0 to 9 are the discriminator and the version, 9 to 13 the bumps and thresholds, 13 to 16
zero, 16 to 368 the eleven keys, 368 to 376 the lot size, and the rest zero. -/
def layout : Codec PoolStateV1 :=
  ((((byte.pair <| byte.pair <| byte.pair byte).padded [0, 0, 0]).pair <|
    ((array 32).pair <| (array 32).pair <| (array 32).pair <| (array 32).pair <|
      (array 32).pair <| (array 32).pair <| (array 32).pair <| (array 32).pair <|
      Keypers.layout.pair u64).padded (List.replicate 8 0)).iso
    ⟨fun s => ((s.poolBump, s.vaultBump, s.lockThreshold, s.settlementThreshold), s.operator,
        s.baseMint, s.quoteMint, s.poolBaseVault, s.poolQuoteVault, s.venueAuthority,
        s.venueBaseAccount, s.venueQuoteAccount, s.keypers, s.baseLotAtoms),
      fun ((poolBump, vaultBump, lockThreshold, settlementThreshold), operator, baseMint,
        quoteMint, poolBaseVault, poolQuoteVault, venueAuthority, venueBaseAccount,
        venueQuoteAccount, keypers, baseLotAtoms) =>
        { poolBump, vaultBump, lockThreshold, settlementThreshold, operator, baseMint, quoteMint,
          poolBaseVault, poolQuoteVault, venueAuthority, venueBaseAccount, venueQuoteAccount,
          keypers, baseLotAtoms },
      fun _ => rfl, fun _ => rfl⟩).tagged (poolDiscriminator ++ [stateVersion])

def encode (s : PoolStateV1) : Bytes := layout.encode s

def decode (data : Bytes) : Except ProgramError PoolStateV1 :=
  okOr (layout.read data) .invalidAccountData

end PoolStateV1

structure EpochStateV1 where
  epochBump : UInt8
  terminalState : EpochTerminalState
  residualSide : UInt8
  pool : Pubkey
  epochId : Bytes32
  configurationHash : Bytes32
  preBalanceRoot : Bytes32
  memberRoot : Bytes32
  lockDigest : Bytes32
  resultCommitment : Bytes32
  settlementDigest : Bytes32
  lockNonce : Bytes32
  settlementNonce : Bytes32
  memberCount : UInt32
  minimumCount : UInt32
  residualLots : UInt32
  baseLotAtoms : UInt64
  quoteAtomsPerLot : UInt64
  lockDeadline : Int64
  abortDeadline : Int64
  deriving DecidableEq

namespace EpochStateV1

/-- Bytes 0 to 9 are the discriminator and the version, 9 to 12 the bump, the state and the side,
12 to 16 zero, 16 to 336 the ten keys, roots, digests and nonces, 336 to 380 the words, and the
rest zero. -/
def layout : Codec EpochStateV1 :=
  ((((byte.pair <| EpochTerminalState.layout.pair byte).padded [0, 0, 0, 0]).pair <|
    ((array 32).pair <| (array 32).pair <| (array 32).pair <| (array 32).pair <|
      (array 32).pair <| (array 32).pair <| (array 32).pair <| (array 32).pair <|
      (array 32).pair <| (array 32).pair <| u32.pair <| u32.pair <| u32.pair <| u64.pair <|
      u64.pair <| i64.pair i64).padded [0, 0, 0, 0]).iso
    ⟨fun s => ((s.epochBump, s.terminalState, s.residualSide), s.pool, s.epochId,
        s.configurationHash, s.preBalanceRoot, s.memberRoot, s.lockDigest, s.resultCommitment,
        s.settlementDigest, s.lockNonce, s.settlementNonce, s.memberCount, s.minimumCount,
        s.residualLots, s.baseLotAtoms, s.quoteAtomsPerLot, s.lockDeadline, s.abortDeadline),
      fun ((epochBump, terminalState, residualSide), pool, epochId, configurationHash,
        preBalanceRoot, memberRoot, lockDigest, resultCommitment, settlementDigest, lockNonce,
        settlementNonce, memberCount, minimumCount, residualLots, baseLotAtoms, quoteAtomsPerLot,
        lockDeadline, abortDeadline) =>
        { epochBump, terminalState, residualSide, pool, epochId, configurationHash,
          preBalanceRoot, memberRoot, lockDigest, resultCommitment, settlementDigest, lockNonce,
          settlementNonce, memberCount, minimumCount, residualLots, baseLotAtoms,
          quoteAtomsPerLot, lockDeadline, abortDeadline },
      fun _ => rfl, fun _ => rfl⟩).tagged (epochDiscriminator ++ [stateVersion])

def encode (s : EpochStateV1) : Bytes := layout.encode s

def decode (data : Bytes) : Except ProgramError EpochStateV1 :=
  okOr (layout.read data) .invalidAccountData

end EpochStateV1

/-! ### What is read back -/

theorem PoolStateV1.decode_eq_ok {data : Bytes} {s : PoolStateV1} :
    PoolStateV1.decode data = .ok s ↔ data = s.encode := by
  simp [PoolStateV1.decode, PoolStateV1.encode, Codec.read_eq_some]

theorem EpochStateV1.decode_eq_ok {data : Bytes} {s : EpochStateV1} :
    EpochStateV1.decode data = .ok s ↔ data = s.encode := by
  simp [EpochStateV1.decode, EpochStateV1.encode, Codec.read_eq_some]

theorem PoolStateV1.encode_injective : Function.Injective PoolStateV1.encode :=
  PoolStateV1.layout.encode_injective

theorem EpochStateV1.encode_injective : Function.Injective EpochStateV1.encode :=
  EpochStateV1.layout.encode_injective

theorem PoolStateV1.encode_length (s : PoolStateV1) : s.encode.length = stateLen :=
  Width.tagged (Width.iso (Width.pair
    ((byte_width.pair <| byte_width.pair <| byte_width.pair byte_width).padded _)
    (((array_width 32).pair <| (array_width 32).pair <| (array_width 32).pair <|
      (array_width 32).pair <| (array_width 32).pair <| (array_width 32).pair <|
      (array_width 32).pair <| (array_width 32).pair <|
      Keypers.layout_width.pair u64_width).padded _)) _) _ s

theorem EpochStateV1.encode_length (s : EpochStateV1) : s.encode.length = stateLen := by
  have hstate : EpochTerminalState.layout.Width 1 := fun _ => rfl
  have hhead := (byte_width.pair <| hstate.pair byte_width).padded [0, 0, 0, 0]
  have hwords := u32_width.pair <| u32_width.pair <| u32_width.pair <| u64_width.pair <|
    u64_width.pair <| i64_width.pair i64_width
  have hbody := ((array_width 32).pair <| (array_width 32).pair <| (array_width 32).pair <|
    (array_width 32).pair <| (array_width 32).pair <| (array_width 32).pair <|
    (array_width 32).pair <| (array_width 32).pair <| (array_width 32).pair <|
    (array_width 32).pair hwords).padded [0, 0, 0, 0]
  exact ((hhead.pair hbody).iso _).tagged _ s

/-- The fifth byte of the discriminator tells a pool from an epoch. -/
theorem PoolStateV1.encode_ne_epoch (p : PoolStateV1) (e : EpochStateV1) : p.encode ≠ e.encode := by
  intro h
  have h5 := congrArg (fun bs : Bytes => bs[4]?) h
  simp [PoolStateV1.encode, PoolStateV1.layout, EpochStateV1.encode, EpochStateV1.layout,
    Codec.tagged, poolDiscriminator, epochDiscriminator] at h5

theorem PoolStateV1.encode_head (p : PoolStateV1) : p.encode[0]? = some 75 := by
  simp [PoolStateV1.encode, PoolStateV1.layout, Codec.tagged, poolDiscriminator]

theorem EpochStateV1.encode_head (e : EpochStateV1) : e.encode[0]? = some 75 := by
  simp [EpochStateV1.encode, EpochStateV1.layout, Codec.tagged, epochDiscriminator]

end Kageb
