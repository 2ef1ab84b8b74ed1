import Kageb.Lib.Codec

/-! The payloads that keypers sign, and the epoch configuration that a lock commits to: their
encodings and digests. -/

namespace Kageb

open Binary Binary.Codec

abbrev Bytes32 := ByteVec 32

abbrev Bytes64 := ByteVec 64

abbrev Pubkey := ByteVec 32

-- What maps and lists of keys ask for, by name.
instance transCmp_bytes32 : Std.TransCmp (compare : Bytes32 → Bytes32 → Ordering) := inferInstance

instance lawfulBEq_bytes32 : LawfulBEq Bytes32 := inferInstance

def zero32 : Bytes32 := ByteVec.zero 32

structure Keypers where
  first : Pubkey
  second : Pubkey
  third : Pubkey
  deriving DecidableEq

def Keypers.toList (k : Keypers) : List Pubkey := [k.first, k.second, k.third]

def Keypers.layout : Codec Keypers :=
  ((array 32).pair <| (array 32).pair <| array 32).iso
    ⟨fun k => (k.first, k.second, k.third), fun (a, b, c) => ⟨a, b, c⟩, fun _ => rfl, fun _ => rfl⟩

theorem Keypers.layout_width : Keypers.layout.Width 96 :=
  ((array_width 32).pair <| (array_width 32).pair <| array_width 32).iso _

/-- `CONFIG_DOMAIN`, the bytes of `KAGEB_CONFIG_V1\0`. -/
def configDomain : Bytes := [75, 65, 71, 69, 66, 95, 67, 79, 78, 70, 73, 71, 95, 86, 49, 0]

/-- `LOCK_DOMAIN`, the bytes of `KAGEB_LOCK_V1\0`. -/
def lockDomain : Bytes := [75, 65, 71, 69, 66, 95, 76, 79, 67, 75, 95, 86, 49, 0]

/-- `SETTLEMENT_DOMAIN`, the bytes of `KAGEB_SETTLEMENT_V1\0`. -/
def settlementDomain : Bytes :=
  [75, 65, 71, 69, 66, 95, 83, 69, 84, 84, 76, 69, 77, 69, 78, 84, 95, 86, 49, 0]

def domainMessage (domain bytes : Bytes) : Bytes := domain ++ bytes

def domainHash (sha256 : Bytes → Bytes32) (domain bytes : Bytes) : Bytes32 :=
  sha256 (domainMessage domain bytes)

structure EpochConfigurationV1 where
  pool : Pubkey
  epochId : Bytes32
  baseMint : Pubkey
  quoteMint : Pubkey
  baseLotAtoms : UInt64
  quoteAtomsPerLot : UInt64
  minimumCount : UInt32
  lockThreshold : UInt8
  settlementThreshold : UInt8
  keypers : Keypers
  lockDeadline : Int64
  abortDeadline : Int64
  deriving DecidableEq

namespace EpochConfigurationV1

/-- The 263 bytes of a configuration: the version 1 and the fields in order. -/
def layout : Codec EpochConfigurationV1 :=
  (((array 32).pair <| (array 32).pair <| (array 32).pair <| (array 32).pair <| u64.pair <|
    u64.pair <| u32.pair <| byte.pair <| byte.pair <| Keypers.layout.pair <| i64.pair i64).iso
    ⟨fun c => (c.pool, c.epochId, c.baseMint, c.quoteMint, c.baseLotAtoms, c.quoteAtomsPerLot,
        c.minimumCount, c.lockThreshold, c.settlementThreshold, c.keypers, c.lockDeadline,
        c.abortDeadline),
      fun (pool, epochId, baseMint, quoteMint, baseLotAtoms, quoteAtomsPerLot, minimumCount,
        lockThreshold, settlementThreshold, keypers, lockDeadline, abortDeadline) =>
        { pool, epochId, baseMint, quoteMint, baseLotAtoms, quoteAtomsPerLot, minimumCount,
          lockThreshold, settlementThreshold, keypers, lockDeadline, abortDeadline },
      fun _ => rfl, fun _ => rfl⟩).tagged [1]

def encode (c : EpochConfigurationV1) : Bytes := layout.encode c

def decode (bytes : Bytes) : Option EpochConfigurationV1 := layout.read bytes

def message (c : EpochConfigurationV1) : Bytes := domainMessage configDomain c.encode

def digest (sha256 : Bytes → Bytes32) (c : EpochConfigurationV1) : Bytes32 :=
  domainHash sha256 configDomain c.encode

end EpochConfigurationV1

structure LockPayloadV1 where
  epochAccount : Pubkey
  configurationHash : Bytes32
  preBalanceRoot : Bytes32
  memberRoot : Bytes32
  memberCount : UInt32
  lockDeadline : Int64
  lockNonce : Bytes32
  deriving DecidableEq

namespace LockPayloadV1

/-- The 173 bytes of a lock payload: the version 1 and the fields in order. -/
def layout : Codec LockPayloadV1 :=
  (((array 32).pair <| (array 32).pair <| (array 32).pair <| (array 32).pair <| u32.pair <|
    i64.pair <| array 32).iso
    ⟨fun p => (p.epochAccount, p.configurationHash, p.preBalanceRoot, p.memberRoot, p.memberCount,
        p.lockDeadline, p.lockNonce),
      fun (epochAccount, configurationHash, preBalanceRoot, memberRoot, memberCount, lockDeadline,
        lockNonce) =>
        { epochAccount, configurationHash, preBalanceRoot, memberRoot, memberCount, lockDeadline,
          lockNonce },
      fun _ => rfl, fun _ => rfl⟩).tagged [1]

def encode (p : LockPayloadV1) : Bytes := layout.encode p

def decode (bytes : Bytes) : Option LockPayloadV1 := layout.read bytes

def message (p : LockPayloadV1) : Bytes := domainMessage lockDomain p.encode

def digest (sha256 : Bytes → Bytes32) (p : LockPayloadV1) : Bytes32 :=
  domainHash sha256 lockDomain p.encode

end LockPayloadV1

structure SettlementPayloadV1 where
  epochAccount : Pubkey
  lockDigest : Bytes32
  resultCommitment : Bytes32
  residualSide : UInt8
  residualLots : UInt32
  baseLotAtoms : UInt64
  quoteAtomsPerLot : UInt64
  baseMint : Pubkey
  quoteMint : Pubkey
  poolBaseVault : Pubkey
  poolQuoteVault : Pubkey
  venueBaseAccount : Pubkey
  venueQuoteAccount : Pubkey
  venueAuthority : Pubkey
  settlementNonce : Bytes32
  deriving DecidableEq

namespace SettlementPayloadV1

/-- The 374 bytes of a settlement payload: the version 1 and the fields in order. -/
def layout : Codec SettlementPayloadV1 :=
  (((array 32).pair <| (array 32).pair <| (array 32).pair <| byte.pair <| u32.pair <| u64.pair <|
    u64.pair <| (array 32).pair <| (array 32).pair <| (array 32).pair <| (array 32).pair <|
    (array 32).pair <| (array 32).pair <| (array 32).pair <| array 32).iso
    ⟨fun p => (p.epochAccount, p.lockDigest, p.resultCommitment, p.residualSide, p.residualLots,
        p.baseLotAtoms, p.quoteAtomsPerLot, p.baseMint, p.quoteMint, p.poolBaseVault,
        p.poolQuoteVault, p.venueBaseAccount, p.venueQuoteAccount, p.venueAuthority,
        p.settlementNonce),
      fun (epochAccount, lockDigest, resultCommitment, residualSide, residualLots, baseLotAtoms,
        quoteAtomsPerLot, baseMint, quoteMint, poolBaseVault, poolQuoteVault, venueBaseAccount,
        venueQuoteAccount, venueAuthority, settlementNonce) =>
        { epochAccount, lockDigest, resultCommitment, residualSide, residualLots, baseLotAtoms,
          quoteAtomsPerLot, baseMint, quoteMint, poolBaseVault, poolQuoteVault, venueBaseAccount,
          venueQuoteAccount, venueAuthority, settlementNonce },
      fun _ => rfl, fun _ => rfl⟩).tagged [1]

def encode (p : SettlementPayloadV1) : Bytes := layout.encode p

def decode (bytes : Bytes) : Option SettlementPayloadV1 := layout.read bytes

def message (p : SettlementPayloadV1) : Bytes := domainMessage settlementDomain p.encode

def digest (sha256 : Bytes → Bytes32) (p : SettlementPayloadV1) : Bytes32 :=
  domainHash sha256 settlementDomain p.encode

end SettlementPayloadV1

/-! ### Messages determine payloads -/

theorem LockPayloadV1.message_injective : Function.Injective LockPayloadV1.message := by
  intro p q h
  exact layout.encode_injective (List.append_cancel_left h)

theorem SettlementPayloadV1.message_injective : Function.Injective SettlementPayloadV1.message := by
  intro p q h
  exact layout.encode_injective (List.append_cancel_left h)

theorem EpochConfigurationV1.message_injective :
    Function.Injective EpochConfigurationV1.message := by
  intro p q h
  exact layout.encode_injective (List.append_cancel_left h)

/-- The seventh byte of a message tells a lock from a settlement. -/
theorem lock_message_ne_settlement (p : LockPayloadV1) (q : SettlementPayloadV1) :
    p.message ≠ q.message := by
  intro h
  have h7 := congrArg (fun bs : Bytes => bs[6]?) h
  simp [LockPayloadV1.message, SettlementPayloadV1.message, domainMessage, lockDomain,
    settlementDomain] at h7

end Kageb
