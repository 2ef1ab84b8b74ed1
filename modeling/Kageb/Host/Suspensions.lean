import Kageb.Host.Accounts
import Kageb.Host.Formats

/-! The suspension registry: the trading keys that get no authorization any more, and the call that
issues one. -/

namespace Kageb

open Binary Checks Files Maps Tables

inductive SuspensionError where
  | io (kind : ErrorKind)
  | busy
  | corrupt
  | suspended
  | capacity
  deriving DecidableEq

/-- `SUSPENSION_HEADER`, the bytes of `KGBSUS1\0`. -/
def suspensionHeader : Bytes := [75, 71, 66, 83, 85, 83, 49, 0]

def tradingKeyLen : Nat := 32

/-- A `BTreeSet`, which is a `BTreeMap` to the unit type. -/
abbrev TradingKeys := Map Bytes32 Unit

/-- The registry is the only file, and the lock beside it the only lock. -/
abbrev SuspensionCall := ExceptT SuspensionError (Call Unit Unit UInt8)

section Format

variable (host : Host)

def decodeTradingKey (encoded : Bytes) : Except SuspensionError (Bytes32 × Unit) := do
  let tradingKey ← okOr (ByteVec.ofBytes? tradingKeyLen encoded) .corrupt
  .ok (tradingKey, ())

/-- What `load_suspensions` makes of the bytes of the file. -/
def decodeSuspensions (bytes : Bytes) : Except SuspensionError TradingKeys :=
  decodeTable host.sha256 suspensionHeader tradingKeyLen .corrupt decodeTradingKey bytes

/-- The bytes that `persist_suspensions` writes. -/
def encodeSuspensions (tradingKeys : TradingKeys) : Except SuspensionError Bytes :=
  encodeTable host.sha256 suspensionHeader .capacity (fun entry => entry.1.bytes) tradingKeys

end Format

namespace SuspensionRegistry

variable (host : Host)

/-- `acquire_suspension_lock`. -/
def lockRefused : Acquired → Option SuspensionError
  | .locked => none
  | .busy => some .busy
  | .failed kind => some (.io kind)

def locked {α : Type} (body : SuspensionCall α) : SuspensionCall α :=
  Call.guarded () lockRefused body

def loadSuspensions : SuspensionCall TradingKeys := do
  let bytes ← ExceptT.adapt .io (Call.attempt (.read ()))
  Call.lift (decodeSuspensions host bytes)

def persistSuspensions (tradingKeys : TradingKeys) : SuspensionCall Unit := do
  let bytes ← Call.lift (encodeSuspensions host tradingKeys)
  ExceptT.adapt .io (Call.persist () bytes)

def create (there : Bool) : SuspensionCall Unit :=
  if there then Call.lift (.ok ()) else persistSuspensions host ∅

def «open» : SuspensionCall TradingKeys :=
  locked do
    let there ← Call.isThere ()
    create host there
    loadSuspensions host

/-- The keys of the handle after the call. -/
def suspend (tradingKey : Bytes32) : SuspensionCall TradingKeys :=
  locked do
    let current ← loadSuspensions host
    let current := current.insert tradingKey ()
    persistSuspensions host current
    Call.lift (.ok current)

def issueAuthorization (reserved : UnsignedFundedAuthorizationV1) (tradingKey : VerifyingKey host)
    (operator : host.SigningKey) (expirySlot : UInt64) : SuspensionCall FundedAuthorizationV1 :=
  locked do
    let current ← loadSuspensions host
    Call.lift (rejectIf (tradingKey.bytes ∈ current) .suspended)
    Call.lift (.ok (FundedAuthorizationV1.sign host reserved tradingKey.bytes operator expirySlot))

end SuspensionRegistry

/-- What can be called on one registry. -/
inductive SuspensionOp (host : Host) where
  | «open»
  | suspend (tradingKey : Bytes32)
  | issueAuthorization (reserved : UnsignedFundedAuthorizationV1) (tradingKey : VerifyingKey host)
      (operator : host.SigningKey) (expirySlot : UInt64)

/-- Nobody removes the registry. -/
def suspensionMachine (host : Host) : Machine Unit Unit UInt8 where
  Op := SuspensionOp host
  Result
    | .open => Except SuspensionError TradingKeys
    | .suspend _ => Except SuspensionError TradingKeys
    | .issueAuthorization .. => Except SuspensionError FundedAuthorizationV1
  code
    | .open => (SuspensionRegistry.open host).run
    | .suspend tradingKey => (SuspensionRegistry.suspend host tradingKey).run
    | .issueAuthorization reserved tradingKey operator expirySlot =>
      (SuspensionRegistry.issueAuthorization host reserved tradingKey operator expirySlot).run
  removable _ := False

/-! ### The format -/

variable {host : Host}

theorem decodeTradingKey_ok {encoded : Bytes} {entry : Bytes32 × Unit} :
    decodeTradingKey encoded = .ok entry ↔ encoded = entry.1.bytes := by
  simp only [decodeTradingKey, bind_ok, okOr_eq_ok, ByteVec.ofBytes?_eq_some, Except.ok.injEq]
  constructor
  · rintro ⟨tradingKey, rfl, rfl⟩
    rfl
  · intro h
    exact ⟨entry.1, h, rfl⟩

theorem decodeSuspensions_encode {tradingKeys : TradingKeys} {bytes : Bytes}
    (h : encodeSuspensions host tradingKeys = .ok bytes) :
    decodeSuspensions host bytes = .ok tradingKeys :=
  decodeTable_encodeTable (fun entry _ => entry.1.length_bytes)
    (fun _ _ => decodeTradingKey_ok.mpr rfl) h

end Kageb
