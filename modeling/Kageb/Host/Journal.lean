import Kageb.Host.Lock
import Kageb.Lib.Discipline
import Kageb.Lib.Solo
import Kageb.Lib.Tables

/-! The lock journal of a keyper: its file, the marker that says that the file was made once, and
the calls that open the journal, record a digest in it and sign the digest. -/

namespace Kageb

open Binary Checks Files Maps Tables

/-- `JOURNAL_HEADER`, the bytes of `KGBLCK1\0`. -/
def journalHeader : Bytes := [75, 71, 66, 76, 67, 75, 49, 0]

/-- `JOURNAL_INITIALIZED`, the bytes of `KGBINI1\0`. -/
def journalInitialized : Bytes := [75, 71, 66, 73, 78, 73, 49, 0]

def journalRecordLen : Nat := 64

def journalChecksumLen : Nat := 32

/-- The journal at its path, and the marker beside it. -/
inductive JournalFile where
  | journal
  | initialized
  deriving DecidableEq

/-- The lock file beside the journal is the only lock. -/
abbrev JournalCall := ExceptT LockValidationError (Call JournalFile Unit UInt8)

section Format

variable (host : Host)

def decodeRecord (record : Bytes) : Except LockValidationError (Pubkey × Bytes32) := do
  let epoch ← okOr (ByteVec.ofBytes? 32 (slice record 0 32)) .corruptJournal
  let digest ← okOr (ByteVec.ofBytes? 32 (slice record 32 64)) .corruptJournal
  .ok (epoch, digest)

/-- What `load_journal` makes of the bytes of the file. -/
def decodeJournal (bytes : Bytes) : Except LockValidationError (Map Pubkey Bytes32) :=
  decodeTable host.sha256 journalHeader journalRecordLen .corruptJournal decodeRecord bytes

def encodeRecord (record : Pubkey × Bytes32) : Bytes := record.1.bytes ++ record.2.bytes

/-- The bytes that `persist_journal` writes. -/
def encodeJournal (records : Map Pubkey Bytes32) : Except LockValidationError Bytes :=
  encodeTable host.sha256 journalHeader .corruptJournal encodeRecord records

def initializationMarker : Bytes := journalInitialized ++ (host.sha256 journalInitialized).bytes

def loadJournal : JournalCall (Map Pubkey Bytes32) := do
  let bytes ← ExceptT.adapt .io (Call.attempt (.read .journal))
  Call.lift (decodeJournal host bytes)

def persistJournal (records : Map Pubkey Bytes32) : JournalCall Unit := do
  let bytes ← Call.lift (encodeJournal host records)
  ExceptT.adapt .io (Call.persist .journal bytes)

def persistInitializationMarker : JournalCall Unit := do
  ExceptT.adapt .io (Call.attempt (.create .initialized))
  ExceptT.adapt .io (Call.appendAll .initialized (initializationMarker host))
  ExceptT.adapt .io (Call.attempt .sync)

def validateInitializationMarker : JournalCall Unit := do
  let bytes ← ExceptT.adapt .io (Call.attempt (.read .initialized))
  Call.lift (rejectIf (bytes.length ≠ journalInitialized.length + journalChecksumLen ∨
    bytes.take journalInitialized.length ≠ journalInitialized ∨
    (host.sha256 (bytes.take journalInitialized.length)).bytes ≠
      bytes.drop journalInitialized.length) .corruptJournal)

end Format

/-- `JournalFileLock::acquire`. -/
def lockRefused : Acquired → Option LockValidationError
  | .locked => none
  | .busy => some .journalBusy
  | .failed kind => some (.io kind)

def withJournalLock {α : Type} (body : JournalCall α) : JournalCall α :=
  Call.guarded () lockRefused body

namespace LockJournal

variable (host : Host)

def setUp (journal marker : Bool) : JournalCall Unit :=
  match journal, marker with
  | false, false => do
    persistInitializationMarker host
    persistJournal host ∅
  | true, true => validateInitializationMarker host
  | false, true => throw .corruptJournal
  | true, false => throw .corruptJournal

def «open» : JournalCall LockJournal :=
  withJournalLock do
    let journal ← Call.isThere .journal
    let marker ← Call.isThere .initialized
    setUp host journal marker
    let records ← loadJournal host
    return { records }

/-- What `record` does once the journal is loaded. -/
def add (epoch : Pubkey) (digest : Bytes32) (records : Map Pubkey Bytes32) :
    JournalCall LockJournal :=
  match records[epoch]? with
  | some existing => if existing = digest then return { records } else throw .conflictingLock
  | none => do
    let records := records.insert epoch digest
    persistJournal host records
    return { records }

/-- The journal of the handle after the call; an error leaves the handle as it was. -/
def record (epoch : Pubkey) (digest : Bytes32) : JournalCall LockJournal :=
  withJournalLock do
    let journal ← Call.isThere .journal
    Call.lift (rejectIf (journal = false) .corruptJournal)
    let records ← loadJournal host
    add host epoch digest records

end LockJournal

/-- The approval, and the keyper with what its journal now holds. -/
def ReferenceKeyper.signLock {host : Host} (keyper : ReferenceKeyper host)
    (package : LockPackageV1 host) (confirmed : ConfirmedOpenEpoch)
    (secret : KeyperSecretShare host) : JournalCall (LockApprovalV1 × ReferenceKeyper host) := do
  let digest ← Call.lift (keyper.checkLock package confirmed secret)
  let journal ← LockJournal.record host package.epochAccount digest
  return (keyper.approve digest, { keyper with journal })

/-- What can be called on one journal path. -/
inductive JournalOp (host : Host) where
  | «open»
  | signLock (keyper : ReferenceKeyper host) (package : LockPackageV1 host)
      (confirmed : ConfirmedOpenEpoch) (secret : KeyperSecretShare host)

/-- The calls on one journal path, when the files in `removable` may be deleted. -/
def journalMachine (host : Host) (removable : JournalFile → Prop) :
    Machine JournalFile Unit UInt8 where
  Op := JournalOp host
  Result
    | .open => Except LockValidationError LockJournal
    | .signLock .. => Except LockValidationError (LockApprovalV1 × ReferenceKeyper host)
  code
    | .open => (LockJournal.open host).run
    | .signLock keyper package confirmed secret =>
      (keyper.signLock package confirmed secret).run
  removable := removable

/-! ### The format -/

section RoundTrip

variable {host : Host}

theorem encodeRecord_length (record : Pubkey × Bytes32) :
    (encodeRecord record).length = journalRecordLen := by
  simp [encodeRecord, journalRecordLen]

theorem decodeRecord_encodeRecord (record : Pubkey × Bytes32) :
    decodeRecord (encodeRecord record) = .ok record := by
  obtain ⟨epoch, digest⟩ := record
  have hepoch : slice (encodeRecord (epoch, digest)) 0 32 = epoch.bytes :=
    slice_append (a := []) rfl (by simp)
  have hdigest : slice (encodeRecord (epoch, digest)) 32 64 = digest.bytes := by
    have hslice : slice (epoch.bytes ++ digest.bytes ++ []) 32 64 = digest.bytes :=
      slice_append (by simp) (by simp)
    rwa [List.append_nil] at hslice
  simp only [decodeRecord, hepoch, hdigest, ByteVec.ofBytes?_eq_some.mpr rfl]
  rfl

theorem decodeJournal_encodeJournal {records : Map Pubkey Bytes32} {bytes : Bytes}
    (h : encodeJournal host records = .ok bytes) : decodeJournal host bytes = .ok records :=
  decodeTable_encodeTable (fun record _ => encodeRecord_length record)
    (fun record _ => decodeRecord_encodeRecord record) h

end RoundTrip

end Kageb
