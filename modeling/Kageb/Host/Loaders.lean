import Kageb.Host.Finality
import Kageb.Host.Journal
import Kageb.Host.ReservationRuns
import Kageb.Host.Suspensions
import Kageb.Lib.Scans
import Kageb.Lib.Writes

/-! What the journals have written they can read: the loaders at the offsets of the source, which
never slice outside the file, and the writes of every call, which no loader refuses. -/

namespace Kageb

open Binary Checks Files Maps Tables

variable {host : Host}

/-! ### The loaders at their offsets -/

section Reservations

def ReservationRecord.decodeAt (bytes : Bytes) :
    Guarded JournalError (Bytes32 × ReservationRecord) := do
  Guarded.check (rejectIf (bytes.length ≠ reservationRecordLen) .corrupt)
  let nonce ← Guarded.array 32 bytes 0 .corrupt
  let epochId ← Guarded.array 32 bytes 32 .corrupt
  let participantId ← Guarded.array 32 bytes 64 .corrupt
  let baseAtoms ← Guarded.u64 bytes 96 .corrupt
  let quoteAtoms ← Guarded.u64 bytes 104 .corrupt
  let record ← Guarded.check
    ((new nonce epochId participantId baseAtoms quoteAtoms).mapError fun _ => .corrupt)
  let value ← Guarded.byte bytes 112
  let state ← Guarded.check (ReservationState.tryFrom value)
  pure (nonce, { record with state })

/-- `load_records`. -/
def decodeReservationsAt (host : Host) (bytes : Bytes) : Guarded JournalError Reservations :=
  scanTable host.sha256 reservationHeader reservationRecordLen .corrupt ReservationRecord.decodeAt
    bytes

theorem ReservationRecord.layout_read {bytes : Bytes} {nonce epochId participantId : Bytes32}
    {baseAtoms quoteAtoms : UInt64} {value : UInt8} (hlength : bytes.length = reservationRecordLen)
    (hnonce : PartAt bytes 0 nonce.bytes) (hepoch : PartAt bytes 32 epochId.bytes)
    (hparticipant : PartAt bytes 64 participantId.bytes) (hbase : PartAt bytes 96 (le64 baseAtoms))
    (hquote : PartAt bytes 104 (le64 quoteAtoms)) (hvalue : PartAt bytes 112 [value]) :
    layout.read bytes = some (nonce, epochId, participantId, baseAtoms, quoteAtoms, value) := by
  rw [Codec.read_eq_some, eq_iff_partAt, layout_width]
  change _ ∧ PartAt bytes 0 (_ ++ (_ ++ (_ ++ (le64 baseAtoms ++ (le64 quoteAtoms ++ [value])))))
  simp only [partAt_append, Codec.array, ByteVec.length_bytes, le64_length, Nat.reduceAdd]
  exact ⟨hlength, hnonce, hepoch, hparticipant, hbase, hquote, hvalue⟩

theorem ReservationRecord.decodeAt_eq (bytes : Bytes) :
    decodeAt bytes = Guarded.check (decode bytes) := by
  by_cases hlength : bytes.length = reservationRecordLen
  · have hlong : bytes.length = 113 := hlength
    obtain ⟨nonce, hnonce, hnonceAt⟩ :=
      Guarded.exists_array (n := 32) (show 0 + 32 ≤ bytes.length by omega) JournalError.corrupt
    obtain ⟨epochId, hepoch, hepochAt⟩ :=
      Guarded.exists_array (n := 32) (show 32 + 32 ≤ bytes.length by omega) JournalError.corrupt
    obtain ⟨participantId, hparticipant, hparticipantAt⟩ :=
      Guarded.exists_array (n := 32) (show 64 + 32 ≤ bytes.length by omega) JournalError.corrupt
    obtain ⟨baseAtoms, hbase, hbaseAt⟩ :=
      Guarded.exists_u64 (show 96 + 8 ≤ bytes.length by omega) JournalError.corrupt
    obtain ⟨quoteAtoms, hquote, hquoteAt⟩ :=
      Guarded.exists_u64 (show 104 + 8 ≤ bytes.length by omega) JournalError.corrupt
    obtain ⟨value, hvalue, hvalueAt⟩ :=
      @Guarded.exists_byte JournalError bytes 112 (by omega)
    rw [decode, layout_read hlength hnonceAt hepochAt hparticipantAt hbaseAt hquoteAt hvalueAt]
    simp only [decodeAt, Guarded.reject_of_not (not_not.mpr hlength), hnonce, hepoch, hparticipant,
      hbase, hquote, hvalue, pure_bind]
    refine check_bind_congr fun record _ => ?_
    exact check_bind_congr fun state _ => rfl
  · rw [decodeAt, Guarded.reject_of hlength, decode, layout_width.read_eq_none hlength]
    rfl

end Reservations

section Accounts

def AccountRecord.decodeAt (host : Host) (bytes : Bytes) :
    Guarded AccountError (Bytes32 × AccountRecord) := do
  Guarded.check (rejectIf (bytes.length ≠ accountRecordLen) .corrupt)
  let participantId ← Guarded.array 32 bytes 0 .corrupt
  let tradingKey ← Guarded.array 32 bytes 32 .corrupt
  Guarded.check (rejectIf (host.validKey tradingKey = false) .corrupt)
  let baseAtoms ← Guarded.u64 bytes 64 .corrupt
  let quoteAtoms ← Guarded.u64 bytes 72 .corrupt
  let lastEpoch ← Guarded.array 32 bytes 80 .corrupt
  Guarded.check (rejectIf (participantId = zero32 ∨ (baseAtoms = 0 ∧ quoteAtoms = 0)) .corrupt)
  pure (participantId, ⟨participantId, tradingKey, ⟨baseAtoms, quoteAtoms⟩, lastEpoch⟩)

/-- One turn of the second loop of `load`, up to the insertion. -/
def decodeAppliedEpochAt (bytes : Bytes) (offset : Nat) :
    Guarded AccountError (Bytes32 × Bytes32) := do
  let epoch ← Guarded.array 32 bytes offset .corrupt
  let resultDigest ← Guarded.array 32 bytes (offset + 32) .corrupt
  Guarded.check (rejectIf (epoch = zero32 ∨ resultDigest = zero32) .corrupt)
  pure (epoch, resultDigest)

/-- `load`. -/
def decodeAccountsAt (host : Host) (bytes : Bytes) : Guarded AccountError AccountState := do
  let _ ← openSealed host.sha256 accountHeader 8 .corrupt bytes
  let accountCount ← Guarded.u32 bytes accountHeader.length .corrupt
  let epochCount ← Guarded.u32 bytes (accountHeader.length + 4) .corrupt
  let offset := accountHeader.length + 8
  Guarded.check (rejectIf (bytes.length ≠ offset + accountCount.toNat * accountRecordLen +
    epochCount.toNat * appliedEpochLen + 32) .corrupt)
  let records ← insertEach (fun offset => do
    let part ← Guarded.slice bytes offset (offset + accountRecordLen)
    AccountRecord.decodeAt host part) .corrupt accountRecordLen accountCount.toNat offset ∅
  let appliedEpochs ← insertEach (decodeAppliedEpochAt bytes) .corrupt appliedEpochLen
    epochCount.toNat (offset + accountCount.toNat * accountRecordLen) ∅
  pure ⟨records, appliedEpochs⟩

theorem AccountRecord.layout_read {bytes : Bytes} {participantId tradingKey lastEpoch : Bytes32}
    {baseAtoms quoteAtoms : UInt64} (hlength : bytes.length = accountRecordLen)
    (hparticipant : PartAt bytes 0 participantId.bytes)
    (hkey : PartAt bytes 32 tradingKey.bytes) (hbase : PartAt bytes 64 (le64 baseAtoms))
    (hquote : PartAt bytes 72 (le64 quoteAtoms)) (hlast : PartAt bytes 80 lastEpoch.bytes) :
    layout.read bytes = some (participantId, tradingKey, baseAtoms, quoteAtoms, lastEpoch) := by
  rw [Codec.read_eq_some, eq_iff_partAt, layout_width]
  change _ ∧ PartAt bytes 0 (_ ++ (_ ++ (le64 baseAtoms ++ (le64 quoteAtoms ++ _))))
  simp only [partAt_append, Codec.array, ByteVec.length_bytes, le64_length, Nat.reduceAdd]
  exact ⟨hlength, hparticipant, hkey, hbase, hquote, hlast⟩

theorem AccountRecord.decodeAt_eq (bytes : Bytes) :
    decodeAt host bytes = Guarded.check (decode host bytes) := by
  by_cases hlength : bytes.length = accountRecordLen
  · have hlong : bytes.length = 112 := hlength
    obtain ⟨participantId, hparticipant, hparticipantAt⟩ :=
      Guarded.exists_array (n := 32) (show 0 + 32 ≤ bytes.length by omega) AccountError.corrupt
    obtain ⟨tradingKey, hkey, hkeyAt⟩ :=
      Guarded.exists_array (n := 32) (show 32 + 32 ≤ bytes.length by omega) AccountError.corrupt
    obtain ⟨baseAtoms, hbase, hbaseAt⟩ :=
      Guarded.exists_u64 (show 64 + 8 ≤ bytes.length by omega) AccountError.corrupt
    obtain ⟨quoteAtoms, hquote, hquoteAt⟩ :=
      Guarded.exists_u64 (show 72 + 8 ≤ bytes.length by omega) AccountError.corrupt
    obtain ⟨lastEpoch, hlast, hlastAt⟩ :=
      Guarded.exists_array (n := 32) (show 80 + 32 ≤ bytes.length by omega) AccountError.corrupt
    rw [decode, layout_read hlength hparticipantAt hkeyAt hbaseAt hquoteAt hlastAt]
    simp only [decodeAt, Guarded.reject_of_not (not_not.mpr hlength), hparticipant, hkey, hbase,
      hquote, hlast, pure_bind]
    refine check_bind_congr fun _ _ => ?_
    exact check_bind_congr fun _ _ => rfl
  · rw [decodeAt, Guarded.reject_of hlength, decode, layout_width.read_eq_none hlength]
    rfl

end Accounts

section Keys

/-- `load_suspensions`. -/
def decodeSuspensionsAt (host : Host) (bytes : Bytes) : Guarded SuspensionError TradingKeys :=
  scanChunks host.sha256 suspensionHeader tradingKeyLen .corrupt
    (fun encoded => Guarded.check (decodeTradingKey encoded)) bytes

/-- One turn of the loop of `load_journal`, up to the insertion. -/
def decodeRecordAt (record : Bytes) : Guarded LockValidationError (Pubkey × Bytes32) := do
  let epoch ← Guarded.array 32 record 0 .corruptJournal
  let digest ← Guarded.array 32 record 32 .corruptJournal
  pure (epoch, digest)

/-- `load_journal`. -/
def decodeJournalAt (host : Host) (bytes : Bytes) :
    Guarded LockValidationError (Map Pubkey Bytes32) :=
  scanChunks host.sha256 journalHeader journalRecordLen .corruptJournal decodeRecordAt bytes

end Keys

/-! ### What is loaded -/

/-- What stands in the file of a journal is what was written of a map, and loads as that map. -/
def BooksFile.Loads (host : Host) : BooksFile → Bytes → Prop
  | .accounts => Tables.Loads (encodeAccounts host) (decodeAccountsAt host)
  | .reservations => Tables.Loads (encodeReservations host) (decodeReservationsAt host)

/-- The marker is no map. -/
def JournalFile.Loads (host : Host) : JournalFile → Bytes → Prop
  | .journal => Tables.Loads (encodeJournal host) (decodeJournalAt host)
  | .initialized => fun _ => True

namespace ReservationJournal

end ReservationJournal

namespace AccountJournal

end AccountJournal

/-- What stands in the registry is what was written of a set of keys, and loads as that set. -/
def SuspensionRegistry.Loads (host : Host) (_ : Unit) : Bytes → Prop :=
  Tables.Loads (encodeSuspensions host) (decodeSuspensionsAt host)

namespace SuspensionRegistry

end SuspensionRegistry

end Kageb
