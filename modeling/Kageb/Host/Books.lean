import Kageb.Host.Accounts
import Kageb.Lib.History

/-! The books of the operator: the two journals and every call on them, and the law that each
write and each answer obeys. What the journals hold is read off the log of a run. -/

namespace Kageb

open Binary Checks Files Maps

/-- What can be called on one account journal and one reservation journal. -/
inductive BooksOp (host : Host) where
  | openAccounts
  | openReservations
  | register (participantId : Bytes32) (tradingKey : VerifyingKey host) (balance : PoolBalance)
  -- `ReservationRecord::new` makes every record that is reserved
  | reserve (record : ReservationRecord) (fresh : record.state = .reserved) (available : PoolBalance)
  | finalizeSettlement (epochId : Bytes32) (batch : NettedBatch) (reservationNonces : List Bytes32)
  | releaseReservations (terminalEpoch : ConfirmedTerminalEpoch) (reservationNonces : List Bytes32)

/-- Nobody removes a journal. -/
def booksMachine (host : Host) : Machine BooksFile BooksFile UInt8 where
  Op := BooksOp host
  Result
    | .openAccounts => Except AccountError Unit
    | .openReservations => Except JournalError Unit
    | .register .. => Except AccountError Unit
    | .reserve .. => Except JournalError UnsignedFundedAuthorizationV1
    | .finalizeSettlement .. => Except AccountError Unit
    | .releaseReservations .. => Except AccountError Unit
  code
    | .openAccounts => (AccountJournal.open host).run
    | .openReservations => (ReservationJournal.open host).run
    | .register participantId tradingKey balance =>
      (AccountJournal.register host participantId tradingKey balance).run
    | .reserve record _ available => (ReservationJournal.reserve host record available).run
    | .finalizeSettlement epochId batch nonces =>
      (finalizeSettlement host epochId batch.result nonces).run
    | .releaseReservations terminalEpoch nonces => (releaseReservations host terminalEpoch nonces).run
  removable _ := False

abbrev BooksEvent (host : Host) : Type := Files.Event (booksMachine host)

abbrev BooksLog (host : Host) : Type := List (BooksEvent host)

abbrev BooksWorld (host : Host) : Type := World (booksMachine host)

abbrev BooksState (host : Host) : Type 1 := State (booksMachine host)

/-- Neither journal has been made. -/
def BooksState.initial (host : Host) : BooksState host := State.initial BooksFile fun _ => none

section Stored

variable {host : Host}

variable (host) in
/-- The accounts in the bytes of a file, none if there is no file. -/
def storedAccounts (bytes : Option Bytes) : AccountState :=
  (bytes.bind fun bytes => (decodeAccounts host bytes).toOption).getD .empty

variable (host) in
def storedReservations (bytes : Option Bytes) : Reservations :=
  (bytes.bind fun bytes => (decodeReservations host bytes).toOption).getD ∅

/-- What the writes in a log have left in a journal. -/
def journalAfter (log : BooksLog host) : BooksFile → Option Bytes := contentOf (fun _ => none) log

def accountsAfter (log : BooksLog host) : AccountState :=
  storedAccounts host (journalAfter log .accounts)

def reservationsAfter (log : BooksLog host) : Reservations :=
  storedReservations host (journalAfter log .reservations)

/-! ### The law -/

/-- The nonces name reservations of the epoch that were not released, one for each member. -/
def Covered (epochId : Bytes32) (reservations : Reservations) (nonces : List Bytes32)
    (members : Finset Bytes32) : Prop :=
  ∃ records, Selected epochId .released reservations nonces records ∧
    nonces.length = members.card ∧
    (records.map ReservationRecord.participantId).toFinset = members

/-- What a call may write to the account journal, when the journals hold this. -/
inductive AccountWrite (accounts : AccountState) (reservations : Reservations) :
    BooksOp host → AccountState → Prop
  | open : AccountWrite accounts reservations .openAccounts accounts
  | register {p : Bytes32} {key : VerifyingKey host} {balance : PoolBalance}
      {accounts' : AccountState} : p ≠ zero32 →
      ¬(balance.baseAtoms = 0 ∧ balance.quoteAtoms = 0) →
      registerIn p key.bytes balance accounts = .ok accounts' →
      AccountWrite accounts reservations (.register p key balance) accounts'
  | settle {epochId : Bytes32} {batch : NettedBatch} {nonces : List Bytes32}
      {accounts' : AccountState} : epochId ≠ zero32 →
      Covered epochId reservations nonces batch.result.members →
      applyIn host epochId batch.result accounts = .ok accounts' →
      AccountWrite accounts reservations (.finalizeSettlement epochId batch nonces) accounts'

/-- What a call may write to the reservation journal, when the journals hold this. -/
inductive ReservationWrite (accounts : AccountState) (reservations : Reservations) :
    BooksOp host → Reservations → Prop
  | open : ReservationWrite accounts reservations .openReservations reservations
  | reserve {record : ReservationRecord} {fresh : record.state = .reserved}
      {available : PoolBalance} {reservations' : Reservations} :
      reserveIn record available reservations = .ok reservations' →
      ReservationWrite accounts reservations (.reserve record fresh available) reservations'
  | use {epochId : Bytes32} {batch : NettedBatch} {nonces : List Bytes32} :
      accounts.appliedEpochs[epochId]? = some (settlementDigest host batch.result) →
      Covered epochId reservations nonces batch.result.members →
      ReservationWrite accounts reservations (.finalizeSettlement epochId batch nonces)
        (reservations.advance .used nonces)
  | release {terminalEpoch : ConfirmedTerminalEpoch} {nonces : List Bytes32}
      {records : List ReservationRecord} : terminalEpoch.epochId ∉ accounts.appliedEpochs →
      Selected terminalEpoch.epochId .used reservations nonces records →
      ReservationWrite accounts reservations (.releaseReservations terminalEpoch nonces)
        (reservations.advance .released nonces)

/-- The call has written nothing. -/
def NoWrites (i : Nat) (log : BooksLog host) : Prop :=
  ∀ op file old new, .wrote i op file old new ∉ log

/-- An I/O error, of either journal. -/
inductive AccountError.IsIo : AccountError → Prop
  | accounts (kind : ErrorKind) : IsIo (.io kind)
  | reservations (kind : ErrorKind) : IsIo (.reservation (.io kind))

/-- A lock that someone else holds. -/
inductive AccountError.IsBusy : AccountError → Prop
  | accounts : IsBusy .busy
  | reservations : IsBusy (.reservation .busy)

/-- What the answer to a release says of the journals as they were during the call. -/
def ReleaseAnswer (log : BooksLog host) (epochId : Bytes32) (nonces : List Bytes32) :
    Except AccountError Unit → Prop
  | .ok () => epochId ∉ (accountsAfter log).appliedEpochs
  | .error e => e = .staleSettlement ∨ e.IsIo ∨ e.IsBusy ∨
      ∃ reason, e = .reservation reason ∧
        Refused epochId .used (reservationsAfter log) nonces reason

/-- What an answer says of what happened before. -/
def AnswerLaw (older : BooksLog host) (i : Nat) :
    (op : (booksMachine host).Op) → (booksMachine host).Result op → Prop
  | .finalizeSettlement _ _ _, result => ∀ e, result = .error e → ¬e.IsIo → NoWrites i older
  | .releaseReservations terminalEpoch nonces, result => ∃ during, during <:+ older ∧
      .started i (.releaseReservations terminalEpoch nonces) ∈ during ∧
      ReleaseAnswer during terminalEpoch.epochId nonces result
  | _, _ => True

def BooksLaw (older : BooksLog host) : BooksEvent host → Prop
  | .started _ _ => True
  | .wrote _ op .accounts old new => old = journalAfter older .accounts ∧
      ∃ accounts, encodeAccounts host accounts = .ok new ∧
        AccountWrite (accountsAfter older) (reservationsAfter older) op accounts
  | .wrote _ op .reservations old new => old = journalAfter older .reservations ∧
      ∃ reservations, encodeReservations host reservations = .ok new ∧
        ReservationWrite (accountsAfter older) (reservationsAfter older) op reservations
  | .returned i op result => AnswerLaw older i op result
  | .removed _ => False

/-! ### What the journals hold -/

section Read

variable {log : BooksLog host} {i : Nat} {op : (booksMachine host).Op} {old : Option Bytes}
  {new : Bytes}

@[simp] theorem accountsAfter_started : accountsAfter (.started i op :: log) = accountsAfter log :=
  rfl

@[simp] theorem reservationsAfter_started :
    reservationsAfter (.started i op :: log) = reservationsAfter log := rfl

@[simp] theorem accountsAfter_returned {result : (booksMachine host).Result op} :
    accountsAfter (.returned i op result :: log) = accountsAfter log := rfl

@[simp] theorem reservationsAfter_returned {result : (booksMachine host).Result op} :
    reservationsAfter (.returned i op result :: log) = reservationsAfter log := rfl

@[simp] theorem accountsAfter_wrote_reservations :
    accountsAfter (.wrote i op .reservations old new :: log) = accountsAfter log := rfl

@[simp] theorem reservationsAfter_wrote_accounts :
    reservationsAfter (.wrote i op .accounts old new :: log) = reservationsAfter log := rfl

theorem storedAccounts_encode {accounts : AccountState} (hvalid : accounts.Valid host)
    (hnew : encodeAccounts host accounts = .ok new) : storedAccounts host (some new) = accounts := by
  rw [storedAccounts, Option.bind_some, decodeAccounts_encode hvalid hnew]
  rfl

theorem storedReservations_encode {reservations : Reservations} (hkeyed : reservations.Keyed)
    (hnew : encodeReservations host reservations = .ok new) :
    storedReservations host (some new) = reservations := by
  rw [storedReservations, Option.bind_some, decodeReservations_encode hkeyed hnew]
  rfl

theorem accountsAfter_wrote {accounts : AccountState} (hvalid : accounts.Valid host)
    (hnew : encodeAccounts host accounts = .ok new) :
    accountsAfter (.wrote i op .accounts old new :: log) = accounts :=
  storedAccounts_encode hvalid hnew

theorem reservationsAfter_wrote {reservations : Reservations} (hkeyed : reservations.Keyed)
    (hnew : encodeReservations host reservations = .ok new) :
    reservationsAfter (.wrote i op .reservations old new :: log) = reservations :=
  storedReservations_encode hkeyed hnew

end Read

theorem AccountWrite.valid (hhash : ∀ m, host.sha256 m ≠ zero32) {accounts accounts' : AccountState}
    {reservations : Reservations} {op : BooksOp host} (hvalid : accounts.Valid host)
    (h : AccountWrite accounts reservations op accounts') : accounts'.Valid host := by
  cases h with
  | «open» => exact hvalid
  | register hp hbalance hregister => exact hvalid.register hp hbalance hregister
  | settle hepoch hcovered happly =>
    rcases (applyIn_ok.mp happly).2 with ⟨-, rfl⟩ | ⟨-, hcurrent, rfl⟩
    · exact hvalid
    · exact hvalid.commit hepoch (hhash _) hcurrent

theorem Reservations.Keyed.advance {reservations : Reservations} (h : reservations.Keyed)
    (next : ReservationState) (nonces : List Bytes32) : (reservations.advance next nonces).Keyed := by
  intro n r hr
  rw [Reservations.getElem?_advance, Option.map_eq_some_iff] at hr
  obtain ⟨r, hr, rfl⟩ := hr
  split <;> exact h n r hr

theorem reserveIn_ok {record : ReservationRecord} {available : PoolBalance}
    {reservations reservations' : Reservations}
    (h : reserveIn record available reservations = .ok reservations') :
    record.nonce ∉ reservations ∧ reservations' = reservations.insert record.nonce record := by
  simp only [reserveIn, bind_ok, Unique.exists_iff, rejectIf_eq_ok] at h
  obtain ⟨hnew, -, -, -, -, -, -, -, hok⟩ := h
  exact ⟨hnew, (Except.ok.inj hok).symm⟩

theorem ReservationWrite.keyed {accounts : AccountState} {reservations reservations' : Reservations}
    {op : BooksOp host} (hkeyed : reservations.Keyed)
    (h : ReservationWrite accounts reservations op reservations') : reservations'.Keyed := by
  cases h with
  | «open» => exact hkeyed
  | reserve hreserve =>
    obtain ⟨-, rfl⟩ := reserveIn_ok hreserve
    intro n r hr
    rw [Map.getElem?_insert] at hr
    split_ifs at hr with hn
    · cases hr
      exact hn
    · exact hkeyed n r hr
  | use => exact hkeyed.advance _ _
  | release => exact hkeyed.advance _ _

/-- What is in the journals is what is read from them. -/
structure Legible (log : BooksLog host) : Prop where
  accounts : (accountsAfter log).Valid host
  reservations : (reservationsAfter log).Keyed
  accountBytes : ∀ bytes, journalAfter log .accounts = some bytes →
    encodeAccounts host (accountsAfter log) = .ok bytes
  reservationBytes : ∀ bytes, journalAfter log .reservations = some bytes →
    encodeReservations host (reservationsAfter log) = .ok bytes

theorem legible_of_lawful (hhash : ∀ m, host.sha256 m ≠ zero32) {log : BooksLog host}
    (h : Lawful BooksLaw log) : Legible log := by
  induction log with
  | nil =>
    refine ⟨AccountState.valid_empty host, fun n r hr => ?_, ?_, ?_⟩
    · have hnone : (∅ : Reservations)[n]? = some r := hr
      simp at hnone
    · rintro bytes ⟨⟩
    · rintro bytes ⟨⟩
  | cons event log ih =>
    obtain ⟨hevent, hlog⟩ := h
    obtain ⟨hvalid, hkeyed, haccounts, hreservations⟩ := ih hlog
    cases event with
    | started i op => exact ⟨hvalid, hkeyed, haccounts, hreservations⟩
    | returned i op result => exact ⟨hvalid, hkeyed, haccounts, hreservations⟩
    | removed file => exact hevent.elim
    | wrote i op file old new =>
      cases file with
      | accounts =>
        obtain ⟨-, accounts, hnew, hwrite⟩ := hevent
        have hvalid' := hwrite.valid hhash hvalid
        refine ⟨?_, hkeyed, ?_, hreservations⟩
        · rwa [accountsAfter_wrote hvalid' hnew]
        · intro bytes hbytes
          cases hbytes
          rwa [accountsAfter_wrote hvalid' hnew]
      | reservations =>
        obtain ⟨-, reservations, hnew, hwrite⟩ := hevent
        have hkeyed' := hwrite.keyed hkeyed
        refine ⟨hvalid, ?_, haccounts, ?_⟩
        · rwa [reservationsAfter_wrote hkeyed' hnew]
        · intro bytes hbytes
          cases hbytes
          rwa [reservationsAfter_wrote hkeyed' hnew]

end Stored

end Kageb
