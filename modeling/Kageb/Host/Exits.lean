import Kageb.Host.Consumption
import Kageb.Host.Gates

/-! The ways out of a reservation: what the release and the settlement of an epoch do with it when
nobody disturbs them, and which reservations no call moves any more. -/

namespace Kageb

open Binary Checks Files Maps Runs

section Exec

variable {host : Host} {i : Nat} {op : (booksMachine host).Op} {held : Finset BooksFile}
  {w : BooksWorld host} {accounts : AccountState} {reservations : Reservations}
  {accountBytes reservationBytes : Bytes} {epochId : Bytes32} {result : BatchResult}
  {nonces : List Bytes32}

/-- Both journals, held in the form in which they are written. -/
structure Stored (w : BooksWorld host) (accounts : AccountState) (reservations : Reservations)
    (accountBytes reservationBytes : Bytes) : Prop where
  accountFile : w.files .accounts = some accountBytes
  accountsEncoded : encodeAccounts host accounts = .ok accountBytes
  accountsDecoded : decodeAccounts host accountBytes = .ok accounts
  reservationFile : w.files .reservations = some reservationBytes
  reservationsEncoded : encodeReservations host reservations = .ok reservationBytes
  reservationsDecoded : decodeReservations host reservationBytes = .ok reservations

theorem Stored.exec_confirmUsed (h : Stored w accounts reservations accountBytes reservationBytes)
    (hheld : .accounts ∉ held) (hadUsed : Bool) :
    ∃ x, exec i op (confirmUsed host epochId result hadUsed).run held w = (x, held, w) := by
  cases hadUsed with
  | false => exact ⟨_, rfl⟩
  | true =>
    simp only [confirmUsed, if_true, exec_run_bind, AccountJournal.settlementMatches,
      exec_reload hheld h.accountFile h.accountsDecoded, thenRun_ok, exec_lift]
    exact ⟨_, rfl⟩

/-- The settlement of a batch is applied and written, or nothing is. -/
theorem Stored.exec_settle (h : Stored w accounts reservations accountBytes reservationBytes)
    (hheld : .accounts ∉ held) (hadUsed : Bool) :
    (∃ e, exec i op (do
        confirmUsed host epochId result hadUsed
        AccountJournal.applySettlement host epochId result : AccountCall Unit).run held w =
      (.error e, held, w)) ∨
    ∃ accounts' new, applyIn host epochId result accounts = .ok accounts' ∧
      exec i op (do
        confirmUsed host epochId result hadUsed
        AccountJournal.applySettlement host epochId result : AccountCall Unit).run held w =
      (.ok (), held, w.write i op .accounts new) := by
  obtain ⟨x, hx⟩ := @Stored.exec_confirmUsed host i op held w _ _ _ _ epochId result h hheld hadUsed
  rw [exec_run_bind, hx]
  rcases x with e | ⟨⟩
  · exact .inl ⟨e, rfl⟩
  rw [thenRun_ok, AccountJournal.applySettlement, exec_run_bind, exec_lift]
  rcases hzero : rejectIf (epochId = zero32) AccountError.staleSettlement with e | ⟨⟩
  · exact .inl ⟨e, rfl⟩
  rw [thenRun_ok]
  rcases happly : applyIn host epochId result accounts with e | accounts'
  · exact .inl ⟨e, exec_mutate_error hheld h.accountFile h.accountsDecoded happly⟩
  rcases hnew : encodeAccounts host accounts' with e | new
  · refine .inl ⟨e, ?_⟩
    rw [AccountJournal.mutate, AccountJournal.locked, exec_guarded hheld rfl, exec_run_bind,
      exec_load h.accountFile h.accountsDecoded]
    simp only [thenRun_ok, exec_run_bind, exec_lift, happly, AccountJournal.persist, hnew,
      thenRun_error, Finset.erase_insert hheld]
  · exact .inr ⟨accounts', new, rfl,
      exec_mutate_ok hheld h.accountFile h.accountsDecoded happly hnew⟩

/-- The settlement of an epoch uses a batch of reservations, or changes nothing. -/
theorem Stored.exec_finalizeSettlement
    (h : Stored w accounts reservations accountBytes reservationBytes) :
    (∃ e, exec i op (finalizeSettlement host epochId result nonces).run ∅ w = (.error e, ∅, w)) ∨
    Covered epochId reservations nonces result.members ∧
      (∃ accounts', applyIn host epochId result accounts = .ok accounts') ∧
      ∃ w' new, exec i op (finalizeSettlement host epochId result nonces).run ∅ w = (.ok (), ∅, w') ∧
        w'.files .reservations = some new ∧
        encodeReservations host (reservations.advance .used nonces) = .ok new := by
  have hheld : BooksFile.accounts ∉ ({.reservations} : Finset BooksFile) := by decide
  have hfree : ({.reservations} : Finset BooksFile).erase .reservations = ∅ := by decide
  rw [finalizeSettlement, exec_run_bind, exec_adapt, ReservationJournal.finalizeEpoch,
    ReservationJournal.locked, exec_guarded (Finset.notMem_empty _) rfl, exec_run_bind,
    exec_loadRecords h.reservationFile h.reservationsDecoded, thenRun_ok, exec_run_bind, exec_lift,
    insert_empty_eq]
  rcases hselect : selectRecords epochId .released reservations ∅ nonces with e | records
  · exact .inl ⟨.reservation e, by simp only [thenRun_error, Except.mapError, hfree]⟩
  have hselected := (selectRecords_ok.mp hselect).2
  rw [thenRun_ok, exec_run_bind, exec_lift]
  rcases hcheck : rejectIf (nonces.length ≠ result.members.card ∨
      (records.map ReservationRecord.participantId).toFinset ≠ result.members)
      JournalError.invalidTransition with e | ⟨⟩
  · exact .inl ⟨.reservation e, by simp only [thenRun_error, Except.mapError, hfree]⟩
  rw [rejectIf_eq_ok, not_or, not_not, not_not] at hcheck
  rw [thenRun_ok, exec_run_bind, exec_inner, thenRun_ok]
  rcases @Stored.exec_settle host i op _ w _ _ _ _ epochId result h hheld
    (records.any fun record => record.state = .used) with
    ⟨e, hexec⟩ | ⟨accounts', new, happly, hexec⟩
  · refine .inl ⟨e, ?_⟩
    simp only [hexec, ReservationJournal.finish, exec_lift, Except.mapError, thenRun_ok, hfree]
  · obtain ⟨w', new', hfinish, -, hfile, hnew⟩ :=
      @exec_finish host i op {.reservations} (w.write i op .accounts new) reservations
        reservationBytes AccountError .used nonces (by simp) hselected.known h.reservationFile
        h.reservationsEncoded
    refine .inr ⟨⟨records, hselected, hcheck⟩, ⟨accounts', happly⟩, w', new', ?_, hfile, hnew⟩
    simp only [hexec, hfinish, Except.mapError, thenRun_ok, exec_lift, hfree]

/-- The batch may be released: its epoch has no settlement, and none of its reservations is used. -/
def Releasable (accounts : AccountState) (reservations : Reservations) (epochId : Bytes32)
    (nonces : List Bytes32) : Prop :=
  epochId ∉ accounts.appliedEpochs ∧
    ∃ records, Selected epochId .used reservations nonces records

/-- The release of an epoch releases the batch, if it may be released, or changes nothing. -/
theorem Stored.exec_releaseReservations
    (h : Stored w accounts reservations accountBytes reservationBytes)
    {terminalEpoch : ConfirmedTerminalEpoch} :
    (¬Releasable accounts reservations terminalEpoch.epochId nonces ∧
      ∃ e, exec i op (releaseReservations host terminalEpoch nonces).run ∅ w = (.error e, ∅, w)) ∨
    Releasable accounts reservations terminalEpoch.epochId nonces ∧
      ∃ w' new, exec i op (releaseReservations host terminalEpoch nonces).run ∅ w =
          (.ok (), ∅, w') ∧
        w'.files .reservations = some new ∧
        encodeReservations host (reservations.advance .released nonces) = .ok new := by
  have hheld : BooksFile.accounts ∉ ({.reservations} : Finset BooksFile) := by decide
  have hfree : ({.reservations} : Finset BooksFile).erase .reservations = ∅ := by decide
  rw [releaseReservations, exec_run_bind, exec_adapt, ReservationJournal.releaseEpochChecked,
    ReservationJournal.locked, exec_guarded (Finset.notMem_empty _) rfl, exec_run_bind,
    exec_loadRecords h.reservationFile h.reservationsDecoded, thenRun_ok, exec_run_bind, exec_lift,
    insert_empty_eq]
  rcases hselect : selectRecords terminalEpoch.epochId .used reservations ∅ nonces with e | records
  · refine .inl ⟨?_, .reservation e, by simp only [thenRun_error, Except.mapError, hfree]⟩
    rintro ⟨-, records, hselected⟩
    cases hselect.symm.trans (selectRecords_ok.mpr ⟨by simp, hselected⟩)
  have hselected := (selectRecords_ok.mp hselect).2
  rw [thenRun_ok, exec_run_bind, exec_inner, thenRun_ok, exec_run_bind,
    AccountJournal.hasAppliedEpoch, exec_run_bind, exec_reload hheld h.accountFile h.accountsDecoded,
    thenRun_ok, exec_lift, thenRun_ok, exec_lift]
  by_cases happlied : terminalEpoch.epochId ∈ accounts.appliedEpochs
  · refine .inl ⟨fun hrelease => hrelease.1 happlied, .staleSettlement, ?_⟩
    simp only [rejectIf, happlied, decide_true, if_true, ReservationJournal.finish, exec_lift,
      Except.mapError, thenRun_ok, hfree]
  · obtain ⟨w', new, hfinish, -, hfile, hnew⟩ :=
      @exec_finish host i op {.reservations} w reservations reservationBytes AccountError .released
        nonces (by simp) hselected.known h.reservationFile h.reservationsEncoded
    refine .inr ⟨⟨happlied, records, hselected⟩, w', new, ?_, hfile, hnew⟩
    simp only [rejectIf, happlied, decide_false, Bool.false_eq_true, if_false, hfinish,
      Except.mapError, thenRun_ok, exec_lift, hfree]

end Exec

/-! ### The ways out -/

section Exits

variable {host : Host}

/-- Both journals were opened, as whoever has a handle on them knows. -/
def BooksState.Opened (s : BooksState host) : Prop := ∀ file, (s.world.files file).isSome

variable {s : BooksState host} {n : Bytes32} {r : ReservationRecord}

theorem reservationsIn_solo {op : (booksMachine host).Op} {result : (booksMachine host).Result op}
    {held : Finset BooksFile} {w : BooksWorld host} {reservations : Reservations} {new : Bytes}
    (hexec : exec s.next op ((booksMachine host).code op) ∅
      (s.world.note (.started s.next op)) = (result, held, w))
    (hfile : w.files .reservations = some new) (hkeyed : reservations.Keyed)
    (hnew : encodeReservations host reservations = .ok new) :
    reservationsIn (s.solo op) = reservations := by
  rw [reservationsIn, State.solo_world hexec]
  exact (congrArg (storedReservations host) hfile).trans (storedReservations_encode hkeyed hnew)

theorem reservationsIn_solo_unchanged {op : (booksMachine host).Op}
    {result : (booksMachine host).Result op} {held : Finset BooksFile}
    (hexec : exec s.next op ((booksMachine host).code op) ∅
      (s.world.note (.started s.next op)) = (result, held, s.world.note (.started s.next op))) :
    reservationsIn (s.solo op) = reservationsIn s := by
  rw [reservationsIn, State.solo_world hexec]
  rfl

variable (hhash : ∀ m, host.sha256 m ≠ zero32)

include hhash

/-- Both journals can be read wherever a run has got. -/
theorem stored_of_reaches (hs : Reaches (BooksState.initial host) s) (hopened : s.Opened) :
    ∃ accountBytes reservationBytes,
      Stored s.world (accountsIn s) (reservationsIn s) accountBytes reservationBytes := by
  have hvalid := books_valid hhash hs
  have hlegible := hvalid.legible hhash
  obtain ⟨accountBytes, haccounts⟩ := Option.isSome_iff_exists.mp (hopened .accounts)
  obtain ⟨reservationBytes, hreservations⟩ := Option.isSome_iff_exists.mp (hopened .reservations)
  have haccountsEncoded := hlegible.accountBytes _ (hvalid.files ▸ haccounts)
  have hreservationsEncoded := hlegible.reservationBytes _ (hvalid.files ▸ hreservations)
  rw [accountsIn_eq hhash hs, reservationsIn_eq hhash hs]
  exact ⟨accountBytes, reservationBytes, haccounts, haccountsEncoded,
    decodeAccounts_encode hlegible.accounts haccountsEncoded, hreservations, hreservationsEncoded,
    decodeReservations_encode hlegible.reservations hreservationsEncoded⟩

theorem keyed_of_reaches (hs : Reaches (BooksState.initial host) s) : (reservationsIn s).Keyed := by
  rw [reservationsIn_eq hhash hs]
  exact ((books_valid hhash hs).legible hhash).reservations

theorem solo_release (hs : Reaches (BooksState.initial host) s) (hopened : s.Opened)
    (terminalEpoch : ConfirmedTerminalEpoch) (nonces : List Bytes32) :
    (¬Releasable (accountsIn s) (reservationsIn s) terminalEpoch.epochId nonces ∧
      (∃ e, s.told (.releaseReservations terminalEpoch nonces) =
        (.error e : Except AccountError Unit)) ∧
      reservationsIn (s.solo (.releaseReservations terminalEpoch nonces)) = reservationsIn s) ∨
    Releasable (accountsIn s) (reservationsIn s) terminalEpoch.epochId nonces ∧
      s.told (.releaseReservations terminalEpoch nonces) = (.ok () : Except AccountError Unit) ∧
      reservationsIn (s.solo (.releaseReservations terminalEpoch nonces)) =
        (reservationsIn s).advance .released nonces := by
  obtain ⟨accountBytes, reservationBytes, h⟩ := stored_of_reaches hhash hs hopened
  rcases @Stored.exec_releaseReservations host s.next
      (.releaseReservations terminalEpoch nonces)
      (s.world.note (.started s.next (.releaseReservations terminalEpoch nonces))) _ _ _ _ nonces
      ⟨h.1, h.2, h.3, h.4, h.5, h.6⟩ terminalEpoch with
    ⟨hnot, e, hexec⟩ | ⟨hrelease, w', new, hexec, hfile, hnew⟩
  · exact .inl ⟨hnot, ⟨e, congrArg Prod.fst hexec⟩, reservationsIn_solo_unchanged hexec⟩
  · exact .inr ⟨hrelease, congrArg Prod.fst hexec,
      reservationsIn_solo hexec hfile ((keyed_of_reaches hhash hs).advance _ _) hnew⟩

end Exits

namespace Sample

/-- The reservation waits for the epoch of the first settlement. -/
def waits (s : BooksState host) (n p : Bytes32) : Bool :=
  (s.world.files .accounts).isSome && (s.world.files .reservations).isSome &&
    (reservationsIn s)[n]?.any fun r =>
      decide (r.state = .reserved ∧ r.epochId = key 81 ∧ r.participantId = p)

end Sample

end Kageb
