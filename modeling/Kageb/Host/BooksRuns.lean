import Kageb.Host.Books

/-! Every interleaving of calls on the books obeys the law, wherever the calls stop. -/

namespace Kageb

open Binary Checks Files Maps Files.Discipline

section Discipline

variable {host : Host}

/-- The journals hold what the log says, and the log obeys the law. -/
structure BooksValid (w : BooksWorld host) : Prop where
  lawful : Lawful BooksLaw w.log
  files : w.files = journalAfter w.log

/-- What a call that holds some locks can rely on. -/
structure BooksRely (i : Nat) (held : Finset BooksFile) (w w' : BooksWorld host) : Prop where
  log : ∃ newer, w'.log = newer ++ w.log ∧ ∀ e ∈ newer, e.call ≠ some i
  files : ∀ file ∈ held, w'.files file = w.files file
  -- no epoch is applied without the lock of the reservations
  applied : .reservations ∈ held →
    (accountsAfter w'.log).appliedEpochs = (accountsAfter w.log).appliedEpochs

variable (host) in
def booksDiscipline : Discipline (booksMachine host) where
  valid := BooksValid
  rely := BooksRely
  refl _ _ _ := ⟨⟨[], rfl, by simp⟩, fun _ _ => rfl, fun _ => rfl⟩
  trans h h' :=
    { log := by
        obtain ⟨newer, hlog, hcalls⟩ := h.log
        obtain ⟨newer', hlog', hcalls'⟩ := h'.log
        refine ⟨newer' ++ newer, by rw [hlog', hlog, List.append_assoc], fun e he => ?_⟩
        exact (List.mem_append.mp he).elim (hcalls' e) (hcalls e)
      files := fun file hfile => (h'.files file hfile).trans (h.files file hfile)
      applied := fun hheld => (h'.applied hheld).trans (h.applied hheld) }

abbrev BooksLater (i : Nat) (held : Finset BooksFile) (w now : BooksWorld host) : Prop :=
  (booksDiscipline host).Later i held w now

variable {i : Nat} {op : (booksMachine host).Op} {held locks : Finset BooksFile}
  {w now : BooksWorld host}

theorem BooksRely.suffix (h : BooksRely i held w now) : w.log <:+ now.log := by
  obtain ⟨newer, hlog, -⟩ := h.log
  exact ⟨newer, hlog.symm⟩

theorem BooksRely.noWrites (h : BooksRely i held w now) (hw : NoWrites i w.log) :
    NoWrites i now.log := by
  obtain ⟨newer, hlog, hcalls⟩ := h.log
  intro op file old new hmem
  rw [hlog, List.mem_append] at hmem
  rcases hmem with hmem | hmem
  · exact hcalls _ hmem rfl
  · exact hw op file old new hmem

theorem later_fewer {lock : BooksFile} (h : BooksLater i (insert lock held) w now) :
    BooksLater i held w now where
  valid := h.valid
  rely := ⟨h.rely.log, fun file hfile => h.rely.files file (Finset.mem_insert_of_mem hfile),
    fun hheld => h.rely.applied (Finset.mem_insert_of_mem hheld)⟩

theorem later_reservations (h : BooksLater i held w now) (hw : BooksValid w)
    (hheld : .reservations ∈ held) : reservationsAfter now.log = reservationsAfter w.log := by
  have hfiles := h.rely.files .reservations hheld
  rw [h.valid.files, hw.files] at hfiles
  exact congrArg (storedReservations host) hfiles

theorem later_accounts (h : BooksLater i held w now) (hw : BooksValid w)
    (hheld : .accounts ∈ held) : accountsAfter now.log = accountsAfter w.log := by
  have hfiles := h.rely.files .accounts hheld
  rw [h.valid.files, hw.files] at hfiles
  exact congrArg (storedAccounts host) hfiles

/-! ### What one step does -/

theorem booksKeeps_note {event : BooksEvent host} (hw : BooksValid w) (hcall : event.call = some i)
    (hfiles : journalAfter (event :: w.log) = journalAfter w.log) (hlaw : BooksLaw w.log event) :
    (booksDiscipline host).Keeps i held locks w (w.note event) where
  valid := ⟨⟨hlaw, hw.lawful⟩, hw.files.trans hfiles.symm⟩
  rely j locks' hj _ _ :=
    { log := ⟨[event], rfl, by simpa [hcall] using hj.symm⟩
      files := fun _ _ => rfl
      applied := fun _ => by
        have hsame : accountsAfter (event :: w.log) = accountsAfter w.log := by
          rw [accountsAfter, hfiles]
          rfl
        exact congrArg AccountState.appliedEpochs hsame }

theorem booksKeeps_write {file : BooksFile} {new : Bytes} (hw : BooksValid w) (hheld : file ∈ held)
    (hlaw : BooksLaw w.log (.wrote i op file (w.files file) new))
    (happlied : .reservations ∈ held ∨
      (accountsAfter (w.write i op file new).log).appliedEpochs =
        (accountsAfter w.log).appliedEpochs) :
    (booksDiscipline host).Keeps i held held w (w.write i op file new) where
  valid :=
    { lawful := ⟨hlaw, hw.lawful⟩
      files := by
        rw [World.write, hw.files]
        rfl }
  rely j locks' hj hdisjoint _ :=
    { log := ⟨[_], rfl, by simpa [Event.call] using hj.symm⟩
      files := fun other hother => by
        have hne : other ≠ file := by
          rintro rfl
          exact Finset.disjoint_left.mp hdisjoint hother hheld
        exact Function.update_of_ne hne _ _
      applied := fun hlocks =>
        happlied.resolve_left (Finset.disjoint_left.mp hdisjoint hlocks) }

variable (hhash : ∀ m, host.sha256 m ≠ zero32)

include hhash

theorem BooksValid.legible (hw : BooksValid w) : Legible w.log := legible_of_lawful hhash hw.lawful

theorem booksKeeps_accounts {accounts : AccountState} {new : Bytes} (hw : BooksValid w)
    (hheld : .accounts ∈ held) (hnew : encodeAccounts host accounts = .ok new)
    (hwrite : AccountWrite (accountsAfter w.log) (reservationsAfter w.log) op accounts)
    (happlied : .reservations ∈ held ∨
      accounts.appliedEpochs = (accountsAfter w.log).appliedEpochs) :
    (booksDiscipline host).Keeps i held held w (w.write i op .accounts new) := by
  have hvalid := hwrite.valid hhash (hw.legible hhash).accounts
  refine booksKeeps_write hw hheld ⟨congrFun hw.files .accounts, accounts, hnew, hwrite⟩ ?_
  refine happlied.imp_right fun hsame => ?_
  exact (congrArg AccountState.appliedEpochs (accountsAfter_wrote hvalid hnew)).trans hsame

omit hhash in
theorem booksKeeps_reservations {reservations : Reservations} {new : Bytes} (hw : BooksValid w)
    (hheld : .reservations ∈ held) (hnew : encodeReservations host reservations = .ok new)
    (hwrite : ReservationWrite (accountsAfter w.log) (reservationsAfter w.log) op reservations) :
    (booksDiscipline host).Keeps i held held w (w.write i op .reservations new) :=
  booksKeeps_write hw hheld ⟨congrFun hw.files .reservations, reservations, hnew, hwrite⟩
    (Or.inl hheld)

/-! ### Reading and writing a journal -/

omit hhash in
theorem ends_decode {ε α : Type} {file : BooksFile} {io : ErrorKind → ε} {decode : Bytes → Except ε α}
    {post : Except ε α → BooksWorld host → Prop}
    (hok : ∀ w' content, BooksLater i held w w' → journalAfter w'.log file = some content →
      post (decode content) w')
    (herror : ∀ w' kind, BooksLater i held w w' → post (.error (io kind)) w') :
    (booksDiscipline host).Ends i op held w post
      (do
        let bytes ← ExceptT.adapt io (Call.attempt (.read file))
        Call.lift (decode bytes) : ExceptT ε BooksCall α).run := by
  have hread : (booksDiscipline host).Ends i op held w
      (fun r w' => BooksLater i held w w' ∧ match r with
        | .ok content => w'.files file = some content
        | .error e => ∃ kind, e = io kind)
      (ExceptT.adapt io (Call.attempt (.read file))).run := by
    refine ends_adapt (ends_read.mono fun r w' ⟨hlater, hr⟩ => ⟨hlater, ?_⟩)
    cases r with
    | ok content => exact hr content rfl
    | error kind => exact ⟨kind, rfl⟩
  refine hread.bind (fun content w' ⟨hlater, hcontent⟩ => ends_lift ?_)
    fun e w' ⟨hlater, kind, he⟩ => he ▸ herror w' kind hlater
  rw [hlater.valid.files] at hcontent
  exact hok w' content hlater hcontent

/-- What writing a journal comes to. -/
inductive Written {ε : Type} (i : Nat) (op : (booksMachine host).Op) (held : Finset BooksFile)
    (file : BooksFile) (io : ErrorKind → ε) (encoded : Except ε Bytes) (w : BooksWorld host) :
    Except ε Unit → BooksWorld host → Prop
  | failed {e : ε} {w' : BooksWorld host} : encoded = .error e → BooksLater i held w w' →
      Written i op held file io encoded w (.error e) w'
  | idle {kind : ErrorKind} {w' : BooksWorld host} : BooksLater i held w w' →
      Written i op held file io encoded w (.error (io kind)) w'
  | wrote {now w' : BooksWorld host} {new : Bytes} {r : Except ε Unit} :
      BooksLater i held w now → encoded = .ok new →
      BooksLater i held (now.write i op file new) w' →
      (r = .ok () ∨ ∃ kind, r = .error (io kind)) → Written i op held file io encoded w r w'

omit hhash in
theorem ends_encode {ε : Type} {file : BooksFile} {io : ErrorKind → ε} {encoded : Except ε Bytes}
    (hw : BooksValid w)
    (hkeeps : ∀ now new, BooksLater i held w now → encoded = .ok new →
      (booksDiscipline host).Keeps i held held now (now.write i op file new)) :
    (booksDiscipline host).Ends i op held w (Written i op held file io encoded w)
      (do
        let bytes ← Call.lift encoded
        ExceptT.adapt io (Call.persist file bytes) : ExceptT ε BooksCall Unit).run := by
  refine ends_lift_bind (fun new hnew => ends_adapt ?_) fun e he => .failed he (Later.refl hw)
  have hpersist := @ends_persist _ _ _ _ _ _ (booksDiscipline host) i op held w file new
    fun now hnow => hkeeps now new hnow hnew
  refine hpersist.mono fun r w' hr => ?_
  cases r with
  | ok =>
    obtain ⟨now, hnow, hlater⟩ := hr.resolve_left fun h => h.1 rfl
    exact .wrote hnow hnew hlater (Or.inl rfl)
  | error kind =>
    rcases hr with ⟨-, hlater⟩ | ⟨now, hnow, hlater⟩
    · exact .idle hlater
    · exact .wrote hnow hnew hlater (Or.inr ⟨kind, rfl⟩)

/-! ### The calls on the accounts -/

omit hhash in
theorem accounts_lockRefused (acquired : Acquired) :
    AccountJournal.lockRefused acquired = none ↔ acquired = .locked := by
  cases acquired <;> simp [AccountJournal.lockRefused]

/-- An error that says that the call was kept from the accounts. -/
def Kept (e : AccountError) : Prop := e = .busy ∨ ∃ kind, e = .io kind

omit hhash in
theorem accounts_lockRefused_kept {acquired : Acquired} {e : AccountError}
    (h : AccountJournal.lockRefused acquired = some e) : Kept e := by
  cases acquired with
  | locked => cases h
  | busy => exact Or.inl (Option.some.inj h).symm
  | failed kind => exact Or.inr ⟨kind, (Option.some.inj h).symm⟩

/-- What reading the accounts comes to. -/
def AccountsRead (r : Except AccountError AccountState) (w : BooksWorld host) : Prop :=
  match r with
  | .ok accounts => accounts = accountsAfter w.log
  | .error e => Kept e

theorem ends_load : (booksDiscipline host).Ends i op held w
    (fun r w' => BooksLater i held w w' ∧ AccountsRead r w') (AccountJournal.load host).run := by
  refine ends_decode (fun w' content hlater hcontent => ⟨hlater, ?_⟩)
    fun w' kind hlater => ⟨hlater, Or.inr ⟨kind, rfl⟩⟩
  have hlegible := hlater.valid.legible hhash
  rw [decodeAccounts_encode hlegible.accounts (hlegible.accountBytes content hcontent)]
  rfl

theorem ends_reload : (booksDiscipline host).Ends i op held w
    (fun r w' => BooksLater i held w w' ∧ AccountsRead r w') (AccountJournal.reload host).run := by
  refine ends_guarded accounts_lockRefused
    (fun acquired e now he hnow => ⟨hnow, accounts_lockRefused_kept he⟩)
    fun now hfresh hnow => (ends_load hhash).mono fun r w' ⟨hw', hr⟩ later hlater => ?_
  refine ⟨hnow.trans (later_fewer (hw'.trans hlater)), ?_⟩
  cases r with
  | ok accounts =>
    exact hr.trans (later_accounts hlater hw'.valid (Finset.mem_insert_self _ _)).symm
  | error e => exact hr

/-- What a call that changes the accounts comes to. -/
inductive Mutated (i : Nat) (op : (booksMachine host).Op) (held : Finset BooksFile)
    (operation : AccountState → Except AccountError AccountState) (w : BooksWorld host) :
    Except AccountError Unit → BooksWorld host → Prop
  | idle {e : AccountError} {w' : BooksWorld host} : BooksLater i held w w' →
      Mutated i op held operation w (.error e) w'
  | wrote {now w' : BooksWorld host} {accounts : AccountState} {new : Bytes}
      {r : Except AccountError Unit} : BooksLater i held w now →
      operation (accountsAfter now.log) = .ok accounts →
      accountsAfter (now.write i op .accounts new).log = accounts →
      BooksLater i held (now.write i op .accounts new) w' →
      (r = .ok () ∨ ∃ kind, r = .error (.io kind)) → Mutated i op held operation w r w'

theorem ends_mutate {operation : AccountState → Except AccountError AccountState}
    (hlaw : ∀ now accounts, BooksLater i held w now →
      operation (accountsAfter now.log) = .ok accounts →
      AccountWrite (accountsAfter now.log) (reservationsAfter now.log) op accounts ∧
        (.reservations ∈ held ∨ accounts.appliedEpochs = (accountsAfter now.log).appliedEpochs)) :
    (booksDiscipline host).Ends i op held w (Mutated i op held operation w)
      (AccountJournal.mutate host operation).run := by
  refine ends_guarded accounts_lockRefused (fun _ _ now _ hnow => .idle hnow)
    fun now hfresh hnow => ?_
  refine (ends_load hhash).bind (fun state w₁ ⟨hw₁, hstate⟩ => ?_)
    fun e w₁ ⟨hw₁, _⟩ later hlater => .idle (hnow.trans (later_fewer (hw₁.trans hlater)))
  obtain rfl : state = accountsAfter w₁.log := hstate
  refine ends_lift_bind (fun accounts haccounts => ?_)
    fun e _ later hlater => .idle (hnow.trans (later_fewer (hw₁.trans hlater)))
  have hheld := Finset.mem_insert_self BooksFile.accounts held
  -- the accounts stay what they were while the lock is held
  have hlaw' : ∀ now', BooksLater i (insert .accounts held) w₁ now' →
      BooksLater i held w now' ∧ operation (accountsAfter now'.log) = .ok accounts ∧
      AccountWrite (accountsAfter now'.log) (reservationsAfter now'.log) op accounts ∧
      (.reservations ∈ held ∨
        accounts.appliedEpochs = (accountsAfter now'.log).appliedEpochs) := by
    intro now' hnow'
    have hwas := hnow.trans (later_fewer (hw₁.trans hnow'))
    have hsame : operation (accountsAfter now'.log) = .ok accounts := by
      rw [later_accounts hnow' hw₁.valid hheld, haccounts]
    exact ⟨hwas, hsame, hlaw now' accounts hwas hsame⟩
  refine (ends_encode hw₁.valid fun now' new hnow' hnew => ?_).mono fun r w₂ hr later hlater => ?_
  · obtain ⟨hwas, -, hwrite, happlied⟩ := hlaw' now' hnow'
    exact booksKeeps_accounts hhash hwas.valid hheld hnew hwrite
      (happlied.imp_left (Finset.mem_insert_of_mem ·))
  · cases hr with
    | failed _ hw₂ => exact .idle (hnow.trans (later_fewer (hw₁.trans (hw₂.trans hlater))))
    | idle hw₂ => exact .idle (hnow.trans (later_fewer (hw₁.trans (hw₂.trans hlater))))
    | wrote hnow' hnew hw₂ hresult =>
      obtain ⟨hwas, hsame, hwrite, -⟩ := hlaw' _ hnow'
      have hvalid := hwrite.valid hhash (hwas.valid.legible hhash).accounts
      exact .wrote hwas hsame (accountsAfter_wrote hvalid hnew) (later_fewer (hw₂.trans hlater))
        hresult

/-! ### The calls on the reservations -/

omit hhash in
theorem reservations_lockRefused (acquired : Acquired) :
    ReservationJournal.lockRefused acquired = none ↔ acquired = .locked := by
  cases acquired <;> simp [ReservationJournal.lockRefused]

/-- What reading the reservations comes to. -/
def ReservationsRead (r : Except JournalError Reservations) (w : BooksWorld host) : Prop :=
  match r with
  | .ok reservations => reservations = reservationsAfter w.log ∧
      ∃ bytes, encodeReservations host reservations = .ok bytes
  | .error e => ∃ kind, e = .io kind

theorem ends_loadRecords : (booksDiscipline host).Ends i op held w
    (fun r w' => BooksLater i held w w' ∧ ReservationsRead r w')
    (ReservationJournal.loadRecords host).run := by
  refine ends_decode (fun w' content hlater hcontent => ⟨hlater, ?_⟩)
    fun w' kind hlater => ⟨hlater, kind, rfl⟩
  have hlegible := hlater.valid.legible hhash
  have hbytes := hlegible.reservationBytes content hcontent
  rw [decodeReservations_encode hlegible.reservations hbytes]
  exact ⟨rfl, content, hbytes⟩

omit hhash in
theorem encodes_advance {reservations : Reservations} {bytes : Bytes} (next : ReservationState)
    (nonces : List Bytes32) (h : encodeReservations host reservations = .ok bytes) :
    ∃ new, encodeReservations host (reservations.advance next nonces) = .ok new := by
  simp only [encodeReservations, Tables.encodeTable, bind_ok, okOr_eq_ok] at h
  obtain ⟨count, hcount, -⟩ := h
  have hsize : (reservations.advance next nonces).size = reservations.size :=
    Std.ExtTreeMap.size_map
  simp only [encodeReservations, Tables.encodeTable, hsize, hcount]
  exact ⟨_, rfl⟩

omit hhash in
theorem ends_persistRecords {reservations : Reservations} (hw : BooksValid w)
    (hheld : .reservations ∈ held)
    (hlaw : ∀ now, BooksLater i held w now →
      ReservationWrite (accountsAfter now.log) (reservationsAfter now.log) op reservations) :
    (booksDiscipline host).Ends i op held w
      (Written i op held .reservations JournalError.io (encodeReservations host reservations) w)
      (ReservationJournal.persistRecords host reservations).run :=
  ends_encode hw fun now _ hnow hnew =>
    booksKeeps_reservations hnow.valid hheld hnew (hlaw now hnow)

omit hhash in
theorem ends_finish {ε : Type} {next : ReservationState} {nonces : List Bytes32} {bytes : Bytes}
    (hw : BooksValid w) (hheld : .reservations ∈ held) (hnext : next ≠ .reserved)
    (hknown : ∀ n ∈ nonces, n ∈ reservationsAfter w.log)
    (hbytes : encodeReservations host (reservationsAfter w.log) = .ok bytes)
    (hlaw : ∀ now, BooksLater i held w now →
      ReservationWrite (accountsAfter now.log) (reservationsAfter now.log) op
        ((reservationsAfter w.log).advance next nonces)) :
    (booksDiscipline host).Ends i op held w
      (fun (r : Except JournalError (Except ε Unit)) w' => w.log <:+ w'.log ∧
        (r = .ok (.ok ()) ∨ ∃ kind, r = .error (.io kind)))
      (ReservationJournal.finish host next nonces (reservationsAfter w.log) (.ok ())).run := by
  rw [ReservationJournal.finish, transitionAll_eq hnext false hknown]
  refine ends_lift_bind (fun x hx => ?_) (by rintro _ ⟨⟩)
  cases hx
  have hpersist : (booksDiscipline host).Ends i op held w
      (fun r w' => w.log <:+ w'.log ∧ ∀ e, r = .error e → ∃ kind, e = .io kind)
      (ReservationJournal.persistIf host
        (false || nonces.any fun n => (reservationsAfter w.log)[n]?.any fun r => r.state = .reserved)
        ((reservationsAfter w.log).advance next nonces)).run := by
    rw [ReservationJournal.persistIf]
    split
    · refine (ends_persistRecords hw hheld hlaw).mono fun r w' hr => ?_
      cases hr with
      | failed hfailed _ =>
        obtain ⟨new, hnew⟩ := encodes_advance next nonces hbytes
        rw [hnew] at hfailed
        cases hfailed
      | idle hlater => exact ⟨hlater.rely.suffix, by rintro _ ⟨⟩; exact ⟨_, rfl⟩⟩
      | wrote hnow _ hlater hresult =>
        refine ⟨(hnow.rely.suffix.trans (List.suffix_cons _ _)).trans hlater.rely.suffix, ?_⟩
        rintro e rfl
        rcases hresult with hok | ⟨kind, herror⟩
        · cases hok
        · exact ⟨kind, Except.error.inj herror⟩
    · exact ends_lift ⟨List.suffix_refl _, by rintro _ ⟨⟩⟩
  refine hpersist.bind (fun _ w' ⟨hsuffix, _⟩ => ends_lift ⟨hsuffix, Or.inl rfl⟩)
    fun e w' ⟨hsuffix, herror⟩ => ⟨hsuffix, Or.inr ?_⟩
  obtain ⟨kind, rfl⟩ := herror e rfl
  exact ⟨kind, rfl⟩

/-! ### Opening, registering and reserving -/

theorem ends_openAccounts : (booksDiscipline host).Ends i .openAccounts held w
    (fun _ _ => True) (AccountJournal.open host).run := by
  refine ends_guarded_of_any accounts_lockRefused fun now hnow => ?_
  have hheld := Finset.mem_insert_self BooksFile.accounts held
  refine ends_isThere.bind (fun there w₁ ⟨hw₁, hthere⟩ => ?_) fun _ _ _ => trivial
  obtain rfl : there = (w₁.files .accounts).isSome := Except.ok.inj hthere
  have hcreate : (booksDiscipline host).Ends i .openAccounts (insert .accounts held) w₁
      (fun _ _ => True) (AccountJournal.create host (w₁.files .accounts).isSome).run := by
    rw [AccountJournal.create]
    split
    · exact ends_lift trivial
    · rename_i hnone
      rw [Option.not_isSome_iff_eq_none] at hnone
      refine (ends_encode hw₁.valid fun now' new hnow' hnew => ?_).mono fun _ _ _ => trivial
      have hempty : accountsAfter now'.log = .empty := by
        rw [later_accounts hnow' hw₁.valid hheld, accountsAfter, ← hw₁.valid.files, hnone]
        rfl
      exact booksKeeps_accounts hhash hnow'.valid hheld hnew (hempty ▸ .open) (Or.inr (hempty ▸ rfl))
  refine hcreate.bind (fun _ w₂ _ => ?_) fun _ _ _ => trivial
  exact (ends_load hhash).bind (fun _ _ _ => ends_lift trivial) fun _ _ _ => trivial

theorem ends_openReservations : (booksDiscipline host).Ends i .openReservations held w
    (fun _ _ => True) (ReservationJournal.open host).run := by
  refine ends_guarded_of_any reservations_lockRefused fun now hnow => ?_
  have hheld := Finset.mem_insert_self BooksFile.reservations held
  refine ends_isThere.bind (fun there w₁ ⟨hw₁, hthere⟩ => ?_) fun _ _ _ => trivial
  obtain rfl : there = (w₁.files .reservations).isSome := Except.ok.inj hthere
  have hcreate : (booksDiscipline host).Ends i .openReservations (insert .reservations held) w₁
      (fun _ _ => True)
      (ReservationJournal.persistIf host (!(w₁.files .reservations).isSome) ∅).run := by
    rw [ReservationJournal.persistIf]
    split
    · rename_i hnone
      rw [Option.not_isSome, Option.isNone_iff_eq_none] at hnone
      refine (ends_persistRecords hw₁.valid hheld fun now' hnow' => ?_).mono fun _ _ _ => trivial
      have hempty : reservationsAfter now'.log = ∅ := by
        rw [later_reservations hnow' hw₁.valid hheld, reservationsAfter, ← hw₁.valid.files, hnone]
        rfl
      exact hempty ▸ .open
    · exact ends_lift trivial
  refine hcreate.bind (fun _ w₂ _ => ?_) fun _ _ _ => trivial
  exact (ends_loadRecords hhash).bind (fun _ _ _ => ends_lift trivial) fun _ _ _ => trivial

theorem ends_register {p : Bytes32} {key : VerifyingKey host} {balance : PoolBalance} :
    (booksDiscipline host).Ends i (.register p key balance) held w (fun _ _ => True)
      (AccountJournal.register host p key balance).run := by
  refine ends_lift_bind (fun _ hchecked => ?_) fun _ _ => trivial
  rw [rejectIf_eq_ok, not_or] at hchecked
  refine (ends_mutate hhash fun now accounts _ hregister => ?_).mono fun _ _ _ => trivial
  refine ⟨.register hchecked.1 hchecked.2 hregister, Or.inr ?_⟩
  simp only [registerIn, bind_ok, Unique.exists_iff] at hregister
  exact (congrArg AccountState.appliedEpochs (Except.ok.inj hregister.2)).symm

theorem ends_reserve {record : ReservationRecord} {fresh : record.state = .reserved}
    {available : PoolBalance} :
    (booksDiscipline host).Ends i (.reserve record fresh available) held w (fun _ _ => True)
      (ReservationJournal.reserve host record available).run := by
  have hmutate : (booksDiscipline host).Ends i (.reserve record fresh available) held w
      (fun _ _ => True) (ReservationJournal.mutate host (reserveIn record available)).run := by
    refine ends_guarded_of_any reservations_lockRefused fun now hnow => ?_
    have hheld := Finset.mem_insert_self BooksFile.reservations held
    refine (ends_loadRecords hhash).bind (fun current w₁ ⟨hw₁, hcurrent, _⟩ => ?_)
      fun _ _ _ => trivial
    subst hcurrent
    refine ends_lift_bind (fun reservations hreserve => ?_) fun _ _ => trivial
    refine (ends_persistRecords hw₁.valid hheld fun now' hnow' => ?_).mono fun _ _ _ => trivial
    rw [← later_reservations hnow' hw₁.valid hheld] at hreserve
    exact .reserve hreserve
  exact hmutate.bind (fun _ _ _ => ends_lift trivial) fun _ _ _ => trivial

/-! ### Settling -/

theorem ends_confirmUsed {epochId : Bytes32} {result : BatchResult} {hadUsed : Bool}
    (hw : BooksValid w) :
    (booksDiscipline host).Ends i op held w (fun _ w' => BooksLater i held w w')
      (confirmUsed host epochId result hadUsed).run := by
  cases hadUsed with
  | false => exact ends_lift (Later.refl hw)
  | true =>
    have hmatches : (booksDiscipline host).Ends i op held w (fun _ w' => BooksLater i held w w')
        (AccountJournal.settlementMatches host epochId result).run :=
      (ends_reload hhash).bind (fun _ _ h => ends_lift h.1) fun _ _ h => h.1
    exact hmatches.bind (fun _ _ h => ends_lift h) fun _ _ h => h

/-- What settling in the accounts comes to, under the lock of the reservations. -/
def AppliedOrNot (i : Nat) (held : Finset BooksFile) (epochId : Bytes32) (result : BatchResult)
    (w : BooksWorld host) (r : Except AccountError Unit) (w' : BooksWorld host) : Prop :=
  match r with
  | .error e => e.IsIo ∨ BooksLater i held w w'
  | .ok () => BooksValid w' ∧ reservationsAfter w'.log = reservationsAfter w.log ∧
      (accountsAfter w'.log).appliedEpochs[epochId]? = some (settlementDigest host result)

theorem ends_applySettlement {epochId : Bytes32} {batch : NettedBatch} {nonces : List Bytes32}
    (hw : BooksValid w) (hheld : .reservations ∈ held)
    (hcovered : Covered epochId (reservationsAfter w.log) nonces batch.result.members) :
    (booksDiscipline host).Ends i (.finalizeSettlement epochId batch nonces) held w
      (AppliedOrNot i held epochId batch.result w)
      (AccountJournal.applySettlement host epochId batch.result).run := by
  refine ends_lift_bind (fun _ hzero => ?_) fun e _ => Or.inr (Later.refl hw)
  rw [rejectIf_eq_ok] at hzero
  refine (ends_mutate hhash fun now accounts hnow happly => ⟨?_, Or.inl hheld⟩).mono
    fun r w' hr => ?_
  · exact .settle hzero (later_reservations hnow hw hheld ▸ hcovered) happly
  · cases hr with
    | idle hlater => exact Or.inr hlater
    | @wrote now _ accounts new _ hnow happly haccounts hlater hresult =>
      rcases hresult with rfl | ⟨kind, rfl⟩
      · refine ⟨hlater.valid, ?_, ?_⟩
        · have hreservations : reservationsAfter w'.log = reservationsAfter now.log := by
            have hfiles := hlater.rely.files .reservations hheld
            rw [hlater.valid.files] at hfiles
            refine congrArg (storedReservations host) (hfiles.trans ?_)
            exact congrFun hnow.valid.files .reservations
          exact hreservations.trans (later_reservations hnow hw hheld)
        · rw [hlater.rely.applied hheld, haccounts]
          rcases (applyIn_ok.mp happly).2 with ⟨happlied, rfl⟩ | ⟨-, -, rfl⟩
          · exact happlied.digest
          · simp [AccountState.commit]
      · exact Or.inl (.accounts kind)

theorem ends_settle {epochId : Bytes32} {batch : NettedBatch} {nonces : List Bytes32}
    {hadUsed : Bool} (hw : BooksValid w) (hheld : .reservations ∈ held)
    (hcovered : Covered epochId (reservationsAfter w.log) nonces batch.result.members) :
    (booksDiscipline host).Ends i (.finalizeSettlement epochId batch nonces) held w
      (AppliedOrNot i held epochId batch.result w)
      (do
        confirmUsed host epochId batch.result hadUsed
        AccountJournal.applySettlement host epochId batch.result : AccountCall Unit).run := by
  refine (ends_confirmUsed hhash hw).bind (fun _ w₁ hw₁ => ?_) fun e w₁ hw₁ => Or.inr hw₁
  have hsame := later_reservations hw₁ hw hheld
  refine (ends_applySettlement hhash hw₁.valid hheld (hsame ▸ hcovered)).mono fun r w₂ hr => ?_
  cases r with
  | ok => exact ⟨hr.1, hr.2.1.trans hsame, hr.2.2⟩
  | error e => exact hr.imp_right hw₁.trans

omit hhash in
theorem Selected.mem {epochId : Bytes32} {barred : ReservationState} {current : Reservations}
    {nonces : List Bytes32} {records : List ReservationRecord}
    (h : Selected epochId barred current nonces records) {n : Bytes32} (hn : n ∈ nonces) :
    ∃ r, current[n]? = some r ∧ r.epochId = epochId ∧ r.state ≠ barred := by
  have hrecords := h.records
  clear h
  induction hrecords with
  | nil => cases hn
  | cons hhead _ ih =>
    rcases List.mem_cons.mp hn with rfl | hn
    · exact ⟨_, hhead⟩
    · exact ih hn

omit hhash in
theorem Selected.known {epochId : Bytes32} {barred : ReservationState} {current : Reservations}
    {nonces : List Bytes32} {records : List ReservationRecord}
    (h : Selected epochId barred current nonces records) : ∀ n ∈ nonces, n ∈ current := by
  intro n hn
  obtain ⟨r, hr, -⟩ := h.mem hn
  rw [Std.ExtTreeMap.mem_iff_isSome_getElem?, hr]
  rfl

/-- What a finalization comes to: an error that is no I/O error comes before any write. -/
def FinalizedOrNot (i : Nat) (r : Except JournalError (Except AccountError Unit))
    (w' : BooksWorld host) : Prop :=
  match r with
  | .error e => (∃ kind, e = .io kind) ∨ NoWrites i w'.log
  | .ok (.error e) => e.IsIo ∨ NoWrites i w'.log
  | .ok (.ok ()) => True

omit hhash in
theorem FinalizedOrNot.later {r : Except JournalError (Except AccountError Unit)}
    (h : FinalizedOrNot i r w) (hlater : BooksLater i held w now) : FinalizedOrNot i r now := by
  match r with
  | .error e => exact h.imp_right hlater.rely.noWrites
  | .ok (.error e) => exact h.imp_right hlater.rely.noWrites
  | .ok (.ok ()) => trivial

theorem ends_finalizeEpoch {epochId : Bytes32} {batch : NettedBatch} {nonces : List Bytes32}
    (hquiet : NoWrites i w.log) :
    (booksDiscipline host).Ends i (.finalizeSettlement epochId batch nonces) held w
      (FinalizedOrNot i)
      (ReservationJournal.finalizeEpoch host epochId nonces batch.result.members fun hadUsed =>
        (do
          confirmUsed host epochId batch.result hadUsed
          AccountJournal.applySettlement host epochId batch.result : AccountCall Unit).run).run := by
  refine ends_guarded reservations_lockRefused
    (fun _ _ now _ hnow => Or.inr (hnow.rely.noWrites hquiet)) fun now hfresh hnow => ?_
  have hheld := Finset.mem_insert_self BooksFile.reservations held
  have hquiet := hnow.rely.noWrites hquiet
  refine Ends.mono ?_ fun r w' h later hlater => FinalizedOrNot.later h hlater
  refine (ends_loadRecords hhash).bind (fun current w₁ ⟨hw₁, hcurrent, bytes, hbytes⟩ => ?_)
    fun e w₁ ⟨hw₁, he⟩ => Or.inl he
  subst hcurrent
  have hquiet := hw₁.rely.noWrites hquiet
  refine ends_lift_bind (fun records hrecords => ?_) fun e _ => Or.inr hquiet
  refine ends_lift_bind (fun _ hmembers => ?_) fun e _ => Or.inr hquiet
  rw [rejectIf_eq_ok, not_or, not_not, not_not] at hmembers
  have hselected := (selectRecords_ok.mp hrecords).2
  have hcovered : Covered epochId (reservationsAfter w₁.log) nonces batch.result.members :=
    ⟨records, hselected, hmembers.1, hmembers.2⟩
  refine ends_inner_bind (ends_settle hhash hw₁.valid hheld hcovered) fun applied w₂ happlied => ?_
  cases applied with
  | error e => exact ends_lift (happlied.imp_right fun h => h.rely.noWrites hquiet)
  | ok =>
    obtain ⟨hw₂, hsame, hdigest⟩ := happlied
    rw [← hsame] at hcovered hbytes hselected ⊢
    refine (ends_finish hw₂ hheld (by simp) hselected.known hbytes fun now' hnow' => ?_).mono
      fun r w₃ ⟨_, hr⟩ => ?_
    · rw [← later_reservations hnow' hw₂ hheld] at hcovered ⊢
      exact .use (hnow'.rely.applied hheld ▸ hdigest) hcovered
    · rcases hr with rfl | ⟨kind, rfl⟩
      · trivial
      · exact Or.inl ⟨kind, rfl⟩

theorem ends_finalizeSettlement {epochId : Bytes32} {batch : NettedBatch} {nonces : List Bytes32}
    (hquiet : NoWrites i w.log) :
    (booksDiscipline host).Ends i (.finalizeSettlement epochId batch nonces) held w
      (fun r w' => ∀ e, r = .error e → ¬e.IsIo → NoWrites i w'.log)
      (finalizeSettlement host epochId batch.result nonces).run := by
  have hadapted : (booksDiscipline host).Ends i (.finalizeSettlement epochId batch nonces) held w
      (fun r w' => ∀ e, (r = .error e ∨ r = .ok (.error e)) → ¬e.IsIo → NoWrites i w'.log)
      (ExceptT.adapt AccountError.reservation <|
        ReservationJournal.finalizeEpoch host epochId nonces batch.result.members fun hadUsed =>
          (do
            confirmUsed host epochId batch.result hadUsed
            AccountJournal.applySettlement host epochId batch.result : AccountCall Unit).run).run := by
    refine ends_adapt ((ends_finalizeEpoch hhash hquiet).mono fun r w' hr e he hio => ?_)
    match r with
    | .error j =>
      obtain rfl : AccountError.reservation j = e := by
        rcases he with he | he <;> cases he
        rfl
      exact hr.resolve_left fun ⟨kind, hkind⟩ => hio (hkind ▸ .reservations kind)
    | .ok (.error x) =>
      obtain rfl : x = e := by
        rcases he with he | he <;> cases he
        rfl
      exact hr.resolve_left hio
    | .ok (.ok ()) => rcases he with he | he <;> cases he
  refine hadapted.bind (fun applied w' h => ends_lift fun e he => h e (Or.inr (he ▸ rfl)))
    fun e w' h e' he => h e' (Or.inl (Except.error.inj he ▸ rfl))

/-! ### Releasing -/

/-- What the call has seen of the books, for an answer it is about to give. -/
def Witnessed (i : Nat) (terminalEpoch : ConfirmedTerminalEpoch) (nonces : List Bytes32)
    (r : Except AccountError Unit) (w : BooksWorld host) : Prop :=
  ∃ during, during <:+ w.log ∧ .started i (.releaseReservations terminalEpoch nonces) ∈ during ∧
    ReleaseAnswer during terminalEpoch.epochId nonces r

omit hhash in
theorem Witnessed.suffix {terminalEpoch : ConfirmedTerminalEpoch} {nonces : List Bytes32}
    {r : Except AccountError Unit} (h : Witnessed i terminalEpoch nonces r w)
    (hsuffix : w.log <:+ now.log) : Witnessed i terminalEpoch nonces r now := by
  obtain ⟨during, hduring, hrest⟩ := h
  exact ⟨during, hduring.trans hsuffix, hrest⟩

theorem ends_hasAppliedEpoch {epochId : Bytes32} : (booksDiscipline host).Ends i op held w
    (fun r w' => BooksLater i held w w' ∧ match r with
      | .ok applied => applied = decide (epochId ∈ (accountsAfter w'.log).appliedEpochs)
      | .error e => Kept e)
    (AccountJournal.hasAppliedEpoch host epochId).run := by
  refine (ends_reload hhash).bind (fun accounts w' ⟨hlater, haccounts⟩ => ends_lift ⟨hlater, ?_⟩)
    fun e w' h => h
  obtain rfl : accounts = accountsAfter w'.log := haccounts
  rfl

theorem ends_releaseCheck {epochId : Bytes32} : (booksDiscipline host).Ends i op held w
    (fun r w' => BooksLater i held w w' ∧ match r with
      | .ok () => epochId ∉ (accountsAfter w'.log).appliedEpochs
      | .error e => e = .staleSettlement ∨ Kept e)
    (do
      let applied ← AccountJournal.hasAppliedEpoch host epochId
      Call.lift (rejectIf (applied = true) .staleSettlement) : AccountCall Unit).run := by
  refine (ends_hasAppliedEpoch hhash).bind (fun applied w' ⟨hlater, happlied⟩ => ends_lift ?_)
    fun e w' ⟨hlater, he⟩ => ⟨hlater, Or.inr he⟩
  refine ⟨hlater, ?_⟩
  by_cases hmem : epochId ∈ (accountsAfter w'.log).appliedEpochs
  · simp [rejectIf, happlied, hmem]
  · simp [rejectIf, happlied, hmem]

/-- One answer for the error of either journal. -/
def flatten : Except JournalError (Except AccountError Unit) → Except AccountError Unit
  | .error e => .error (.reservation e)
  | .ok r => r

theorem ends_releaseEpochChecked {terminalEpoch : ConfirmedTerminalEpoch} {nonces : List Bytes32}
    (hstarted : .started i (.releaseReservations terminalEpoch nonces) ∈ w.log) :
    (booksDiscipline host).Ends i (.releaseReservations terminalEpoch nonces) held w
      (fun r w' => Witnessed i terminalEpoch nonces (flatten r) w')
      (ReservationJournal.releaseEpochChecked host terminalEpoch.epochId nonces
        (do
          let applied ← AccountJournal.hasAppliedEpoch host terminalEpoch.epochId
          Call.lift (rejectIf (applied = true) .staleSettlement) : AccountCall Unit).run).run := by
  refine ends_guarded reservations_lockRefused (fun acquired e now he hnow => ?_)
    fun now hfresh hnow => ?_
  · refine ⟨now.log, List.suffix_refl _, hnow.rely.suffix.mem hstarted, Or.inr ?_⟩
    cases acquired with
    | locked => cases he
    | busy =>
      cases he
      exact Or.inr (Or.inl .reservations)
    | failed kind =>
      cases he
      exact Or.inl (.reservations kind)
  have hheld := Finset.mem_insert_self BooksFile.reservations held
  have hstarted := hnow.rely.suffix.mem hstarted
  refine Ends.mono ?_ fun r w' h later hlater => Witnessed.suffix h hlater.rely.suffix
  refine (ends_loadRecords hhash).bind (fun current w₁ ⟨hw₁, hcurrent, bytes, hbytes⟩ => ?_)
    fun e w₁ ⟨hw₁, kind, he⟩ => ⟨w₁.log, List.suffix_refl _, hw₁.rely.suffix.mem hstarted,
      Or.inr (Or.inl (he ▸ .reservations kind))⟩
  subst hcurrent
  have hstarted := hw₁.rely.suffix.mem hstarted
  refine ends_lift_bind (fun records hrecords => ?_) fun e he => ?_
  · have hselected := (selectRecords_ok.mp hrecords).2
    refine ends_inner_bind (ends_releaseCheck hhash) fun checked w₂ ⟨hw₂, hchecked⟩ => ?_
    have hsame := later_reservations hw₂ hw₁.valid hheld
    have hstarted := hw₂.rely.suffix.mem hstarted
    cases checked with
    | error e =>
      refine ends_lift ⟨w₂.log, List.suffix_refl _, hstarted, hchecked.imp_right fun hkept => ?_⟩
      rcases hkept with rfl | ⟨kind, rfl⟩
      · exact Or.inr (Or.inl .accounts)
      · exact Or.inl (.accounts kind)
    | ok =>
      rw [← hsame] at hbytes hselected ⊢
      refine (ends_finish hw₂.valid hheld (by simp) hselected.known hbytes fun now' hnow' => ?_).mono
        fun r w₃ ⟨hsuffix, hr⟩ => ⟨w₂.log, hsuffix, hstarted, ?_⟩
      · rw [← later_reservations hnow' hw₂.valid hheld] at hselected ⊢
        exact .release (hnow'.rely.applied hheld ▸ hchecked) hselected
      · rcases hr with rfl | ⟨kind, rfl⟩
        · exact hchecked
        · exact Or.inr (Or.inl (.reservations kind))
  · refine ⟨w₁.log, List.suffix_refl _, hstarted, Or.inr (Or.inr (Or.inr ⟨e, rfl, ?_⟩))⟩
    exact (selectRecords_error he).resolve_left fun ⟨_, n, _, hn⟩ => absurd hn (Finset.notMem_empty n)

theorem ends_releaseReservations {terminalEpoch : ConfirmedTerminalEpoch} {nonces : List Bytes32}
    (hstarted : .started i (.releaseReservations terminalEpoch nonces) ∈ w.log) :
    (booksDiscipline host).Ends i (.releaseReservations terminalEpoch nonces) held w
      (Witnessed i terminalEpoch nonces) (releaseReservations host terminalEpoch nonces).run := by
  have hadapted : (booksDiscipline host).Ends i (.releaseReservations terminalEpoch nonces) held w
      (fun r w' => match r with
        | .ok answer => Witnessed i terminalEpoch nonces answer w'
        | .error e => Witnessed i terminalEpoch nonces (.error e) w')
      (ExceptT.adapt AccountError.reservation <|
        ReservationJournal.releaseEpochChecked host terminalEpoch.epochId nonces
          (do
            let applied ← AccountJournal.hasAppliedEpoch host terminalEpoch.epochId
            Call.lift (rejectIf (applied = true) .staleSettlement) : AccountCall Unit).run).run := by
    refine ends_adapt ((ends_releaseEpochChecked hhash hstarted).mono fun r w' hr => ?_)
    cases r with
    | error e => exact hr
    | ok answer => exact hr
  exact hadapted.bind (fun answer w' h => ends_lift h) fun e w' h => h

/-! ### Every interleaving -/

omit hhash in
theorem AnswerLaw.rely {result : (booksMachine host).Result op} (h : AnswerLaw w.log i op result)
    (hrely : BooksRely i held w now) : AnswerLaw now.log i op result := by
  cases op with
  | finalizeSettlement => exact fun e he hio => hrely.noWrites (h e he hio)
  | releaseReservations =>
    obtain ⟨during, hduring, hrest⟩ := h
    exact ⟨during, hduring.trans hrely.suffix, hrest⟩
  | openAccounts => trivial
  | openReservations => trivial
  | register => trivial
  | reserve => trivial

omit hhash in
theorem finishes_of_answer {result : (booksMachine host).Result op}
    (h : AnswerLaw w.log i op result) : (booksDiscipline host).Finishes i op result held w :=
  fun _ hvalid hrely => booksKeeps_note hvalid rfl rfl (h.rely hrely)

theorem books_obeyed : (booksDiscipline host).Obeyed where
  start {w i} op hvalid hfresh := by
    refine ⟨booksKeeps_note hvalid rfl rfl trivial, ?_⟩
    cases op with
    | openAccounts =>
      exact Safe.mono (ends_openAccounts hhash) fun _ _ _ _ => finishes_of_answer trivial
    | openReservations =>
      exact Safe.mono (ends_openReservations hhash) fun _ _ _ _ => finishes_of_answer trivial
    | register =>
      exact Safe.mono (ends_register hhash) fun _ _ _ _ => finishes_of_answer trivial
    | reserve =>
      exact Safe.mono (ends_reserve hhash) fun _ _ _ _ => finishes_of_answer trivial
    | finalizeSettlement =>
      refine Safe.mono (ends_finalizeSettlement hhash ?_) fun _ _ _ h => finishes_of_answer h.2
      intro op file old new hmem
      rcases List.mem_cons.mp hmem with heq | hmem
      · cases heq
      · exact hfresh _ hmem rfl
    | releaseReservations =>
      exact Safe.mono (ends_releaseReservations hhash List.mem_cons_self) fun _ _ _ h =>
        finishes_of_answer h.2
  remove _ hremovable := hremovable.elim

theorem books_allSafe {s : BooksState host} (h : Reaches (BooksState.initial host) s) :
    (booksDiscipline host).AllSafe s := by
  have hvalid : BooksValid (BooksState.initial host).world := ⟨trivial, rfl⟩
  exact AllSafe.reaches (books_obeyed hhash) (allSafe_initial hvalid) h

end Discipline

end Kageb
