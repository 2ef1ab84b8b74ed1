import Kageb.Host.Journal
import Kageb.Host.Reference

/-! One digest for each epoch: whatever calls run on a journal path, in whatever order and wherever
they stop, a digest that was once on disk stays the only one that can be signed for its epoch. -/

namespace Kageb

open Binary Checks Files Maps

abbrev JournalEvent (host : Host) (removable : JournalFile → Prop) : Type :=
  Files.Event (journalMachine host removable)

abbrev JournalWorld (host : Host) (removable : JournalFile → Prop) : Type :=
  World (journalMachine host removable)

section Invariant

variable {host : Host} {removable : JournalFile → Prop}

variable (host) in
/-- The bytes of a journal hold this digest for this epoch. -/
def Holds (bytes : Bytes) (epoch : Pubkey) (digest : Bytes32) : Prop :=
  ∃ records, decodeJournal host bytes = .ok records ∧ records[epoch]? = some digest

/-- The journal file held this digest for this epoch at the beginning, or after some write. -/
def OnDisk (files : JournalFile → Option Bytes) (log : List (JournalEvent host removable))
    (epoch : Pubkey) (digest : Bytes32) : Prop :=
  (∃ bytes, files .journal = some bytes ∧ Holds host bytes epoch digest) ∨
    ∃ i op old new, .wrote i op .journal old new ∈ log ∧ Holds host new epoch digest

/-- There was a journal file at the beginning, or some call wrote one. -/
def Touched (files : JournalFile → Option Bytes)
    (log : List (JournalEvent host removable)) : Prop :=
  (files .journal).isSome ∨ ∃ i op old new, .wrote i op .journal old new ∈ log

/-- A keyper returned an approval of the digest for the epoch. -/
def Approves (event : JournalEvent host removable) (epoch : Pubkey)
    (digest : Bytes32) : Prop :=
  ∃ i keyper package confirmed secret approval keyper',
    event = .returned i (.signLock keyper package confirmed secret) (.ok (approval, keyper')) ∧
      package.epochAccount = epoch ∧ approval.digest = digest

/-- A call returned this journal to its caller. -/
def Returns (event : JournalEvent host removable) (journal : LockJournal) : Prop :=
  (∃ i, event = .returned i .open (.ok journal)) ∨
    ∃ i keyper package confirmed secret approval keyper',
      event = .returned i (.signLock keyper package confirmed secret) (.ok (approval, keyper')) ∧
        keyper'.journal = journal

theorem returns_signLock (i : Nat) (keyper : ReferenceKeyper host) (package : LockPackageV1 host)
    (confirmed : ConfirmedOpenEpoch) (secret : KeyperSecretShare host)
    (result : LockApprovalV1 × ReferenceKeyper host) :
    Returns (.returned i (.signLock keyper package confirmed secret) (.ok result) :
      JournalEvent host removable) result.2.journal :=
  Or.inr ⟨i, keyper, package, confirmed, secret, result.1, result.2, rfl, rfl⟩

/-- The records were all on disk. -/
def Known (files : JournalFile → Option Bytes) (log : List (JournalEvent host removable))
    (journal : LockJournal) : Prop :=
  ∀ epoch digest, journal.records[epoch]? = some digest → OnDisk files log epoch digest

/-- What a call returns was on disk before. -/
structure Vouched (files : JournalFile → Option Bytes) (log : List (JournalEvent host removable))
    (event : JournalEvent host removable) : Prop where
  approved : ∀ epoch digest, Approves event epoch digest → OnDisk files log epoch digest
  known : ∀ journal, Returns event journal → Known files log journal

variable {files : JournalFile → Option Bytes} {w : JournalWorld host removable}
  {log : List (JournalEvent host removable)}

theorem OnDisk.touched {epoch : Pubkey} {digest : Bytes32} (h : OnDisk files log epoch digest) :
    Touched files log := by
  rcases h with ⟨bytes, hbytes, -⟩ | ⟨i, op, old, new, hmem, -⟩
  · exact Or.inl (by rw [hbytes]; rfl)
  · exact Or.inr ⟨i, op, old, new, hmem⟩

theorem OnDisk.suffix {log' : List (JournalEvent host removable)} (hsuffix : log <:+ log')
    {epoch : Pubkey} {digest : Bytes32} (h : OnDisk files log epoch digest) :
    OnDisk files log' epoch digest :=
  h.imp_right fun ⟨i, op, old, new, hmem, hholds⟩ =>
    ⟨i, op, old, new, hsuffix.mem hmem, hholds⟩

theorem OnDisk.mono {event : JournalEvent host removable} {epoch : Pubkey}
    {digest : Bytes32} (h : OnDisk files log epoch digest) :
    OnDisk files (event :: log) epoch digest :=
  h.suffix (List.suffix_cons event log)

theorem Touched.mono {event : JournalEvent host removable} (h : Touched files log) :
    Touched files (event :: log) :=
  h.imp_right fun ⟨i, op, old, new, hmem⟩ => ⟨i, op, old, new, List.mem_cons_of_mem _ hmem⟩

/-- The event is no write of the journal file. -/
def Silent (event : JournalEvent host removable) : Prop :=
  ∀ i op old new, event ≠ .wrote i op .journal old new

theorem Silent.onDisk {event : JournalEvent host removable} (hevent : Silent event)
    {epoch : Pubkey} {digest : Bytes32} (h : OnDisk files (event :: log) epoch digest) :
    OnDisk files log epoch digest := by
  refine h.imp_right fun ⟨i, op, old, new, hmem, hholds⟩ => ?_
  rcases List.mem_cons.mp hmem with heq | hmem
  · exact absurd heq.symm (hevent i op old new)
  · exact ⟨i, op, old, new, hmem, hholds⟩

theorem Silent.touched {event : JournalEvent host removable} (hevent : Silent event)
    (h : Touched files (event :: log)) : Touched files log := by
  refine h.imp_right fun ⟨i, op, old, new, hmem⟩ => ?_
  rcases List.mem_cons.mp hmem with heq | hmem
  · exact absurd heq.symm (hevent i op old new)
  · exact ⟨i, op, old, new, hmem⟩

variable (files) in
structure JournalValid (w : JournalWorld host removable) : Prop where
  -- the journal file holds everything that was ever on disk, and nothing else
  current : ∀ bytes records, w.files .journal = some bytes →
    decodeJournal host bytes = .ok records →
    ∀ epoch digest, OnDisk files w.log epoch digest ↔ records[epoch]? = some digest
  unique : ∀ epoch digest digest', OnDisk files w.log epoch digest →
    OnDisk files w.log epoch digest' → digest = digest'
  present : (w.files .journal).isSome → Touched files w.log
  -- of the two files at least the one that nobody deletes is there
  marker : Touched files w.log → removable .journal → (w.files .initialized).isSome
  journal : Touched files w.log → ¬removable .journal → (w.files .journal).isSome
  vouched : ∀ event older, event :: older <:+ w.log → Vouched files older event

variable (files) in
/-- What the holder of the lock can rely on. -/
structure JournalRely (held : Finset Unit) (w w' : JournalWorld host removable) :
    Prop where
  onDisk : ∀ epoch digest, OnDisk files w.log epoch digest → OnDisk files w'.log epoch digest
  touched : Touched files w.log → Touched files w'.log
  sameOnDisk : () ∈ held → ∀ epoch digest, OnDisk files w'.log epoch digest →
    OnDisk files w.log epoch digest
  sameTouched : () ∈ held → Touched files w'.log → Touched files w.log
  files : () ∈ held → ∀ file, w'.files file = w.files file ∨ removable file ∧ w'.files file = none

variable (host removable files) in
def journalDiscipline : Discipline (journalMachine host removable) where
  valid := JournalValid files
  rely _ := JournalRely files
  refl _ _ _ := ⟨fun _ _ h => h, id, fun _ _ _ h => h, fun _ => id, fun _ _ => Or.inl rfl⟩
  trans h h' :=
    { onDisk := fun e d hd => h'.onDisk e d (h.onDisk e d hd)
      touched := fun ht => h'.touched (h.touched ht)
      sameOnDisk := fun hh e d hd => h.sameOnDisk hh e d (h'.sameOnDisk hh e d hd)
      sameTouched := fun hh ht => h.sameTouched hh (h'.sameTouched hh ht)
      files := fun hh file => by
        rcases h'.files hh file with heq | hremoved
        · rw [heq]
          exact h.files hh file
        · exact Or.inr hremoved }

theorem silent_started (i : Nat) (op : (journalMachine host removable).Op) :
    Silent (.started i op : JournalEvent host removable) := by
  rintro _ _ _ _ ⟨⟩

theorem silent_marker (i : Nat) (op : (journalMachine host removable).Op) (old : Option Bytes)
    (new : Bytes) :
    Silent (.wrote i op .initialized old new : JournalEvent host removable) := by
  rintro _ _ _ _ ⟨⟩

/-- Only what returns has to be vouched for. -/
theorem vouched_of_ne {event : JournalEvent host removable}
    (h : ∀ i op result, event ≠ .returned i op result) : Vouched files log event where
  approved _ _ := fun ⟨_, _, _, _, _, _, _, heq, _⟩ => absurd heq (h _ _ _)
  known _ hreturns := by
    rcases hreturns with ⟨_, heq⟩ | ⟨_, _, _, _, _, _, _, heq, -⟩ <;> exact absurd heq (h _ _ _)

theorem JournalValid.vouched_cons (h : JournalValid files w) {event : JournalEvent host removable}
    (hevent : Vouched files w.log event) :
    ∀ event' older, event' :: older <:+ event :: w.log → Vouched files older event' := by
  intro event' older hsuffix
  rcases List.suffix_cons_iff.mp hsuffix with heq | hsuffix
  · cases heq
    exact hevent
  · exact h.vouched event' older hsuffix

/-! ### What one step does -/

theorem JournalValid.note (h : JournalValid files w) {event : JournalEvent host removable}
    (hsilent : Silent event) (hevent : Vouched files w.log event) :
    JournalValid files (w.note event) where
  current bytes records hbytes hrecords epoch digest := by
    rw [← h.current bytes records hbytes hrecords]
    exact ⟨hsilent.onDisk, OnDisk.mono⟩
  unique epoch digest digest' hd hd' :=
    h.unique epoch digest digest' (hsilent.onDisk hd) (hsilent.onDisk hd')
  present hjournal := (h.present hjournal).mono
  marker htouched := h.marker (hsilent.touched htouched)
  journal htouched := h.journal (hsilent.touched htouched)
  vouched := h.vouched_cons hevent

theorem keeps_note {i : Nat} {held held' : Finset Unit} (h : JournalValid files w)
    {event : JournalEvent host removable} (hsilent : Silent event)
    (hevent : Vouched files w.log event) :
    (journalDiscipline host removable files).Keeps i held held' w (w.note event) where
  valid := h.note hsilent hevent
  rely _ _ _ _ _ := ⟨fun _ _ => OnDisk.mono, Touched.mono, fun _ _ _ => hsilent.onDisk,
    fun _ => hsilent.touched, fun _ _ => Or.inl rfl⟩

theorem not_mem_of_disjoint {locks held : Finset Unit} (hheld : () ∈ held)
    (h : Disjoint locks held) : () ∉ locks :=
  fun hmem => Finset.disjoint_left.mp h hmem hheld

theorem keeps_marker {i : Nat} {op : (journalMachine host removable).Op} {held : Finset Unit}
    (hheld : () ∈ held) (h : JournalValid files w) (content : Bytes) :
    (journalDiscipline host removable files).Keeps i held held w
      (w.write i op .initialized content) where
  valid :=
    { current := fun bytes records hbytes hrecords epoch digest => by
        rw [← h.current bytes records hbytes hrecords]
        exact ⟨(silent_marker i op _ content).onDisk, OnDisk.mono⟩
      unique := fun epoch digest digest' hd hd' =>
        h.unique epoch digest digest' ((silent_marker i op _ content).onDisk hd)
          ((silent_marker i op _ content).onDisk hd')
      present := fun hjournal => (h.present hjournal).mono
      marker := fun _ _ => rfl
      journal := fun htouched => h.journal ((silent_marker i op _ content).touched htouched)
      vouched := h.vouched_cons (vouched_of_ne (by rintro _ _ _ ⟨⟩)) }
  rely j locks _ hlocks _ :=
    { onDisk := fun _ _ => OnDisk.mono
      touched := Touched.mono
      sameOnDisk := fun hmem => absurd hmem (not_mem_of_disjoint hheld hlocks)
      sameTouched := fun hmem => absurd hmem (not_mem_of_disjoint hheld hlocks)
      files := fun hmem => absurd hmem (not_mem_of_disjoint hheld hlocks) }

/-- The journal may be written with records that hold everything that was ever on disk. -/
theorem keeps_journal {i : Nat} {op : (journalMachine host removable).Op} {held : Finset Unit}
    (hheld : () ∈ held) (h : JournalValid files w) {records : Map Pubkey Bytes32} {bytes : Bytes}
    (hbytes : encodeJournal host records = .ok bytes)
    (hrecords : ∀ epoch digest, OnDisk files w.log epoch digest → records[epoch]? = some digest)
    (hmarker : removable .journal → (w.files .initialized).isSome) :
    (journalDiscipline host removable files).Keeps i held held w
      (w.write i op .journal bytes) ∧
    ∀ epoch digest, OnDisk files (w.write i op .journal bytes).log epoch digest ↔
      records[epoch]? = some digest := by
  have hdecode := decodeJournal_encodeJournal hbytes
  have honDisk : ∀ epoch digest, OnDisk files (w.write i op .journal bytes).log epoch digest ↔
      records[epoch]? = some digest := by
    intro epoch digest
    constructor
    · rintro (hfirst | ⟨j, op', old, new, hmem, records', hrecords', hdigest⟩)
      · exact hrecords epoch digest (Or.inl hfirst)
      · rcases List.mem_cons.mp hmem with heq | hmem
        · cases heq
          cases hdecode.symm.trans hrecords'
          exact hdigest
        · exact hrecords epoch digest (Or.inr ⟨j, op', old, new, hmem, records', hrecords', hdigest⟩)
    · intro hdigest
      exact Or.inr ⟨i, op, _, bytes, List.mem_cons_self, records, hdecode, hdigest⟩
  refine ⟨⟨?_, fun j locks _ hlocks _ => ?_⟩, honDisk⟩
  · refine ⟨?_, ?_, ?_, ?_, ?_, ?_⟩
    · intro bytes' records' hbytes' hrecords'
      obtain rfl : bytes = bytes' := Option.some.inj hbytes'
      cases hdecode.symm.trans hrecords'
      exact honDisk
    · intro epoch digest digest' hd hd'
      exact Option.some.inj (((honDisk _ _).mp hd).symm.trans ((honDisk _ _).mp hd'))
    · exact fun _ => Or.inr ⟨i, op, _, bytes, List.mem_cons_self⟩
    · exact fun _ => hmarker
    · exact fun _ _ => rfl
    · exact h.vouched_cons (vouched_of_ne (by rintro _ _ _ ⟨⟩))
  · exact ⟨fun _ _ => OnDisk.mono, Touched.mono,
      fun hmem => absurd hmem (not_mem_of_disjoint hheld hlocks),
      fun hmem => absurd hmem (not_mem_of_disjoint hheld hlocks),
      fun hmem => absurd hmem (not_mem_of_disjoint hheld hlocks)⟩

/-! ### What the calls do -/

open Discipline

variable {i : Nat} {op : (journalMachine host removable).Op} {held : Finset Unit}

/-- What is read is what was ever on disk. -/
theorem safe_loadJournal {post : Except LockValidationError (Map Pubkey Bytes32) → Finset Unit →
      JournalWorld host removable → Prop}
    (hok : ∀ now records, JournalValid files now → JournalRely files held w now →
      Touched files now.log →
      (∀ epoch digest, OnDisk files now.log epoch digest ↔ records[epoch]? = some digest) →
      post (.ok records) held now)
    (herror : ∀ now e, JournalValid files now → JournalRely files held w now →
      post (.error e) held now) :
    (journalDiscipline host removable files).Safe i op post (loadJournal host).run held w := by
  rw [loadJournal, safe_run_bind, safe_adapt]
  refine safe_read ?_ ?_
  · intro now content hvalid hrely hcontent
    show (journalDiscipline host removable files).Safe i op post
      (Call.lift (decodeJournal host content)).run held now
    rw [safe_lift]
    cases hdecode : decodeJournal host content with
    | error e => exact herror now e hvalid hrely
    | ok records =>
      exact hok now records hvalid hrely (hvalid.present (by rw [hcontent]; rfl))
        (hvalid.current content records hcontent hdecode)
  · intro now kind hvalid hrely
    exact herror now _ hvalid hrely

theorem safe_persistJournal {post : Except LockValidationError Unit → Finset Unit →
      JournalWorld host removable → Prop} {records : Map Pubkey Bytes32}
    (hheld : () ∈ held)
    (hwrite : ∀ now, JournalValid files now → JournalRely files held w now →
      (∀ epoch digest, OnDisk files now.log epoch digest → records[epoch]? = some digest) ∧
      (removable .journal → (now.files .initialized).isSome))
    (hafter : ∀ later result, JournalValid files later →
      (∀ epoch digest, OnDisk files later.log epoch digest ↔ records[epoch]? = some digest) →
      post result held later)
    (herror : ∀ now e, JournalValid files now → JournalRely files held w now →
      post (.error e) held now)
    (hvalid : JournalValid files w) :
    (journalDiscipline host removable files).Safe i op post (persistJournal host records).run held
      w := by
  rw [persistJournal, safe_run_bind, safe_lift]
  cases hbytes : encodeJournal host records with
  | error e =>
    exact herror w e hvalid ((journalDiscipline host removable files).refl i held w)
  | ok bytes =>
    show (journalDiscipline host removable files).Safe i op post
      (ExceptT.adapt .io (Call.persist .journal bytes)).run held w
    rw [safe_adapt]
    refine safe_persist ?_ ?_ ?_
    · intro now hnow hrely
      obtain ⟨hrecords, hmarker⟩ := hwrite now hnow hrely
      exact (keeps_journal hheld hnow hbytes hrecords hmarker).1
    · intro now later result hnow hrely hlater hrelies
      obtain ⟨hrecords, hmarker⟩ := hwrite now hnow hrely
      have honDisk := (@keeps_journal _ _ _ _ i op _ hheld hnow _ _ hbytes hrecords hmarker).2
      refine hafter later _ hlater fun epoch digest => ?_
      rw [← honDisk]
      exact ⟨hrelies.sameOnDisk hheld epoch digest, hrelies.onDisk epoch digest⟩
    · exact fun now kind hnow hrely => herror now _ hnow hrely

theorem lockRefused_eq_none (acquired : Acquired) :
    lockRefused acquired = none ↔ acquired = .locked := by
  cases acquired <;> simp [lockRefused]

/-- A digest is on disk when `record` returns. -/
theorem safe_record {epoch : Pubkey} {digest : Bytes32} :
    (journalDiscipline host removable files).Safe i op
      (fun result _ w => ∀ journal, result = .ok journal →
        OnDisk files w.log epoch digest ∧ Known files w.log journal)
      (LockJournal.record host epoch digest).run held w := by
  refine safe_guarded lockRefused_eq_none (fun _ _ _ _ _ _ _ h => by cases h) ?_
  intro locked _ _ _
  have hheld : () ∈ insert () held := Finset.mem_insert_self _ _
  refine safe_run_bind.mpr (safe_isThere fun now _ _ => safe_run_bind.mpr (safe_lift.mpr ?_))
  cases rejectIf ((now.files .journal).isSome = false) LockValidationError.corruptJournal with
  | error e => exact fun _ _ _ _ h => by cases h
  | ok =>
    refine safe_run_bind.mpr (safe_loadJournal ?_ fun _ _ _ _ _ _ _ _ h => by cases h)
    intro loaded records hloaded _ htouched honDisk
    show (journalDiscipline host removable files).Safe i op _
      (LockJournal.add host epoch digest records).run _ loaded
    unfold LockJournal.add
    split
    · rename_i existing hexisting
      split
      · rename_i heq
        subst heq
        rintro later _ hrely journal ⟨⟩
        exact ⟨hrely.onDisk epoch existing ((honDisk epoch existing).mpr hexisting),
          fun e d hd => hrely.onDisk e d ((honDisk e d).mpr hd)⟩
      · exact fun _ _ _ _ h => by cases h
    · rename_i hnone
      refine safe_run_bind.mpr (safe_persistJournal hheld ?_ ?_ ?_ hloaded)
      · intro now hnow hrely
        refine ⟨fun e d hd => ?_, fun hremovable => hnow.marker (hrely.touched htouched) hremovable⟩
        have hbefore := (honDisk e d).mp (hrely.sameOnDisk hheld e d hd)
        have hne : epoch ≠ e := by
          rintro rfl
          rw [hnone] at hbefore
          cases hbefore
        rw [Map.getElem?_insert, if_neg hne, hbefore]
      · intro later result hlater hrecords
        cases result with
        | error e => exact fun _ _ _ _ h => by cases h
        | ok =>
          rintro returned _ hrely journal ⟨⟩
          refine ⟨hrely.onDisk epoch digest ((hrecords _ _).mpr ?_),
            fun e d hd => hrely.onDisk e d ((hrecords e d).mpr hd)⟩
          rw [Map.getElem?_insert, if_pos rfl]
      · exact fun _ _ _ _ _ _ _ _ h => by cases h

variable (files) in
/-- No journal was ever there, and the marker was made and not deleted by those who delete only
the journal. -/
structure Marked (w : JournalWorld host removable) : Prop where
  untouched : ¬Touched files w.log
  marker : ¬removable .initialized → (w.files .initialized).isSome

theorem Marked.rely {now : JournalWorld host removable} (hheld : () ∈ held)
    (hrely : JournalRely files held w now) (h : Marked files w) : Marked files now where
  untouched htouched := h.untouched (hrely.sameTouched hheld htouched)
  marker hkept := by
    rcases hrely.files hheld .initialized with heq | ⟨hremovable, -⟩
    · rw [heq]
      exact h.marker hkept
    · exact absurd hremovable hkept

theorem marked_write (h : ¬Touched files w.log) (content : Bytes) :
    Marked files (w.write i op .initialized content) where
  untouched htouched := h ((silent_marker i op _ content).touched htouched)
  marker _ := rfl

theorem safe_persistInitializationMarker (hheld : () ∈ held) (huntouched : ¬Touched files w.log) :
    (journalDiscipline host removable files).Safe i op
      (fun result held' w => held' = held ∧
        (result = .ok () → JournalValid files w ∧ Marked files w))
      (persistInitializationMarker host).run held w := by
  refine safe_run_bind.mpr (safe_adapt.mpr (safe_create ?_ fun _ _ _ _ => ⟨rfl, nofun⟩))
  intro now hnow hrely _
  refine ⟨keeps_marker hheld hnow [], ?_⟩
  have hmarked : Marked files (now.write i op .initialized []) :=
    marked_write (fun htouched => huntouched (hrely.sameTouched hheld htouched)) []
  refine safe_run_bind.mpr (safe_adapt.mpr ?_)
  have happend : (journalDiscipline host removable files).Safe i op
      (fun _ held' w => held' = held ∧ Marked files w)
      (Call.appendAll .initialized (initializationMarker host)).run held
      (now.write i op .initialized []) :=
    safe_appendAll hmarked (fun _ _ _ hrely hw => hw.rely hheld hrely) fun now content hnow hw _ =>
      ⟨keeps_marker hheld hnow content, marked_write hw.untouched content⟩
  refine happend.mono ?_
  rintro result held' later ⟨rfl, hlater⟩
  cases result with
  | error e => exact ⟨rfl, nofun⟩
  | ok =>
    refine safe_adapt.mpr (safe_sync fun synced result hsynced hrely => ?_)
    exact ⟨rfl, fun _ => ⟨hsynced, hlater.rely hheld hrely⟩⟩

/-- A new journal is made only where none was ever there. -/
theorem safe_setUp (honly : removable .journal → ¬removable .initialized) (hheld : () ∈ held)
    {first : JournalWorld host removable} (hfirst : JournalValid files first)
    (hw : JournalValid files w) (hrely : JournalRely files held first w) :
    (journalDiscipline host removable files).Safe i op (fun _ held' _ => held' = held)
      (LockJournal.setUp host (first.files .journal).isSome (w.files .initialized).isSome).run held
      w := by
  cases hjournal : (first.files .journal).isSome <;> cases hmarker : (w.files .initialized).isSome
  · have huntouched : ¬Touched files w.log := by
      intro htouched
      by_cases hremovable : removable .journal
      · simp [hw.marker htouched hremovable] at hmarker
      · simp [hfirst.journal (hrely.sameTouched hheld htouched) hremovable] at hjournal
    refine safe_run_bind.mpr ((safe_persistInitializationMarker hheld huntouched).mono ?_)
    rintro result held' marked ⟨rfl, hresult⟩
    cases result with
    | error e => exact rfl
    | ok =>
      obtain ⟨hvalid, hmarked⟩ := hresult rfl
      refine safe_persistJournal hheld ?_ (fun _ _ _ _ => rfl) (fun _ _ _ _ => rfl) hvalid
      intro now _ hrely
      have hnow := hmarked.rely hheld hrely
      exact ⟨fun _ _ hd => absurd hd.touched hnow.untouched, fun h => hnow.marker (honly h)⟩
  · exact rfl
  · exact rfl
  · refine safe_run_bind.mpr (safe_adapt.mpr (safe_read ?_ fun _ _ _ _ => rfl))
    exact fun _ _ _ _ _ => rfl

theorem safe_open (honly : removable .journal → ¬removable .initialized) :
    (journalDiscipline host removable files).Safe i op
      (fun result _ w => ∀ journal, result = .ok journal → Known files w.log journal)
      (LockJournal.open host).run held w := by
  refine safe_guarded lockRefused_eq_none (fun _ _ _ _ _ _ _ h => by cases h) ?_
  intro locked _ _ _
  have hheld : () ∈ insert () held := Finset.mem_insert_self _ _
  refine safe_run_bind.mpr (safe_isThere fun first hfirst _ => ?_)
  refine safe_run_bind.mpr (safe_isThere fun second hsecond hrely => ?_)
  refine safe_run_bind.mpr ((safe_setUp honly hheld hfirst hsecond hrely).mono ?_)
  rintro (e | -) held' w' rfl
  · exact fun _ _ _ _ h => by cases h
  · refine safe_run_bind.mpr (safe_loadJournal ?_ fun _ _ _ _ _ _ _ _ h => by cases h)
    rintro loaded records - - - honDisk later - hrely journal ⟨⟩
    exact fun e d hd => hrely.onDisk e d ((honDisk e d).mpr hd)

theorem silent_returned {op : (journalMachine host removable).Op}
    {result : (journalMachine host removable).Result op} :
    Silent (.returned i op result : JournalEvent host removable) := by
  rintro _ _ _ _ ⟨⟩

theorem safe_signLock {keyper : ReferenceKeyper host} {package : LockPackageV1 host}
    {confirmed : ConfirmedOpenEpoch} {secret : KeyperSecretShare host} :
    (journalDiscipline host removable files).Safe i
      (.signLock keyper package confirmed secret : JournalOp host)
      (fun result _ w => ∀ approval keyper', result = .ok (approval, keyper') →
        OnDisk files w.log package.epochAccount approval.digest ∧ Known files w.log keyper'.journal)
      (keyper.signLock package confirmed secret).run held w := by
  refine safe_run_bind.mpr (safe_lift.mpr ?_)
  cases keyper.checkLock package confirmed secret with
  | error e => exact nofun
  | ok digest =>
    refine safe_run_bind.mpr (safe_record.mono ?_)
    intro result held w hrecorded
    cases result with
    | error e => exact nofun
    | ok journal =>
      rintro approval keyper' ⟨⟩
      exact hrecorded journal rfl

theorem valid_remove (honly : removable .journal → ¬removable .initialized) {file : JournalFile}
    (hremovable : removable file) (h : JournalValid files w) :
    JournalValid files (w.remove file) := by
  have hsilent : Silent (.removed file : JournalEvent host removable) := by
    rintro _ _ _ _ ⟨⟩
  have hnote := h.note hsilent (vouched_of_ne (by rintro _ _ _ ⟨⟩))
  cases file with
  | journal =>
    have hnone : (w.remove .journal).files .journal = none := rfl
    refine ⟨fun bytes _ hbytes => ?_, hnote.unique, fun hjournal => ?_, hnote.marker,
      fun _ hkept => absurd hremovable hkept, hnote.vouched⟩
    · rw [hnone] at hbytes
      cases hbytes
    · rw [hnone] at hjournal
      cases hjournal
  | initialized =>
    exact ⟨hnote.current, hnote.unique, hnote.present,
      fun _ hjournal => absurd hremovable (honly hjournal), hnote.journal, hnote.vouched⟩

theorem rely_remove {file : JournalFile} (hremovable : removable file) :
    JournalRely files held w (w.remove file) := by
  have hsilent : Silent (.removed file : JournalEvent host removable) := by
    rintro _ _ _ _ ⟨⟩
  refine ⟨fun _ _ => OnDisk.mono, Touched.mono, fun _ _ _ => hsilent.onDisk,
    fun _ => hsilent.touched, fun _ other => ?_⟩
  by_cases hother : other = file
  · subst hother
    exact Or.inr ⟨hremovable, Function.update_self ..⟩
  · exact Or.inl (Function.update_of_ne hother ..)

theorem journal_obeyed (honly : removable .journal → ¬removable .initialized) :
    (journalDiscipline host removable files).Obeyed where
  start := by
    intro w i op hvalid _
    refine ⟨keeps_note hvalid (silent_started i op) (vouched_of_ne (by rintro _ _ _ ⟨⟩)), ?_⟩
    cases op with
    | «open» =>
      refine (safe_open honly).mono fun result held w hopened now hnow hrely => ?_
      refine keeps_note hnow silent_returned ⟨?_, ?_⟩
      · rintro _ _ ⟨_, _, _, _, _, _, _, ⟨⟩, -⟩
      · rintro journal (⟨_, ⟨⟩⟩ | ⟨_, _, _, _, _, _, _, ⟨⟩, -⟩)
        exact fun e d hd => hrely.onDisk e d (hopened journal rfl e d hd)
    | signLock keyper package confirmed secret =>
      refine safe_signLock.mono fun result held w hsigned now hnow hrely => ?_
      refine keeps_note hnow silent_returned ⟨?_, ?_⟩
      · rintro _ _ ⟨_, _, _, _, _, approval, keyper', ⟨⟩, rfl, rfl⟩
        exact hrely.onDisk _ _ (hsigned approval keyper' rfl).1
      · rintro journal (⟨_, ⟨⟩⟩ | ⟨_, _, _, _, _, approval, keyper', ⟨⟩, rfl⟩)
        exact fun e d hd => hrely.onDisk e d ((hsigned approval keyper' rfl).2 e d hd)
  remove hvalid hremovable :=
    ⟨valid_remove honly hremovable hvalid, fun _ _ => rely_remove hremovable⟩

theorem valid_initial (h : (files .journal).isSome → (files .initialized).isSome) :
    JournalValid files (⟨files, []⟩ : JournalWorld host removable) where
  current bytes records hbytes hrecords epoch digest := by
    constructor
    · rintro (⟨bytes', hbytes', records', hrecords', hdigest⟩ | ⟨_, _, _, _, hmem, _⟩)
      · obtain rfl : bytes = bytes' := Option.some.inj (hbytes.symm.trans hbytes')
        cases hrecords.symm.trans hrecords'
        exact hdigest
      · cases hmem
    · exact fun hdigest => Or.inl ⟨bytes, hbytes, records, hrecords, hdigest⟩
  unique epoch digest digest' := by
    rintro (⟨bytes, hbytes, records, hrecords, hdigest⟩ | ⟨_, _, _, _, hmem, _⟩)
    · rintro (⟨bytes', hbytes', records', hrecords', hdigest'⟩ | ⟨_, _, _, _, hmem, _⟩)
      · cases hbytes.symm.trans hbytes'
        cases hrecords.symm.trans hrecords'
        exact Option.some.inj (hdigest.symm.trans hdigest')
      · cases hmem
    · cases hmem
  present hjournal := Or.inl hjournal
  marker htouched _ := by
    rcases htouched with hjournal | ⟨_, _, _, _, hmem⟩
    · exact h hjournal
    · cases hmem
  journal htouched _ := by
    rcases htouched with hjournal | ⟨_, _, _, _, hmem⟩
    · exact hjournal
    · cases hmem
  vouched event older hsuffix := by simp at hsuffix

theorem journal_valid (honly : ¬(removable .journal ∧ removable .initialized))
    (hfiles : (files .journal).isSome → (files .initialized).isSome)
    {s : State (journalMachine host removable)} (hreaches : Reaches (State.initial Unit files) s) :
    JournalValid files s.world :=
  ((Discipline.allSafe_initial (D := journalDiscipline host removable files)
    (valid_initial hfiles)).reaches (journal_obeyed (not_and.mp honly)) hreaches).valid

end Invariant

/-- Some keyper on this journal path approved the digest for the epoch. -/
def Approved {host : Host} {removable : JournalFile → Prop}
    (s : State (journalMachine host removable)) (epoch : Pubkey) (digest : Bytes32) : Prop :=
  ∃ event ∈ s.world.log, Approves event epoch digest

theorem JournalValid.approved_unique {host : Host} {removable : JournalFile → Prop}
    {files : JournalFile → Option Bytes} {s : State (journalMachine host removable)}
    (h : JournalValid files s.world) {epoch : Pubkey} {digest digest' : Bytes32}
    (hd : Approved s epoch digest) (hd' : Approved s epoch digest') : digest = digest' := by
  have honDisk : ∀ {d}, Approved s epoch d → OnDisk files s.world.log epoch d := by
    rintro d ⟨event, hmem, happroves⟩
    obtain ⟨newer, older, heq⟩ := List.append_of_mem hmem
    have hbefore := (h.vouched event older ⟨newer, heq.symm⟩).approved epoch d happroves
    rw [heq]
    exact hbefore.suffix ⟨newer ++ [event], by simp⟩
  exact h.unique epoch digest digest' (honDisk hd) (honDisk hd')

/-- Three journals, one for each keyper, each with any calls in any order, stops at any point, and
at most one of the journal and its marker deleted. -/
theorem one_digest_for_each_epoch {host : Host} {removable : Fin 3 → JournalFile → Prop}
    {files : Fin 3 → JournalFile → Option Bytes}
    {s : ∀ k, State (journalMachine host (removable k))}
    (honly : ∀ k, ¬(removable k .journal ∧ removable k .initialized))
    (hfiles : ∀ k, (files k .journal).isSome → (files k .initialized).isSome)
    (hreaches : ∀ k, Reaches (State.initial Unit (files k)) (s k)) :
    (∀ k epoch digest digest', Approved (s k) epoch digest → Approved (s k) epoch digest' →
      digest = digest') ∧
    (∀ k event older epoch digest, event :: older <:+ (s k).world.log →
      Approves event epoch digest → OnDisk (files k) older epoch digest) ∧
    (∀ epoch digest digest' j k j' k', j ≠ k → j' ≠ k' →
      Approved (s j) epoch digest → Approved (s k) epoch digest →
      Approved (s j') epoch digest' → Approved (s k') epoch digest' → digest = digest') := by
  have hvalid : ∀ k, JournalValid (files k) (s k).world := fun k =>
    journal_valid (honly k) (hfiles k) (hreaches k)
  refine ⟨fun k _ _ _ => (hvalid k).approved_unique, fun k event older epoch digest hsuffix =>
    ((hvalid k).vouched event older hsuffix).approved epoch digest, ?_⟩
  intro epoch digest digest' j k j' k' hne hne' hj hk hj' hk'
  -- two pairs of three keypers have a keyper in common
  have hcommon : ∀ j k j' k' : Fin 3, j ≠ k → j' ≠ k' → j = j' ∨ j = k' ∨ k = j' ∨ k = k' := by
    decide
  rcases hcommon j k j' k' hne hne' with rfl | rfl | rfl | rfl
  · exact (hvalid j).approved_unique hj hj'
  · exact (hvalid j).approved_unique hj hk'
  · exact (hvalid k).approved_unique hk hj'
  · exact (hvalid k).approved_unique hk hk'

namespace Sample

/-- The journal of the first keyper and the marker of the second may be deleted. -/
def removable (k : Fin 3) (file : JournalFile) : Prop :=
  k = 0 ∧ file = .journal ∨ k = 1 ∧ file = .initialized

def signPackage (k : Fin 3) : JournalOp host :=
  .signLock ⟨k, keypers.toList.getD k zero32, ⟨∅⟩⟩ (package [1, 2, 3, 4]) packageOpen (secretShare k)

def openedJournal (k : Fin 3) : State (journalMachine host (removable k)) :=
  (State.initial Unit fun _ => none).solo JournalOp.open

/-- Each keyper opens its journal and signs the lock of the package. -/
def signedJournal (k : Fin 3) : State (journalMachine host (removable k)) :=
  (openedJournal k).solo (signPackage k)

theorem openedJournal_reaches (k : Fin 3) (op : JournalOp host) :
    Reaches (State.initial Unit fun _ => none) ((openedJournal k).solo op) := by
  have hopen := State.Free.reaches_solo (M := journalMachine host (removable k))
    (s := State.initial Unit fun _ => none) (fun _ => rfl) JournalOp.open
  exact hopen.1.trans (hopen.2.reaches_solo op).1

theorem signedJournal_reaches (k : Fin 3) :
    Reaches (State.initial Unit fun _ => none) (signedJournal k) :=
  openedJournal_reaches k (signPackage k)

theorem signPackage_told (k : Fin 3) : ∃ result,
    (openedJournal k).told (signPackage k) = .ok result ∧ result.1.digest = packageDigest := by
  have hdigest : ∀ k, ((openedJournal k).told (signPackage k)).toOption.map
      (fun result => result.1.digest) = some packageDigest := by decide +kernel
  obtain ⟨result, hresult, heq⟩ := Option.map_eq_some_iff.mp (hdigest k)
  exact ⟨result, eq_ok_of_toOption hresult, heq⟩

theorem signedJournal_approved (k : Fin 3) : Approved (signedJournal k) epoch packageDigest := by
  obtain ⟨result, hresult, hdigest⟩ := signPackage_told k
  have hevent := State.solo_returned (openedJournal k) (signPackage k)
  rw [hresult] at hevent
  exact ⟨_, hevent, _, _, _, _, _, result.1, result.2, rfl, rfl, hdigest⟩

end Sample

/-- No other digest than that of the package can be approved in the sample run. -/
theorem one_digest_for_each_epoch_sample :
    (∀ k, Approved (Sample.signedJournal k) Sample.epoch Sample.packageDigest) ∧
      ∀ k digest, Approved (Sample.signedJournal k) Sample.epoch digest →
        digest = Sample.packageDigest := by
  refine ⟨Sample.signedJournal_approved, fun k digest h => ?_⟩
  have hunique := (@one_digest_for_each_epoch _ Sample.removable (fun _ _ => none)
    Sample.signedJournal (by rintro k ⟨⟨rfl, -⟩ | ⟨-, h⟩, ⟨-, h'⟩ | ⟨h', -⟩⟩ <;> simp_all) (by simp)
    Sample.signedJournal_reaches).1
  exact hunique k _ _ _ h (Sample.signedJournal_approved k)

end Kageb
