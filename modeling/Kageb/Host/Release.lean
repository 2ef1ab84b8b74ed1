import Kageb.Host.Agreement
import Kageb.Host.NoEquivocation
import Kageb.Program.Quorum

/-! Shares of a locked crowd: the chain, the journals of the keypers and whatever packages a
coordinator sends them, in any order of calls. A share is released only for a member of the crowd
that the chain froze and that the keyper itself signed. -/

namespace Kageb

open Binary Checks Files Maps Runs

/-- The journal of an honest keyper: nobody deletes its files. -/
abbrev KeyperJournal (host : Host) : Type 1 := State (journalMachine host fun _ => False)

/-! ### What a call does that nobody disturbs -/

section Undisturbed

variable {host : Host} {removable : JournalFile → Prop} {i : Nat}
  {op : (journalMachine host removable).Op} {w : JournalWorld host removable}
  {files : JournalFile → Option Bytes}

theorem exec_loadJournal {held : Finset Unit} : exec i op (loadJournal host).run held w =
    ((match w.files .journal with
      | some bytes => decodeJournal host bytes
      | none => .error (.io .notFound)), held, w) := by
  rw [loadJournal, exec_run_bind, exec_adapt, exec_read]
  cases w.files .journal <;> rfl

theorem exec_persistJournal {held : Finset Unit} {records : Map Pubkey Bytes32} :
    exec i op (persistJournal host records).run held w =
      match encodeJournal host records with
      | .ok bytes => (.ok (), held, w.write i op .journal bytes)
      | .error e => (.error e, held, w) := by
  rw [persistJournal, exec_run_bind, exec_lift]
  cases encodeJournal host records with
  | error e => rfl
  | ok bytes => rw [thenRun_ok, exec_adapt, exec_persist]; rfl

/-- A record is added to what is on disk, or nothing is written. -/
theorem exec_record (i : Nat) (op : (journalMachine host removable).Op)
    (w : JournalWorld host removable) (epoch : Pubkey) (digest : Bytes32) :
    ∃ result w', exec i op (LockJournal.record host epoch digest).run ∅ w = (result, ∅, w') ∧
      (w' = w ∨ ∃ content records bytes, w.files .journal = some content ∧
        decodeJournal host content = .ok records ∧
        encodeJournal host (records.insert epoch digest) = .ok bytes ∧
        w' = w.write i op .journal bytes ∧ result = .ok ⟨records.insert epoch digest⟩) := by
  rw [LockJournal.record, withJournalLock, exec_guarded (by simp) rfl, exec_run_bind, exec_isThere,
    thenRun_ok, exec_run_bind, exec_lift]
  cases hjournal : w.files .journal with
  | none => exact ⟨_, _, rfl, Or.inl rfl⟩
  | some content =>
    simp only [Option.isSome_some, Bool.true_eq_false, rejectIf, if_false, thenRun_ok,
      exec_run_bind, exec_loadJournal, hjournal]
    cases hrecords : decodeJournal host content with
    | error e => exact ⟨_, _, rfl, Or.inl rfl⟩
    | ok records =>
      rw [thenRun_ok, LockJournal.add]
      cases hexisting : records[epoch]? with
      | some existing =>
        by_cases hsame : existing = digest
        · exact ⟨_, _, by simp only [hsame, if_true]; rfl, Or.inl rfl⟩
        · exact ⟨_, _, by simp only [hsame, if_false]; rfl, Or.inl rfl⟩
      | none =>
        simp only [exec_run_bind, exec_persistJournal]
        cases hbytes : encodeJournal host (records.insert epoch digest) with
        | error e => exact ⟨_, _, rfl, Or.inl rfl⟩
        | ok bytes =>
          exact ⟨_, _, rfl, Or.inr ⟨content, records, bytes, rfl, hrecords, hbytes, rfl, rfl⟩⟩

/-- Nothing is on disk in `w'` that was not in `w`. -/
def NothingNew (files : JournalFile → Option Bytes) (w w' : JournalWorld host removable) : Prop :=
  ∀ epoch digest, OnDisk files w'.log epoch digest → OnDisk files w.log epoch digest

theorem NothingNew.marker {w' : JournalWorld host removable} (h : NothingNew files w w')
    (content : Bytes) : NothingNew files w (w'.write i op .initialized content) :=
  fun epoch digest hd => h epoch digest ((silent_marker i op _ content).onDisk hd)

theorem exec_persistInitializationMarker (files : JournalFile → Option Bytes) (i : Nat)
    (op : (journalMachine host removable).Op) (held : Finset Unit)
    (w : JournalWorld host removable) :
    ∃ result w', exec i op (persistInitializationMarker host).run held w = (result, held, w') ∧
      NothingNew files w w' := by
  have hsame : NothingNew files w w := fun _ _ h => h
  rw [persistInitializationMarker, exec_run_bind, exec_adapt, exec_create]
  by_cases hthere : (w.files .initialized).isSome
  · rw [if_pos hthere]
    exact ⟨_, _, rfl, hsame⟩
  · rw [if_neg hthere]
    have hwritten : NothingNew files w (w.write i op .initialized []) := hsame.marker []
    have happend : ∃ w', exec i op (Call.appendAll .initialized (initializationMarker host)).run held
        (w.write i op .initialized []) = (.ok (), held, w') ∧ NothingNew files w w' :=
      exec_appendAll hwritten fun _ content h => h.marker content
    obtain ⟨w', hexec, hw'⟩ := happend
    refine ⟨.ok (), w', ?_, hw'⟩
    show thenRun i op (.ok (), held, w.write i op .initialized []) _ = _
    rw [thenRun_ok, exec_run_bind, exec_adapt, hexec]
    rfl

theorem not_holds_empty {bytes : Bytes} (h : encodeJournal host ∅ = .ok bytes) {epoch : Pubkey}
    {digest : Bytes32} : ¬Holds host bytes epoch digest := by
  rintro ⟨records, hrecords, hdigest⟩
  cases (decodeJournal_encodeJournal h).symm.trans hrecords
  simp at hdigest

theorem exec_setUp (files : JournalFile → Option Bytes) (i : Nat)
    (op : (journalMachine host removable).Op) (held : Finset Unit)
    (w : JournalWorld host removable) (journal marker : Bool) :
    ∃ result w', exec i op (LockJournal.setUp host journal marker).run held w =
      (result, held, w') ∧ NothingNew files w w' := by
  have hsame : NothingNew files w w := fun _ _ h => h
  cases journal <;> cases marker
  · obtain ⟨result, w', hexec, hw'⟩ := exec_persistInitializationMarker files i op held w
    rw [LockJournal.setUp, exec_run_bind, hexec]
    cases result with
    | error e => exact ⟨_, _, rfl, hw'⟩
    | ok =>
      rw [thenRun_ok, exec_persistJournal]
      cases hbytes : encodeJournal host ∅ with
      | error e => exact ⟨_, _, rfl, hw'⟩
      | ok bytes =>
        refine ⟨_, _, rfl, fun epoch digest hd => hw' epoch digest ?_⟩
        refine hd.imp_right fun ⟨j, op', old, new, hmem, hholds⟩ => ?_
        rcases List.mem_cons.mp hmem with heq | hmem
        · cases heq
          exact absurd hholds (not_holds_empty hbytes)
        · exact ⟨j, op', old, new, hmem, hholds⟩
  · exact ⟨_, _, rfl, hsame⟩
  · exact ⟨_, _, rfl, hsame⟩
  · rw [LockJournal.setUp, validateInitializationMarker, exec_run_bind, exec_adapt, exec_read]
    cases w.files .initialized <;> exact ⟨_, _, rfl, hsame⟩

theorem exec_open (files : JournalFile → Option Bytes) (i : Nat)
    (op : (journalMachine host removable).Op) (w : JournalWorld host removable) :
    ∃ result w', exec i op (LockJournal.open host).run ∅ w = (result, ∅, w') ∧
    NothingNew files w w' := by
  obtain ⟨result, w', hexec, hw'⟩ :=
    exec_setUp files i op {()} w (w.files .journal).isSome (w.files .initialized).isSome
  rw [LockJournal.open, withJournalLock, exec_guarded (by simp) rfl]
  simp only [exec_run_bind, exec_isThere, thenRun_ok, insert_empty_eq, hexec]
  cases result with
  | error e => exact ⟨_, _, rfl, hw'⟩
  | ok =>
    obtain ⟨loaded, hloaded⟩ : ∃ loaded, exec i op (loadJournal host).run {()} w' =
        (loaded, {()}, w') := ⟨_, exec_loadJournal⟩
    simp only [thenRun_ok, exec_run_bind, hloaded]
    cases loaded <;> exact ⟨_, _, rfl, hw'⟩

/-- A keyper records a digest and signs it, or nothing is written. -/
theorem exec_signLock (i : Nat) (op : (journalMachine host removable).Op)
    (w : JournalWorld host removable) (keyper : ReferenceKeyper host)
    (package : LockPackageV1 host) (confirmed : ConfirmedOpenEpoch)
    (secret : KeyperSecretShare host) :
    ∃ result w', exec i op (keyper.signLock package confirmed secret).run ∅ w = (result, ∅, w') ∧
      (w' = w ∨ ∃ digest handle content records bytes, w.files .journal = some content ∧
        decodeJournal host content = .ok records ∧
        encodeJournal host (records.insert package.epochAccount digest) = .ok bytes ∧
        w' = w.write i op .journal bytes ∧ result = .ok (keyper.approve digest, handle)) := by
  rw [ReferenceKeyper.signLock, exec_run_bind, exec_lift]
  cases keyper.checkLock package confirmed secret with
  | error e => exact ⟨_, _, rfl, Or.inl rfl⟩
  | ok digest =>
    obtain ⟨result, w', hexec, hw'⟩ := exec_record i op w package.epochAccount digest
    rw [thenRun_ok, exec_run_bind, hexec]
    rcases hw' with rfl | ⟨content, records, bytes, hcontent, hrecords, hbytes, rfl, rfl⟩
    · cases result <;> exact ⟨_, _, rfl, Or.inl rfl⟩
    · exact ⟨_, _, rfl, Or.inr ⟨digest, _, content, records, bytes, hcontent, hrecords, hbytes, rfl,
        rfl⟩⟩

end Undisturbed

/-! ### The chain and the keypers -/

/-- The chain, every chain so far, and the journal of each keyper. -/
structure Network (host : Host) (ι : Type) where
  chain : Chain
  past : List Chain
  journals : ι → KeyperJournal host

/-- An honest keyper: its place, its key, and its own journal path. -/
structure KeyperIdentity (host : Host) where
  index : Nat
  signingKey : host.SigningKey

def KeyperIdentity.handle {host : Host} (identity : KeyperIdentity host) (journal : LockJournal) :
    ReferenceKeyper host where
  index := identity.index
  signingKey := identity.signingKey
  journal := journal

/-- The digest stands, or stood, in the journal. -/
def Journaled {host : Host} (j : KeyperJournal host) (epoch : Pubkey) (digest : Bytes32) : Prop :=
  OnDisk (fun _ => none) j.world.log epoch digest

/-- The keyper approved the digest for the epoch with its own key. -/
def KeyperIdentity.Signed {host : Host} (identity : KeyperIdentity host) (j : KeyperJournal host)
    (epoch : Pubkey) (digest : Bytes32) : Prop :=
  ∃ i journal package confirmed secret handle,
    .returned i (.signLock (identity.handle journal) package confirmed secret)
        (.ok ((identity.handle journal).approve digest, handle)) ∈ j.world.log ∧
      package.epochAccount = epoch

namespace Network

variable {host : Host} {ι : Type} (s : Network host ι)

/-- Keyper `k` holds a handle with this journal, from an `open` or from an earlier lock. -/
def Holds (k : ι) (journal : LockJournal) : Prop :=
  ∃ event ∈ (s.journals k).world.log, Returns event journal

def ReadsOpen (confirmed : ConfirmedOpenEpoch) : Prop :=
  ∃ c ∈ s.past, ∃ rpc epoch, RpcClient.Reads rpc c ∧
    host.fetchConfirmedOpenEpoch rpc epoch = .ok confirmed

def ReadsLock (lock : ConfirmedLock) : Prop :=
  ∃ c ∈ s.past, ∃ rpc epoch, RpcClient.Reads rpc c ∧ host.fetchConfirmedLock rpc epoch = .ok lock

end Network

inductive NetworkEvent (host : Host) (ι : Type) where
  | chain (event : Event)
  | open (k : ι)
  | signLock (k : ι) (package : LockPackageV1 host)
  | release (k : ι) (package : LockPackageV1 host) (lock : ConfirmedLock)
      (share : ReleasedShareV1 host)

section Steps

variable {host : Host} {ι : Type} [DecidableEq ι]

/-- One call of an honest keyper, or one step of the chain. Packages and secret shares are whatever
the coordinator sends; the keyper itself reads the chain, now or earlier. -/
inductive NetworkStep (keyper : ι → KeyperIdentity host) (s : Network host ι) :
    NetworkEvent host ι → Network host ι → Prop
  | chain {event : Event} {c : Chain} : host.ChainStep s.chain event c →
      NetworkStep keyper s (.chain event) { s with chain := c, past := c :: s.past }
  | open (k : ι) : NetworkStep keyper s (.open k)
      { s with journals := Function.update s.journals k ((s.journals k).solo JournalOp.open) }
  | signLock {k : ι} {journal : LockJournal} {package : LockPackageV1 host}
      {confirmed : ConfirmedOpenEpoch} {secret : KeyperSecretShare host} :
      s.Holds k journal → s.ReadsOpen confirmed →
      NetworkStep keyper s (.signLock k package)
        { s with
          journals := Function.update s.journals k ((s.journals k).solo
            (JournalOp.signLock ((keyper k).handle journal) package confirmed secret)) }
  | release {k : ι} {journal : LockJournal} {package : LockPackageV1 host} {lock : ConfirmedLock}
      {secret : KeyperSecretShare host} {member : Nat} {share : ReleasedShareV1 host} :
      s.Holds k journal → s.ReadsLock lock →
      ((keyper k).handle journal).releaseShare package lock secret member = .ok share →
      NetworkStep keyper s (.release k package lock share) s

end Steps

/-- No account of the program, and no journal. -/
structure Network.Initial {host : Host} {ι : Type} (s : Network host ι) : Prop where
  genesis : s.chain.Genesis
  past : s.past = [s.chain]
  journals : ∀ k, s.journals k = State.initial Unit fun _ => none

/-! ### What holds of the journals -/

section Journals

variable {host : Host} {identity : KeyperIdentity host} {j : KeyperJournal host}

theorem KeyperIdentity.Signed.suffix {j' : KeyperJournal host}
    (hsuffix : j.world.log <:+ j'.world.log) {epoch : Pubkey} {digest : Bytes32}
    (h : identity.Signed j epoch digest) : identity.Signed j' epoch digest := by
  obtain ⟨i, journal, package, confirmed, secret, handle, hmem, hepoch⟩ := h
  exact ⟨i, journal, package, confirmed, secret, handle, hsuffix.mem hmem, hepoch⟩

/-- A journal whose calls nobody disturbed holds only digests that its keyper signed. -/
structure KeyperIdentity.Sound (identity : KeyperIdentity host) (j : KeyperJournal host) : Prop where
  free : j.Free
  reaches : Reaches (State.initial Unit fun _ => none) j
  signed : ∀ epoch digest, Journaled j epoch digest → identity.Signed j epoch digest

theorem sound_initial : identity.Sound (State.initial Unit fun _ => none) where
  free _ := rfl
  reaches := .refl
  signed := by
    rintro _ _ (⟨_, h, _⟩ | ⟨_, _, _, _, h, _⟩) <;> cases h

theorem KeyperIdentity.Sound.valid (h : identity.Sound j) :
    JournalValid (fun _ => none) j.world :=
  journal_valid (by simp) (by simp) h.reaches

/-- A call keeps a journal sound if what it puts on disk is signed. -/
theorem KeyperIdentity.Sound.solo (h : identity.Sound j)
    {op : (journalMachine host fun _ => False).Op}
    (hnew : ∀ epoch digest, Journaled (j.solo op) epoch digest →
      Journaled j epoch digest ∨ identity.Signed (j.solo op) epoch digest) :
    identity.Sound (j.solo op) where
  free := (h.free.reaches_solo op).2
  reaches := h.reaches.trans (h.free.reaches_solo op).1
  signed epoch digest hd := by
    rcases hnew epoch digest hd with hold | hsigned
    · exact (h.signed epoch digest hold).suffix (State.solo_log j op)
    · exact hsigned

theorem KeyperIdentity.Sound.open (h : identity.Sound j) :
    identity.Sound (j.solo JournalOp.open) := by
  refine h.solo fun epoch digest hd => Or.inl ?_
  obtain ⟨result, w, hexec, hnew⟩ := exec_open (fun _ => none) j.next JournalOp.open
    (j.world.note (.started j.next JournalOp.open))
  rw [Journaled, State.solo_world hexec] at hd
  exact (silent_started _ _).onDisk (hnew epoch digest (silent_returned.onDisk hd))

theorem KeyperIdentity.Sound.signLock (h : identity.Sound j) (journal : LockJournal)
    (package : LockPackageV1 host) (confirmed : ConfirmedOpenEpoch)
    (secret : KeyperSecretShare host) :
    identity.Sound
      (j.solo (JournalOp.signLock (identity.handle journal) package confirmed secret)) := by
  obtain ⟨result, w, hexec, hw⟩ := exec_signLock j.next
    (.signLock (identity.handle journal) package confirmed secret)
    (j.world.note (.started j.next (.signLock (identity.handle journal) package confirmed secret)))
    (identity.handle journal) package confirmed secret
  have hworld := State.solo_world hexec
  refine h.solo fun epoch digest hd => ?_
  rw [Journaled, hworld] at hd
  have hbefore := silent_returned.onDisk hd
  rcases hw with rfl | ⟨signed, handle, content, records, bytes, hcontent, hrecords, hbytes, rfl, rfl⟩
  · exact Or.inl ((silent_started _ _).onDisk hbefore)
  · rcases hbefore with ⟨_, hnone, -⟩ | ⟨i, op, old, new, hmem, hholds⟩
    · cases hnone
    rcases List.mem_cons.mp hmem with heq | hmem
    · cases heq
      obtain ⟨records', hrecords', hdigest⟩ := hholds
      cases (decodeJournal_encodeJournal hbytes).symm.trans hrecords'
      by_cases hepoch : package.epochAccount = epoch
      · rw [Map.getElem?_insert, if_pos hepoch] at hdigest
        cases hdigest
        refine Or.inr ⟨j.next, journal, package, confirmed, secret, handle, ?_, hepoch⟩
        rw [hworld]
        exact List.mem_cons_self
      · rw [Map.getElem?_insert, if_neg hepoch] at hdigest
        exact Or.inl ((h.valid.current content records hcontent hrecords epoch digest).mpr hdigest)
    · exact Or.inl ((silent_started _ _).onDisk (Or.inr ⟨i, op, old, new, hmem, hholds⟩))

end Journals

/-! ### What holds of every run -/

section Whole

variable {host : Host} {ι : Type} {keyper : ι → KeyperIdentity host} {c₀ : Chain}
  {es : List (NetworkEvent host ι)} {s s' : Network host ι}

/-- One chain comes from the other. -/
def Chain.Related (host : Host) (c c' : Chain) : Prop :=
  (∃ fs, Run host.ChainStep c fs c') ∨ ∃ fs, Run host.ChainStep c' fs c

/-- What a released share was checked against. -/
structure Network.Checked (s : Network host ι) (package : LockPackageV1 host)
    (lock : ConfirmedLock) : Prop where
  read : s.ReadsLock lock
  locked : ∃ pool, package.Locked lock pool

variable (keyper c₀ es s) in
structure Network.Sound : Prop where
  journals : ∀ k, (keyper k).Sound (s.journals k)
  current : s.chain ∈ s.past
  past : ∀ c ∈ s.past, ∃ fs, Run host.ChainStep c₀ fs c ∧ ∀ event ∈ fs, .chain event ∈ es
  latest : ∀ c ∈ s.past, ∃ fs, Run host.ChainStep c fs s.chain
  related : ∀ c ∈ s.past, ∀ c' ∈ s.past, Chain.Related host c c'
  released : ∀ k package lock share, .release k package lock share ∈ es → s.Checked package lock

theorem Network.ReadsLock.mono {lock : ConfirmedLock} (h : s.ReadsLock lock)
    (hpast : ∀ c ∈ s.past, c ∈ s'.past) : s'.ReadsLock lock := by
  obtain ⟨c, hc, rpc, epoch, hreads, hlock⟩ := h
  exact ⟨c, hpast c hc, rpc, epoch, hreads, hlock⟩

theorem Network.Initial.sound (h : s.Initial) : s.Sound keyper s.chain [] where
  journals k := by
    rw [h.journals k]
    exact sound_initial
  current := by simp [h.past]
  past c hc := by
    rw [h.past, List.mem_singleton] at hc
    exact ⟨[], hc ▸ .nil _, by simp⟩
  latest c hc := by
    rw [h.past, List.mem_singleton] at hc
    exact ⟨[], hc ▸ .nil _⟩
  related c hc c' hc' := by
    rw [h.past, List.mem_singleton] at hc hc'
    exact Or.inl ⟨[], hc ▸ hc' ▸ .nil _⟩
  released := by simp

/-- The lock that a keyper read stands on a past chain. -/
theorem Network.Sound.lockOn (lawful : host.toRuntime.Lawful) (genesis : c₀.Genesis)
    (hs : s.Sound keyper c₀ es) {lock : ConfirmedLock} (h : s.ReadsLock lock) :
    ∃ c ∈ s.past, ∃ pool, lock.On c pool := by
  obtain ⟨c, hc, rpc, epoch, hreads, hlock⟩ := h
  obtain ⟨fs, hrun, -⟩ := hs.past c hc
  have hpools := Runtime.poolsValid_of_run lawful genesis hrun
  obtain ⟨-, pool, hon⟩ := host.fetchConfirmedLock_ok hpools hreads hlock
  exact ⟨c, hc, pool, hon⟩

/-- Two keypers that read one lock at different moments read the same. -/
theorem Network.Sound.sameLock (lawful : host.toRuntime.Lawful) (genesis : c₀.Genesis)
    (hs : s.Sound keyper c₀ es) {lock lock' : ConfirmedLock} (h : s.ReadsLock lock)
    (h' : s.ReadsLock lock') (hepoch : lock.epochAccount = lock'.epochAccount) :
    lock.Same lock' := by
  obtain ⟨c, hc, pool, hon⟩ := hs.lockOn lawful genesis h
  obtain ⟨c', hc', pool', hon'⟩ := hs.lockOn lawful genesis h'
  rcases hs.related c hc c' hc' with ⟨fs, hrun⟩ | ⟨fs, hrun⟩
  · exact hon.same lawful hrun hon' hepoch
  · have hsame := hon'.same lawful hrun hon hepoch.symm
    exact ⟨hepoch, hsame.state.symm, hsame.pool.symm⟩

theorem Network.Sound.known (hs : s.Sound keyper c₀ es) {k : ι} {journal : LockJournal}
    (h : s.Holds k journal) {epoch : Pubkey} {digest : Bytes32}
    (hdigest : journal.records[epoch]? = some digest) :
    Journaled (s.journals k) epoch digest := by
  obtain ⟨event, hmem, hreturns⟩ := h
  obtain ⟨newer, older, heq⟩ := List.append_of_mem hmem
  have hknown := ((hs.journals k).valid.vouched event older ⟨newer, heq.symm⟩).known journal hreturns
  rw [Journaled, heq]
  exact (hknown epoch digest hdigest).suffix ⟨newer ++ [event], by simp⟩

variable [DecidableEq ι]

/-- A call of one keyper changes only its own journal. -/
theorem Network.Sound.journal (h : s.Sound keyper c₀ es) {k : ι} {j : KeyperJournal host}
    (hj : (keyper k).Sound j) {event : NetworkEvent host ι}
    (hevent : ∀ k package lock share, event ≠ .release k package lock share) :
    Network.Sound keyper c₀ (es ++ [event]) { s with journals := Function.update s.journals k j } where
  journals k' := by
    by_cases hk : k' = k
    · subst hk
      simpa using hj
    · simpa [hk] using h.journals k'
  current := h.current
  past c hc := by
    obtain ⟨fs, hrun, hmem⟩ := h.past c hc
    exact ⟨fs, hrun, fun e he => List.mem_append_left _ (hmem e he)⟩
  latest := h.latest
  related := h.related
  released k package lock share hmem := by
    rcases List.mem_append.mp hmem with hmem | hmem
    · obtain ⟨hread, hlocked⟩ := h.released k package lock share hmem
      exact ⟨hread.mono fun _ hc => hc, hlocked⟩
    · exact absurd (List.mem_singleton.mp hmem).symm (hevent k package lock share)

theorem ReferenceKeyper.releaseShare_ok {handle : ReferenceKeyper host}
    {package : LockPackageV1 host} {lock : ConfirmedLock} {secret : KeyperSecretShare host}
    {member : Nat} {share : ReleasedShareV1 host}
    (h : handle.releaseShare package lock secret member = .ok share) :
    (∃ pool, package.Locked lock pool) ∧
      handle.journal.records[package.epochAccount]? = some lock.state.lockDigest ∧
      secret.index = handle.index ∧ ∃ submission ∈ package.submissions,
        secret.release package.epochAccount lock.state.lockDigest submission.ciphertext =
          .ok share := by
  simp only [ReferenceKeyper.releaseShare, bind_ok, Unique.exists_iff, rejectIf_eq_ok, okOr_eq_ok,
    mapError_eq_ok, not_or, not_not] at h
  obtain ⟨digest, hlocked, configured, -, ⟨-, hjournal, hindex, -⟩, submission, hmember, -,
    hshare⟩ := h
  obtain ⟨pool, hpool, rfl⟩ := LockPackageV1.validateLocked_ok hlocked
  exact ⟨⟨pool, hpool⟩, hjournal, hindex.symm, submission, List.mem_of_getElem? hmember, hshare⟩

theorem NetworkStep.sound {event : NetworkEvent host ι} (hs : s.Sound keyper c₀ es)
    (h : NetworkStep keyper s event s') : s'.Sound keyper c₀ (es ++ [event]) := by
  cases h with
  | @chain event c hstep =>
    have hlatest : ∀ c' ∈ s.past, ∃ fs, Run host.ChainStep c' fs c := by
      intro c' hc'
      obtain ⟨fs, hrun⟩ := hs.latest c' hc'
      exact ⟨fs ++ [event], hrun.append (.cons hstep (.nil _))⟩
    refine ⟨hs.journals, List.mem_cons_self, ?_, ?_, ?_, ?_⟩
    · refine List.forall_mem_cons.mpr ⟨?_, fun c' hc' => ?_⟩
      · obtain ⟨fs, hrun, hmem⟩ := hs.past _ hs.current
        refine ⟨fs ++ [event], hrun.append (.cons hstep (.nil _)), fun e he => ?_⟩
        rcases List.mem_append.mp he with he | he
        · exact List.mem_append_left _ (hmem e he)
        · rw [List.mem_singleton.mp he]
          simp
      · obtain ⟨fs, hrun, hmem⟩ := hs.past c' hc'
        exact ⟨fs, hrun, fun e he => List.mem_append_left _ (hmem e he)⟩
    · exact List.forall_mem_cons.mpr ⟨⟨[], .nil _⟩, hlatest⟩
    · refine List.forall_mem_cons.mpr ⟨List.forall_mem_cons.mpr ⟨Or.inl ⟨[], .nil _⟩, ?_⟩, ?_⟩
      · exact fun c' hc' => Or.inr (hlatest c' hc')
      · exact fun c' hc' => List.forall_mem_cons.mpr ⟨Or.inl (hlatest c' hc'), hs.related c' hc'⟩
    · intro k package lock share hmem
      simp only [List.mem_append, List.mem_singleton, reduceCtorEq, or_false] at hmem
      obtain ⟨hread, hlocked⟩ := hs.released k package lock share hmem
      exact ⟨hread.mono fun _ hc => List.mem_cons_of_mem _ hc, hlocked⟩
  | «open» k => exact hs.journal (hs.journals k).open nofun
  | @signLock k journal package confirmed secret _ _ =>
    exact hs.journal ((hs.journals k).signLock journal package confirmed secret) nofun
  | @release k journal package lock secret member share _ hread hshare =>
    refine ⟨hs.journals, hs.current, fun c hc => ?_, hs.latest, hs.related, ?_⟩
    · obtain ⟨fs, hrun, hmem⟩ := hs.past c hc
      exact ⟨fs, hrun, fun e he => List.mem_append_left _ (hmem e he)⟩
    · intro k' package' lock' share' hmem
      rcases List.mem_append.mp hmem with hmem | hmem
      · exact hs.released k' package' lock' share' hmem
      · cases List.mem_singleton.mp hmem
        exact ⟨hread, (ReferenceKeyper.releaseShare_ok hshare).1⟩

theorem network_sound {s₀ : Network host ι} (initial : s₀.Initial)
    (run : Run (NetworkStep keyper) s₀ es s) : s.Sound keyper s₀.chain es :=
  run.invariant_labels (fun hs hstep => hstep.sound hs) initial.sound

/-- Why keyper `k` may release `share` for a package: `e` is the locked epoch and `p` its pool. -/
structure Network.Entitled (verify : Bytes → Bytes → Bytes → Prop)
    (keyper : ι → KeyperIdentity host) (es : List (NetworkEvent host ι)) (s : Network host ι)
    (k : ι) (package : LockPackageV1 host) (share : ReleasedShareV1 host) (e : EpochStateV1)
    (p : PoolStateV1) : Prop where
  onChain : ∃ c ∈ s.past, c.EpochAt package.epochAccount e ∧ c.PoolAt e.pool p
  locked : e.terminalState = .locked
  journaled : Journaled (s.journals k) package.epochAccount e.lockDigest
  signed : (keyper k).Signed (s.journals k) package.epochAccount e.lockDigest
  approved : ∃ tx accounts data, .chain (.invoke tx accounts data) ∈ es ∧
    TwoSigned verify tx p.keypers e.lockDigest
  member : ∃ submission ∈ package.submissions, ∃ secret : KeyperSecretShare host,
    secret.index = (keyper k).index ∧
      secret.release package.epochAccount e.lockDigest submission.ciphertext = .ok share
  crowd : max 4 e.minimumCount.toNat ≤ package.submissions.length
  participants : (package.submissions.map fun x => x.authorization.participantId).Nodup
  memberRoot : memberRoot host package.epochPublicKeys package.submissions = .ok e.memberRoot

/-- Whenever a keyper releases a share, the epoch is locked with a digest that this keyper recorded
and signed and that two configured keypers approved on the chain, and the share is for a member of a
crowd with the root on the chain. For one epoch all released shares are for one set of members. -/
theorem shares_of_one_locked_crowd (lawful : host.toRuntime.Lawful)
    {verify : Bytes → Bytes → Bytes → Prop} {s₀ : Network host ι} (initial : s₀.Initial)
    (run : Run (NetworkStep keyper) s₀ es s)
    (hverified : ∀ tx accounts data, .chain (.invoke tx accounts data) ∈ es →
      Precompile verify tx) :
    (∀ k package lock share t, NetworkStep keyper s (.release k package lock share) t →
      ∃ e p, s.Entitled verify keyper es k package share e p) ∧
    (∀ k package lock share k' package' lock' share', .release k package lock share ∈ es →
      .release k' package' lock' share' ∈ es → package.epochAccount = package'.epochAccount →
      Set.InjOn host.sha256 {m | m ∈ package.messages ∨ m ∈ package'.messages} →
      package.submissions.Perm package'.submissions) := by
  have hs := network_sound initial run
  constructor
  · intro k package lock share t hstep
    cases hstep with
    | @release _ journal _ _ secret member _ hholds hread hshare =>
      obtain ⟨⟨pool', hlocked⟩, hdigest, hindex, submission, hmember, hrelease⟩ :=
        ReferenceKeyper.releaseShare_ok hshare
      obtain ⟨c, hc, pool, hon⟩ := hs.lockOn lawful initial.genesis hread
      obtain rfl : pool' = pool := Option.some.inj (hlocked.poolRead.symm.trans hon.poolRead)
      obtain ⟨policy, timestamp, hvalid⟩ := hlocked.valid
      have hepoch : package.epochAccount = lock.epochAccount := hvalid.epochAccount
      have hconfiguration : package.configuration = lock.state.configuration pool' :=
        hvalid.configuration
      have hjournaled := hs.known hholds hdigest
      obtain ⟨fs, hrun, hfs⟩ := hs.past c hc
      have hsigned : c.LocksSigned verify fs :=
        Runtime.locksSigned_of_run lawful initial.genesis hrun fun tx accounts data hmem =>
          hverified tx accounts data (hfs _ hmem)
      obtain ⟨p, hp, tx, accounts, data, hmem, htwo⟩ := hsigned _ _ hon.epochAt hon.locked
      cases hp.unique hon.poolAt
      refine ⟨lock.state, pool', ⟨c, hc, hepoch ▸ hon.epochAt, hon.poolAt⟩, hon.locked, hjournaled,
        (hs.journals k).signed _ _ hjournaled, ⟨tx, accounts, data, hfs _ hmem, htwo⟩,
        ⟨submission, hmember, secret, hindex, hrelease⟩, ?_, hvalid.participants, ?_⟩
      · have hcrowd := UInt32.le_iff_toNat_le.mp hvalid.crowd
        have hminimum := UInt32.le_iff_toNat_le.mp hvalid.minimumCount
        rw [hconfiguration] at hcrowd hminimum
        rw [hvalid.memberCount] at hcrowd
        exact max_le (hminimum.trans hcrowd) hcrowd
      · rw [← hlocked.memberRoot]
        exact hvalid.members
  · intro k package lock share k' package' lock' share' hmem hmem' hepoch hinj
    obtain ⟨hread, pool, hlocked⟩ := hs.released k package lock share hmem
    obtain ⟨hread', pool', hlocked'⟩ := hs.released k' package' lock' share' hmem'
    have hlock : lock.epochAccount = lock'.epochAccount := by
      obtain ⟨_, _, hvalid⟩ := hlocked.valid
      obtain ⟨_, _, hvalid'⟩ := hlocked'.valid
      exact hvalid.epochAccount.symm.trans (hepoch.trans hvalid'.epochAccount)
    exact (hlocked.sameMembers hinj (hs.sameLock lawful initial.genesis hread hread' hlock)
      hlocked').2

end Whole

namespace Sample

def identity (k : Fin 3) : KeyperIdentity host := ⟨k, keypers.toList.getD k zero32⟩

def noJournal : KeyperJournal host := State.initial Unit fun _ => none

def newJournal : KeyperJournal host := noJournal.solo JournalOp.open

def newHandle : LockJournal := (Except.toOption (noJournal.told JournalOp.open)).getD ⟨∅⟩

def lockOp : JournalOp host :=
  .signLock ((identity 0).handle newHandle) (package [1, 2, 3, 4]) packageOpen (secretShare 0)

def lockedKeyper : LockApprovalV1 × ReferenceKeyper host :=
  (Except.toOption (newJournal.told lockOp)).getD
    (((identity 0).handle newHandle).approve zero32, (identity 0).handle newHandle)

def lockedHandle : LockJournal := lockedKeyper.2.journal

/-- The share of the first keyper for the first member of a package. -/
def released (members : List UInt8) : Option (ReleasedShareV1 host) :=
  (((identity 0).handle lockedHandle).releaseShare (package members) packageLock (secretShare 0)
    0).toOption

/-- A network in which only the first keyper has made calls. -/
def networkAt (c : Chain) (past : List Chain) (j : KeyperJournal host) : Network host (Fin 3) where
  chain := c
  past := c :: past
  journals := Function.update (fun _ => noJournal) 0 j

theorem networkAt_chain {c c' : Chain} {past : List Chain} {j : KeyperJournal host} {event : Event}
    (h : host.ChainStep c event c') :
    NetworkStep identity (networkAt c past j) (.chain event) (networkAt c' (c :: past) j) :=
  .chain h

theorem networkAt_open {c : Chain} {past : List Chain} {j : KeyperJournal host} :
    NetworkStep identity (networkAt c past j) (.open 0)
      (networkAt c past (j.solo JournalOp.open)) := by
  have hstep := @NetworkStep.open _ _ _ identity (networkAt c past j) 0
  simpa [networkAt] using hstep

theorem networkAt_signLock {c : Chain} {past : List Chain} {j : KeyperJournal host}
    {journal : LockJournal} {package : LockPackageV1 host} {confirmed : ConfirmedOpenEpoch}
    {secret : KeyperSecretShare host} (hjournal : (networkAt c past j).Holds 0 journal)
    (hread : (networkAt c past j).ReadsOpen confirmed) :
    NetworkStep identity (networkAt c past j) (.signLock 0 package) (networkAt c past
      (j.solo (JournalOp.signLock ((identity 0).handle journal) package confirmed secret))) := by
  have hstep := @NetworkStep.signLock _ _ _ identity _ _ _ package _ secret hjournal hread
  simpa [networkAt] using hstep

theorem networkAt_holds {c : Chain} {past : List Chain} {j : KeyperJournal host}
    {event : JournalEvent host fun _ => False} {journal : LockJournal}
    (hmem : event ∈ j.world.log) (hreturns : Returns event journal) :
    (networkAt c past j).Holds 0 journal :=
  ⟨event, by simpa [networkAt] using hmem, hreturns⟩

def network : Network host (Fin 3) := networkAt chain [] noJournal

theorem network_initial : network.Initial where
  genesis := chain_genesis
  past := rfl
  journals k := by simp [network, networkAt, noJournal]

def lockedNetwork : Network host (Fin 3) :=
  networkAt packageChain [openChain, epochChain, poolChain, chain] (newJournal.solo lockOp)

theorem journal_facts :
    (Except.toOption (noJournal.told JournalOp.open)).isSome = true ∧
    (Except.toOption (newJournal.told lockOp)).isSome = true ∧
    (Precompile verify poolTx ∧ Precompile verify epochTx ∧ Precompile verify packageTx) ∧
    (released [1, 2, 3, 4]).isSome ∧ (released [4, 3, 2, 1]).isSome := by
  unfold Precompile
  decide +kernel

theorem open_told : noJournal.told JournalOp.open = .ok newHandle :=
  Checks.eq_ok_of_isSome _ journal_facts.1

theorem lock_told : newJournal.told lockOp = .ok lockedKeyper :=
  Checks.eq_ok_of_isSome _ journal_facts.2.1

theorem newHandle_held (c : Chain) (past : List Chain) :
    (networkAt c past newJournal).Holds 0 newHandle := by
  have hevent := State.solo_returned noJournal JournalOp.open
  rw [open_told] at hevent
  exact networkAt_holds hevent (Or.inl ⟨noJournal.next, rfl⟩)

theorem lockedHandle_held : lockedNetwork.Holds 0 lockedHandle := by
  have hevent := State.solo_returned newJournal lockOp
  rw [lock_told] at hevent
  exact networkAt_holds hevent (returns_signLock ..)

theorem lock_read : lockedNetwork.ReadsLock packageLock :=
  ⟨packageChain, List.mem_cons_self, rpc packageChain, epoch, rpc_reads _, fetch_packageLock⟩

/-- The first keyper opens its journal and signs the lock, and the lock goes on the chain. -/
def lockedEvents : List (NetworkEvent host (Fin 3)) :=
  [.chain (.invoke poolTx poolAccounts poolCall.encode),
    .chain (.invoke epochTx epochAccounts epochCall.encode), .chain .other, .open 0,
    .signLock 0 (package [1, 2, 3, 4]),
    .chain (.invoke packageTx lockAccounts packageCall.encode)]

theorem locked_run : Run (NetworkStep identity) network lockedEvents lockedNetwork := by
  have hpool : host.ChainStep chain (.invoke poolTx poolAccounts poolCall.encode) poolChain :=
    .invoke chain poolTx poolAccounts poolCall.encode
  have hepoch : host.ChainStep poolChain (.invoke epochTx epochAccounts epochCall.encode)
      epochChain := .invoke poolChain epochTx epochAccounts epochCall.encode
  have hclock : host.ChainStep epochChain .other openChain :=
    .other (atTime_interference 6 packageChain_reads.2.2.1)
  have hlock : host.ChainStep openChain (.invoke packageTx lockAccounts packageCall.encode)
      packageChain := .invoke openChain packageTx lockAccounts packageCall.encode
  exact .cons (networkAt_chain hpool) <| .cons (networkAt_chain hepoch) <|
    .cons (networkAt_chain hclock) <| .cons networkAt_open <|
    .cons (networkAt_signLock (newHandle_held _ _)
      ⟨openChain, List.mem_cons_self, rpc openChain, epoch, rpc_reads _, fetch_packageOpen⟩) <|
    .cons (networkAt_chain hlock) (.nil _)

theorem lockedEvents_verified {tx : InstructionsSysvar} {accounts : List AccountMeta} {data : Bytes}
    (h : .chain (.invoke tx accounts data) ∈ lockedEvents) : Precompile verify tx := by
  have hverified := journal_facts.2.2.1
  simp only [lockedEvents, List.mem_cons, NetworkEvent.chain.injEq, Event.invoke.injEq,
    reduceCtorEq, List.not_mem_nil, or_false, false_or] at h
  rcases h with ⟨rfl, -⟩ | ⟨rfl, -⟩ | ⟨rfl, -⟩
  · exact hverified.1
  · exact hverified.2.1
  · exact hverified.2.2

/-- The share for the first member of the package in one order and in the other. -/
theorem released_shares : ∃ share share',
    ((identity 0).handle lockedHandle).releaseShare (package [1, 2, 3, 4]) packageLock
      (secretShare 0) 0 = .ok share ∧
    ((identity 0).handle lockedHandle).releaseShare (package [4, 3, 2, 1]) packageLock
      (secretShare 0) 0 = .ok share' := by
  obtain ⟨-, -, -, hfirst, hsecond⟩ := journal_facts
  obtain ⟨share, hshare⟩ := Option.isSome_iff_exists.mp hfirst
  obtain ⟨share', hshare'⟩ := Option.isSome_iff_exists.mp hsecond
  exact ⟨share, share', Checks.eq_ok_of_toOption hshare, Checks.eq_ok_of_toOption hshare'⟩

end Sample

/-- In the sample run the share of the first keyper is one that it may release, and the two orders
in which the coordinator sends the members make no difference. -/
theorem shares_of_one_locked_crowd_sample : ∃ es share share',
    Run (NetworkStep Sample.identity) Sample.network es Sample.lockedNetwork ∧
    .release 0 (Sample.package [1, 2, 3, 4]) Sample.packageLock share ∈ es ∧
    .release 0 (Sample.package [4, 3, 2, 1]) Sample.packageLock share' ∈ es ∧
    (∃ e p, Sample.lockedNetwork.Entitled Sample.verify Sample.identity es 0
      (Sample.package [1, 2, 3, 4]) share e p) ∧
    (Sample.package [1, 2, 3, 4]).submissions.Perm (Sample.package [4, 3, 2, 1]).submissions := by
  obtain ⟨share, share', hshare, hshare'⟩ := Sample.released_shares
  have hstep : NetworkStep Sample.identity Sample.lockedNetwork
      (.release 0 (Sample.package [1, 2, 3, 4]) Sample.packageLock share) Sample.lockedNetwork :=
    .release Sample.lockedHandle_held Sample.lock_read hshare
  have hstep' : NetworkStep Sample.identity Sample.lockedNetwork
      (.release 0 (Sample.package [4, 3, 2, 1]) Sample.packageLock share') Sample.lockedNetwork :=
    .release Sample.lockedHandle_held Sample.lock_read hshare'
  have hrun := Sample.locked_run.append (.cons hstep (.cons hstep' (.nil _)))
  have hverified : ∀ tx accounts data, .chain (.invoke tx accounts data) ∈ Sample.lockedEvents ++
      [.release 0 (Sample.package [1, 2, 3, 4]) Sample.packageLock share,
        .release 0 (Sample.package [4, 3, 2, 1]) Sample.packageLock share'] →
      Precompile Sample.verify tx := by
    intro tx accounts data hmem
    rcases List.mem_append.mp hmem with hmem | hmem
    · exact Sample.lockedEvents_verified hmem
    · simp at hmem
  obtain ⟨hentitled, hperm⟩ := shares_of_one_locked_crowd Sample.host_lawful Sample.network_initial
    hrun hverified
  have hmem : .release 0 (Sample.package [1, 2, 3, 4]) Sample.packageLock share ∈
      Sample.lockedEvents ++ [.release 0 (Sample.package [1, 2, 3, 4]) Sample.packageLock share,
        .release 0 (Sample.package [4, 3, 2, 1]) Sample.packageLock share'] :=
    List.mem_append_right _ List.mem_cons_self
  have hmem' : .release 0 (Sample.package [4, 3, 2, 1]) Sample.packageLock share' ∈
      Sample.lockedEvents ++ [.release 0 (Sample.package [1, 2, 3, 4]) Sample.packageLock share,
        .release 0 (Sample.package [4, 3, 2, 1]) Sample.packageLock share'] :=
    List.mem_append_right _ (List.mem_cons_of_mem _ List.mem_cons_self)
  exact ⟨_, share, share', hrun, hmem, hmem', hentitled _ _ _ _ _ hstep,
    hperm 0 _ _ share 0 _ _ share' hmem hmem' rfl Sample.package_injOn⟩

end Kageb
