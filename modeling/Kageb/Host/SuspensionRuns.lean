import Kageb.Host.Reference
import Kageb.Host.Suspensions
import Kageb.Lib.Journals
import Kageb.Lib.Solo

/-! The suspension registry over whole runs: any number of handles on one path, in any interleaving
of their calls, wherever their processes stop. A suspended key stays suspended, and no call that
begins after its suspension was reported issues an authorization for it. -/

namespace Kageb

open Binary Checks Files Maps Files.Discipline

section Registry

variable {host : Host}

abbrev SuspensionEvent (host : Host) : Type := Files.Event (suspensionMachine host)

abbrev SuspensionRun (host : Host) : Type 1 := State (suspensionMachine host)

/-- What a call may make of the suspended keys. -/
inductive SuspensionMove (keys : TradingKeys) : SuspensionOp host → TradingKeys → Prop
  | open : SuspensionMove keys .open keys
  | suspend (tradingKey : Bytes32) :
      SuspensionMove keys (.suspend tradingKey) (keys.insert tradingKey ())

theorem SuspensionMove.mono {keys keys' : TradingKeys} {op : SuspensionOp host}
    (h : SuspensionMove keys op keys') {k : Bytes32} (hk : k ∈ keys) : k ∈ keys' := by
  cases h with
  | «open» => exact hk
  | suspend tradingKey => exact Std.ExtTreeMap.mem_insert.mpr (.inr hk)

/-- The keys in the bytes of the file, if there is one. -/
def storedSuspensions (host : Host) (content : Option Bytes) : TradingKeys :=
  (content.bind fun bytes => (decodeSuspensions host bytes).toOption).getD ∅

/-- What the events of a log have left in the registry. -/
def suspendedAfter (log : List (SuspensionEvent host)) : TradingKeys :=
  storedSuspensions host (contentOf (fun _ => none) log ())

/-- What an answer says of the registry: a handle has keys that were in it at some moment of the
call, and an authorization is for a key that was not. -/
def Reported (log : List (SuspensionEvent host)) (i : Nat) :
    (op : SuspensionOp host) → (suspensionMachine host).Result op → Prop
  | .open, result => ∀ keys : TradingKeys, result = .ok keys →
      ∃ during, during <:+ log ∧ suspendedAfter during = keys
  | .suspend tradingKey, result => ∀ keys : TradingKeys, result = .ok keys →
      tradingKey ∈ keys ∧ ∃ during, during <:+ log ∧ suspendedAfter during = keys
  | .issueAuthorization reserved tradingKey operator expirySlot, result =>
      ∀ a : FundedAuthorizationV1, result = .ok a →
        a = FundedAuthorizationV1.sign host reserved tradingKey.bytes operator expirySlot ∧
        ∃ during, during <:+ log ∧ tradingKey.bytes ∉ suspendedAfter during ∧
          .started i (.issueAuthorization reserved tradingKey operator expirySlot) ∈ during

/-- The registry as a journal of its keys. -/
def suspensionJournal (host : Host) :
    Journal (suspensionMachine host) TradingKeys SuspensionError where
  file := ()
  lock := ()
  empty := ∅
  decode := decodeSuspensions host
  encode := encodeSuspensions host
  Valid _ := True
  step := SuspensionMove
  told := Reported
  valid_empty := trivial
  decode_encode _ := decodeSuspensions_encode
  valid_step _ _ := trivial
  told_suffix := by
    intro older newer i op result hreported hsuffix
    cases op with
    | «open» =>
      intro keys hkeys
      obtain ⟨during, hduring, hstate⟩ := hreported keys hkeys
      exact ⟨during, hduring.trans hsuffix, hstate⟩
    | suspend tradingKey =>
      intro keys hkeys
      obtain ⟨hmem, during, hduring, hstate⟩ := hreported keys hkeys
      exact ⟨hmem, during, hduring.trans hsuffix, hstate⟩
    | issueAuthorization reserved tradingKey operator expirySlot =>
      intro a ha
      obtain ⟨hsigned, during, hduring, hrest⟩ := hreported a ha
      exact ⟨hsigned, during, hduring.trans hsuffix, hrest⟩

abbrev SuspensionDiscipline (host : Host) : Discipline (suspensionMachine host) :=
  (suspensionJournal host).discipline

/-! ### What each call does -/

section Calls

variable {i : Nat} {held : Finset Unit} {w : World (suspensionMachine host)}

theorem suspensions_lockRefused (acquired : Acquired) :
    SuspensionRegistry.lockRefused acquired = none ↔ acquired = .locked := by
  cases acquired <;> simp [SuspensionRegistry.lockRefused]

theorem ends_openSuspensions : (SuspensionDiscipline host).Ends i .open held w
    (fun r w' => Reported w'.log i .open r) (SuspensionRegistry.open host).run := by
  refine ends_guarded suspensions_lockRefused (fun _ _ _ _ _ => by rintro keys ⟨⟩)
    fun now _ hnow => ?_
  have hheld := Finset.mem_insert_self () held
  refine ends_isThere.bind (fun there w₁ ⟨hw₁, hthere⟩ => ?_) fun _ _ _ _ _ => by rintro keys ⟨⟩
  have hload : ∀ w₂, (SuspensionDiscipline host).Ends i .open (insert () held) w₂
      (fun r w' => ∀ later, (SuspensionDiscipline host).Later i (insert () held) w' later →
        Reported later.log i .open r) (SuspensionRegistry.loadSuspensions host).run := fun w₂ =>
    (Journal.ends_load (J := suspensionJournal host)).mono
      fun r w' ⟨_, hr⟩ later hlater keys hkeys => ⟨w'.log, hlater.rely.log, (hr keys hkeys).symm⟩
  cases there with
  | true => exact hload w₁
  | false =>
    -- without the file there are no keys
    have hempty : (suspensionJournal host).stateAfter w₁.log = ∅ := by
      have hnone : w₁.files () = none := by simpa using (Except.ok.inj hthere).symm
      rw [hw₁.valid.stateAfter]
      exact congrArg (storedSuspensions host) hnone
    have hstep : (suspensionJournal host).step
        ((suspensionJournal host).stateAfter w₁.log) .open ∅ := by
      rw [hempty]
      exact .open
    exact ((Journal.ends_store hw₁.valid hheld hstep).mono fun _ _ _ => trivial).bind
      (fun _ w₂ _ => hload w₂) fun _ _ _ _ _ => by rintro keys ⟨⟩

theorem ends_suspend {tradingKey : Bytes32} :
    (SuspensionDiscipline host).Ends i (.suspend tradingKey) held w
      (fun r w' => Reported w'.log i (.suspend tradingKey) r)
      (SuspensionRegistry.suspend host tradingKey).run := by
  refine ends_guarded suspensions_lockRefused (fun _ _ _ _ _ => by rintro keys ⟨⟩)
    fun now _ hnow => ?_
  have hheld := Finset.mem_insert_self () held
  refine (Journal.ends_load (J := suspensionJournal host)).bind
    (fun current w₁ ⟨hw₁, hcurrent⟩ => ?_) fun _ _ _ _ _ => by rintro keys ⟨⟩
  cases hcurrent current rfl
  refine (Journal.ends_store hw₁.valid hheld (.suspend tradingKey)).bind
    (fun u w₂ ⟨_, _, hstored⟩ => ?_) fun _ _ _ _ _ => by rintro keys ⟨⟩
  refine ends_lift fun later hlater keys hkeys => ?_
  cases hkeys
  exact ⟨Std.ExtTreeMap.mem_insert_self, w₂.log, hlater.rely.log, (hstored u rfl).1⟩

/-- The keys are read while the lock is held, after the call has begun. -/
theorem ends_issueAuthorization {reserved : UnsignedFundedAuthorizationV1}
    {tradingKey : VerifyingKey host} {operator : host.SigningKey} {expirySlot : UInt64}
    (hstarted : .started i (.issueAuthorization reserved tradingKey operator expirySlot) ∈ w.log) :
    (SuspensionDiscipline host).Ends i
      (.issueAuthorization reserved tradingKey operator expirySlot) held w
      (fun r w' => Reported w'.log i
        (.issueAuthorization reserved tradingKey operator expirySlot) r)
      (SuspensionRegistry.issueAuthorization host reserved tradingKey operator expirySlot).run := by
  refine ends_guarded suspensions_lockRefused (fun _ _ _ _ _ => by rintro a ⟨⟩)
    fun now _ hnow => ?_
  refine (Journal.ends_load (J := suspensionJournal host)).bind
    (fun current w₁ ⟨hw₁, hcurrent⟩ => ?_) fun _ _ _ _ _ => by rintro a ⟨⟩
  cases hcurrent current rfl
  refine ends_lift_bind (fun _ hcheck => ?_) fun _ _ _ _ => by rintro a ⟨⟩
  rw [rejectIf_eq_ok] at hcheck
  refine ends_lift fun later hlater a ha => ?_
  cases ha
  exact ⟨rfl, w₁.log, hlater.rely.log, hcheck, (hnow.rely.log.trans hw₁.rely.log).mem hstarted⟩

theorem ends_suspensionCode (op : (suspensionMachine host).Op) (hstarted : .started i op ∈ w.log) :
    (SuspensionDiscipline host).Ends i op ∅ w (fun r w' => Reported w'.log i op r)
      ((suspensionMachine host).code op) := by
  cases op with
  | «open» => exact ends_openSuspensions
  | suspend tradingKey => exact ends_suspend
  | issueAuthorization reserved tradingKey operator expirySlot =>
    exact ends_issueAuthorization hstarted

end Calls

/-! ### Whole runs -/

/-- There is no registry yet. -/
def SuspensionRun.initial (host : Host) : SuspensionRun host := State.initial Unit fun _ => none

def suspendedIn (s : SuspensionRun host) : TradingKeys := storedSuspensions host (s.world.files ())

variable {s t : SuspensionRun host} {log older : List (SuspensionEvent host)}

theorem suspensions_sound (hs : Reaches (SuspensionRun.initial host) s) :
    (suspensionJournal host).Sound s.world :=
  Journal.lawful_of_reaches (fun _ => id) (fun op _ => ends_suspensionCode op) hs

theorem suspendedIn_eq (hs : Reaches (SuspensionRun.initial host) s) :
    suspendedIn s = suspendedAfter s.world.log :=
  (suspensions_sound hs).stateAfter.symm

theorem suspended_of_suffix (h : Lawful (suspensionJournal host).Law log) (hsuffix : older <:+ log)
    {k : Bytes32} (hk : k ∈ suspendedAfter older) : k ∈ suspendedAfter log :=
  Journal.keeps_suffix (J := suspensionJournal host) (R := fun keys keys' => k ∈ keys → k ∈ keys')
    (fun _ => id) (fun hfirst hsecond => hsecond ∘ hfirst) (fun _ hmove hmem => hmove.mono hmem)
    h hsuffix hk

/-- Keys are put down by calls that suspend them. -/
theorem suspend_wrote (h : Lawful (suspensionJournal host).Law log) {k : Bytes32}
    (hk : k ∈ suspendedAfter log) : ∃ i old new, .wrote i (.suspend k) () old new ∈ log := by
  induction log with
  | nil => exact absurd hk Std.ExtTreeMap.not_mem_empty
  | cons event log ih =>
    have hrest : k ∈ suspendedAfter log →
        ∃ i old new, .wrote i (.suspend k) () old new ∈ event :: log := fun hmem => by
      obtain ⟨i, old, new, hwrote⟩ := ih h.2 hmem
      exact ⟨i, old, new, List.mem_cons_of_mem _ hwrote⟩
    have hcons : suspendedAfter (event :: log) = suspendedAfter log ∨
        ∃ i op old new, event = .wrote i op () old new ∧
          SuspensionMove (suspendedAfter log) op (suspendedAfter (event :: log)) :=
      Journal.stateAfter_cons h
    rcases hcons with hsame | ⟨i, op, old, new, hevent, hmove⟩
    · exact hrest (hsame ▸ hk)
    · generalize suspendedAfter (event :: log) = keys' at hk hmove
      cases hmove with
      | «open» => exact hrest hk
      | suspend tradingKey =>
        rcases Std.ExtTreeMap.mem_insert.mp hk with heq | hmem
        · obtain rfl := compare_eq_iff_eq.mp heq
          exact ⟨i, old, new, hevent ▸ List.mem_cons_self⟩
        · exact hrest hmem

/-- The keys of a handle are in the registry from then on. -/
theorem suspended_of_handle (hs : Reaches (SuspensionRun.initial host) s)
    {during : List (SuspensionEvent host)} (hduring : during <:+ s.world.log) {keys : TradingKeys}
    (hkeys : suspendedAfter during = keys) {k : Bytes32} (hk : k ∈ keys) : k ∈ suspendedIn s := by
  rw [suspendedIn_eq hs]
  exact suspended_of_suffix (suspensions_sound hs).lawful hduring (hkeys ▸ hk)

/-- What a call that has returned said of the registry. -/
theorem reported_of_returned (hs : Reaches (SuspensionRun.initial host) s) {i : Nat}
    {op : (suspensionMachine host).Op} {result : (suspensionMachine host).Result op}
    (hreturned : .returned i op result ∈ s.world.log) : Reported s.world.log i op result := by
  obtain ⟨older, hsuffix⟩ := exists_suffix_of_mem hreturned
  have hreported : (suspensionJournal host).told older i op result :=
    (suspensions_sound hs).lawful.event hsuffix
  exact (suspensionJournal host).told_suffix hreported ((List.suffix_cons _ _).trans hsuffix)

/-- A call that begins when the key is suspended issues nothing. -/
theorem not_issued (hs : Reaches (SuspensionRun.initial host) s) (hst : Reaches s t) {i : Nat}
    {reserved : UnsignedFundedAuthorizationV1} {tradingKey : VerifyingKey host}
    {operator : host.SigningKey} {expirySlot : UInt64} {a : FundedAuthorizationV1}
    (hsuspended : tradingKey.bytes ∈ suspendedIn s)
    (hlater : .started i (.issueAuthorization reserved tradingKey operator expirySlot) ∉
      s.world.log) :
    .returned i (.issueAuthorization reserved tradingKey operator expirySlot)
      (.ok a : Except SuspensionError FundedAuthorizationV1) ∉ t.world.log := by
  intro hreturned
  have ht := hs.trans hst
  obtain ⟨-, during, hduring, hfree, hstarted⟩ := reported_of_returned ht hreturned a rfl
  -- the moment at which the key was free comes before or after `s`
  rcases List.suffix_or_suffix_of_suffix hduring hst.log with hbefore | hafter
  · exact hlater (hbefore.mem hstarted)
  · rw [suspendedIn_eq hs] at hsuspended
    have hlawful := (suspensions_sound ht).lawful.suffix hduring
    exact hfree (suspended_of_suffix hlawful hafter hsuspended)

section Undisturbed

variable {i : Nat} {op : (suspensionMachine host).Op} {held : Finset Unit}
  {w : World (suspensionMachine host)} {bytes : Bytes} {keys : TradingKeys}

theorem exec_loadSuspensions (hfile : w.files () = some bytes)
    (hkeys : decodeSuspensions host bytes = .ok keys) :
    exec i op (SuspensionRegistry.loadSuspensions host).run held w = (.ok keys, held, w) := by
  rw [SuspensionRegistry.loadSuspensions, exec_run_bind, exec_adapt, exec_read, hfile]
  simp only [Except.mapError, thenRun_ok, exec_lift, hkeys]

theorem exec_issueAuthorization (hfile : w.files () = some bytes)
    (hkeys : decodeSuspensions host bytes = .ok keys) (reserved : UnsignedFundedAuthorizationV1)
    (tradingKey : VerifyingKey host) (operator : host.SigningKey) (expirySlot : UInt64) :
    (exec i op (SuspensionRegistry.issueAuthorization host reserved tradingKey operator
      expirySlot).run ∅ w).1 =
      if tradingKey.bytes ∈ keys then .error .suspended
      else .ok (FundedAuthorizationV1.sign host reserved tradingKey.bytes operator expirySlot) := by
  rw [SuspensionRegistry.issueAuthorization, SuspensionRegistry.locked, exec_guarded (by simp) rfl,
    exec_run_bind, exec_loadSuspensions hfile hkeys, thenRun_ok, exec_run_bind, exec_lift]
  by_cases hmem : tradingKey.bytes ∈ keys <;> simp [rejectIf, hmem]

end Undisturbed

/-- A call that nobody disturbs goes by the registry. -/
theorem told_issueAuthorization (hs : Reaches (SuspensionRun.initial host) s)
    (hfile : (s.world.files ()).isSome) (reserved : UnsignedFundedAuthorizationV1)
    (tradingKey : VerifyingKey host) (operator : host.SigningKey) (expirySlot : UInt64) :
    s.told (.issueAuthorization reserved tradingKey operator expirySlot) =
      if tradingKey.bytes ∈ suspendedIn s then .error SuspensionError.suspended
      else .ok (FundedAuthorizationV1.sign host reserved tradingKey.bytes operator expirySlot) := by
  obtain ⟨bytes, hbytes⟩ := Option.isSome_iff_exists.mp hfile
  have hkeys : decodeSuspensions host bytes = .ok (suspendedIn s) := by
    rw [suspendedIn_eq hs]
    have hsound := suspensions_sound hs
    refine (Journal.legible_of_lawful hsound.lawful).2 bytes ?_
    rw [← hsound.files]
    exact hbytes
  exact exec_issueAuthorization (w := s.world.note (.started s.next _)) hbytes hkeys reserved
    tradingKey operator expirySlot

/-- In every interleaving of calls on one path, wherever they stop. -/
theorem suspended_for_good (hs : Reaches (SuspensionRun.initial host) s) :
    -- a suspended key stays suspended, and a call was made to suspend it
    (∀ t, Reaches s t → ∀ k ∈ suspendedIn s, k ∈ suspendedIn t) ∧
    (∀ k ∈ suspendedIn s, ∃ i, .started i (.suspend k) ∈ s.world.log) ∧
    -- a suspension that was reported is there, and no handle lists a key that is not
    (∀ i k (keys : TradingKeys),
      .returned i (.suspend k) (.ok keys : Except SuspensionError _) ∈ s.world.log →
      k ∈ suspendedIn s ∧ ∀ k' ∈ keys, k' ∈ suspendedIn s) ∧
    (∀ i (keys : TradingKeys), .returned i .open (.ok keys : Except SuspensionError _) ∈ s.world.log →
      ∀ k ∈ keys, k ∈ suspendedIn s) ∧
    -- an authorization is what was asked for, and none is issued by a call that begins later
    (∀ i reserved tradingKey operator expirySlot (a : FundedAuthorizationV1),
      .returned i (.issueAuthorization reserved tradingKey operator expirySlot)
        (.ok a : Except SuspensionError _) ∈ s.world.log →
      a = FundedAuthorizationV1.sign host reserved tradingKey.bytes operator expirySlot) ∧
    (∀ t, Reaches s t → ∀ i reserved tradingKey operator expirySlot (a : FundedAuthorizationV1),
      tradingKey.bytes ∈ suspendedIn s →
      .started i (.issueAuthorization reserved tradingKey operator expirySlot) ∉ s.world.log →
      .returned i (.issueAuthorization reserved tradingKey operator expirySlot)
        (.ok a : Except SuspensionError _) ∉ t.world.log) ∧
    -- a call that nobody disturbs refuses the suspended keys and no others
    ((s.world.files ()).isSome → ∀ reserved (tradingKey : VerifyingKey host) operator expirySlot,
      s.told (.issueAuthorization reserved tradingKey operator expirySlot) =
        if tradingKey.bytes ∈ suspendedIn s then .error SuspensionError.suspended
        else .ok (FundedAuthorizationV1.sign host reserved tradingKey.bytes operator expirySlot)) := by
  refine ⟨fun t hst k hk => ?_, fun k hk => ?_, fun i k keys hreturned => ?_,
    fun i keys hreturned k hk => ?_,
    fun i reserved tradingKey operator expirySlot a hreturned => ?_,
    fun t hst i reserved tradingKey operator expirySlot a => not_issued hs hst,
    told_issueAuthorization hs⟩
  · exact suspended_of_handle (hs.trans hst) hst.log (suspendedIn_eq hs).symm hk
  · rw [suspendedIn_eq hs] at hk
    obtain ⟨i, old, new, hwrote⟩ := suspend_wrote (suspensions_sound hs).lawful hk
    exact ⟨i, (hs.begun (begun_initial _)).wrote _ _ _ _ _ hwrote⟩
  · obtain ⟨hmem, during, hduring, hkeys⟩ := reported_of_returned hs hreturned keys rfl
    exact ⟨suspended_of_handle hs hduring hkeys hmem,
      fun k' hk' => suspended_of_handle hs hduring hkeys hk'⟩
  · obtain ⟨during, hduring, hkeys⟩ := reported_of_returned hs hreturned keys rfl
    exact suspended_of_handle hs hduring hkeys hk
  · exact (reported_of_returned hs hreturned a rfl).1

end Registry

namespace Sample

def openedRegistry : SuspensionRun host := (SuspensionRun.initial host).solo .open

def suspendFirst : SuspensionOp host := .suspend (key 41)

theorem suspendedKey_reaches :
    Reaches (SuspensionRun.initial host) (openedRegistry.solo suspendFirst) := by
  obtain ⟨hopened, hfree⟩ :=
    State.Free.reaches_solo (s := SuspensionRun.initial host) (fun _ => rfl) SuspensionOp.open
  exact hopened.trans (hfree.reaches_solo _).1

end Sample

/-- The key is in the registry, and no call that begins afterwards issues for it. -/
theorem suspended_for_good_first :
    Sample.key 41 ∈ suspendedIn (Sample.openedRegistry.solo Sample.suspendFirst) ∧
    ∀ t, Reaches (Sample.openedRegistry.solo Sample.suspendFirst) t →
      Sample.key 41 ∈ suspendedIn t := by
  have hsuspended := suspended_for_good Sample.suspendedKey_reaches
  have htold : (Except.toOption (Sample.openedRegistry.told Sample.suspendFirst :
      Except SuspensionError TradingKeys)).isSome = true := by decide +kernel
  obtain ⟨keys, hkeys⟩ := Option.isSome_iff_exists.mp htold
  have hreturned := State.solo_returned Sample.openedRegistry Sample.suspendFirst
  have hok : Sample.openedRegistry.told Sample.suspendFirst =
      (.ok keys : Except SuspensionError TradingKeys) := eq_ok_of_toOption hkeys
  rw [hok] at hreturned
  have hmem := (hsuspended.2.2.1 _ _ keys hreturned).1
  exact ⟨hmem, fun t ht => hsuspended.1 t ht _ hmem⟩

end Kageb
