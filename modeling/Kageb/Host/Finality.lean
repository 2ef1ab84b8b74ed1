import Kageb.Host.Reference
import Kageb.Host.Settled

/-! What holds of the books in every state that any interleaving of calls reaches, wherever the
calls stop: a reservation is released or settled but not both, and the balances are what was
registered and settled. -/

namespace Kageb

open Binary Checks Files Maps

section

variable {host : Host}

def accountsIn (s : BooksState host) : AccountState :=
  storedAccounts host (s.world.files .accounts)

def reservationsIn (s : BooksState host) : Reservations :=
  storedReservations host (s.world.files .reservations)

def BoundTo (s : BooksState host) (epochId nonce : Bytes32) : Prop :=
  ∃ r, (reservationsIn s)[nonce]? = some r ∧ r.epochId = epochId

def InState (s : BooksState host) (state : ReservationState) (nonce : Bytes32) : Prop :=
  ∃ r, (reservationsIn s)[nonce]? = some r ∧ r.state = state

variable (hhash : ∀ m, host.sha256 m ≠ zero32) {s t : BooksState host}

include hhash

theorem books_valid (hs : Reaches (BooksState.initial host) s) : BooksValid s.world :=
  (books_allSafe hhash hs).valid

theorem accountsIn_eq (hs : Reaches (BooksState.initial host) s) :
    accountsIn s = accountsAfter s.world.log :=
  congrArg (storedAccounts host) (congrFun (books_valid hhash hs).files .accounts)

theorem reservationsIn_eq (hs : Reaches (BooksState.initial host) s) :
    reservationsIn s = reservationsAfter s.world.log :=
  congrArg (storedReservations host) (congrFun (books_valid hhash hs).files .reservations)

/-- An event of a call that had not started comes later. -/
theorem suffix_of_new (hs : Reaches (BooksState.initial host) s) (ht : Reaches s t)
    {log : BooksLog host} (hlog : log <:+ t.world.log) {event : BooksEvent host}
    (hevent : event ∈ log) (hcall : event.call = some s.next) : s.world.log <:+ log := by
  rcases List.suffix_or_suffix_of_suffix hlog ht.log with hearlier | hlater
  · have hlt := (books_allSafe hhash hs).events event (hearlier.mem hevent) s.next hcall
    exact absurd hlt (lt_irrefl _)
  · exact hlater

/-- It obeys the law, given all that had happened before its call started. -/
theorem law_of_new (hs : Reaches (BooksState.initial host) s) (ht : Reaches s t)
    {event : BooksEvent host} (hevent : event ∈ t.world.log) (hcall : event.call = some s.next) :
    ∃ older, older <:+ t.world.log ∧ s.world.log <:+ older ∧ BooksLaw older event := by
  obtain ⟨older, hsuffix⟩ := exists_suffix_of_mem hevent
  refine ⟨older, (List.suffix_cons _ older).trans hsuffix, ?_,
    (books_valid hhash (hs.trans ht)).lawful.event hsuffix⟩
  rcases List.suffix_cons_iff.mp (suffix_of_new hhash hs ht hsuffix List.mem_cons_self hcall) with
    heq | hbefore
  · have hin : event ∈ s.world.log := heq ▸ List.mem_cons_self
    exact absurd ((books_allSafe hhash hs).events event hin s.next hcall) (lt_irrefl _)
  · exact hbefore

theorem changes_between (hs : Reaches (BooksState.initial host) s) (ht : Reaches s t)
    {log : BooksLog host} (hlog : log <:+ t.world.log) (hsuffix : s.world.log <:+ log) :
    Relation.ReflTransGen (Change host) (booksAfter s.world.log) (booksAfter log) :=
  changes_of_suffix hhash ((books_valid hhash (hs.trans ht)).lawful.suffix hlog) hsuffix

/-! ### Released or settled -/

theorem commit_secured (hs : Reaches (BooksState.initial host) s) {c : Commit}
    (hc : c ∈ commits s.world.log) :
    c.epochId ∈ (accountsAfter s.world.log).appliedEpochs ∧
      Covered c.epochId (reservationsAfter s.world.log) c.nonces c.result.members :=
  secured_of_lawful hhash (books_valid hhash hs).lawful c hc

theorem commit_never_released (hs : Reaches (BooksState.initial host) s) {c : Commit}
    (hc : c ∈ commits s.world.log) {n : Bytes32} (hn : n ∈ c.nonces)
    (ht : Reaches (BooksState.initial host) t) (hts : Reaches t s) : ¬InState t .released n := by
  rintro ⟨r, hr, hreleased⟩
  rw [reservationsIn_eq hhash ht] at hr
  obtain ⟨r', hr', -, hkept⟩ :=
    changes_kept (changes_between hhash ht hts (List.suffix_refl _) hts.log) hr
  obtain ⟨records, hselected, -⟩ := (commit_secured hhash hs hc).2
  obtain ⟨r'', hr'', -, hnot⟩ := hselected.mem hn
  cases hr'.symm.trans hr''
  exact hnot ((hkept (by simp [hreleased])).trans hreleased)

theorem release_writes_nothing (hs : Reaches (BooksState.initial host) s) {c : Commit}
    (hc : c ∈ commits s.world.log) (ht : Reaches s t) {terminalEpoch : ConfirmedTerminalEpoch}
    (hepoch : terminalEpoch.epochId = c.epochId) {nonces : List Bytes32} {file : BooksFile}
    {old : Option Bytes} {new : Bytes} :
    .wrote s.next (.releaseReservations terminalEpoch nonces) file old new ∉ t.world.log := by
  intro hmem
  obtain ⟨older, holder, hbefore, hlaw⟩ := law_of_new hhash hs ht hmem rfl
  cases file with
  | accounts =>
    obtain ⟨-, accounts, -, hwrite⟩ := hlaw
    cases hwrite
  | reservations =>
    obtain ⟨-, reservations, -, hwrite⟩ := hlaw
    cases hwrite with
    | release hnot hselected =>
      have hchanges := changes_between hhash hs ht holder hbefore
      exact hnot (hepoch ▸ changes_applied hchanges (commit_secured hhash hs hc).1)

theorem release_fails (hs : Reaches (BooksState.initial host) s) {c : Commit}
    (hc : c ∈ commits s.world.log) (ht : Reaches s t) {terminalEpoch : ConfirmedTerminalEpoch}
    (hepoch : terminalEpoch.epochId = c.epochId) {nonces : List Bytes32}
    {result : Except AccountError Unit}
    (hreturned : .returned s.next (.releaseReservations terminalEpoch nonces) result ∈ t.world.log)
    (hnodup : nonces.Nodup) (hbound : ∀ n ∈ nonces, BoundTo s c.epochId n)
    (hunused : ∀ n ∈ nonces, ¬InState t .used n) :
    ∃ e, result = .error e ∧ (e = .staleSettlement ∨ e.IsIo ∨ e.IsBusy) := by
  obtain ⟨older, holder, -, during, hduring, hstarted, hanswer⟩ := law_of_new hhash hs ht hreturned rfl
  have hin := hduring.trans holder
  -- the call looked at the journals after the commit
  have hchanges := changes_between hhash hs ht hin (suffix_of_new hhash hs ht hin hstarted rfl)
  have hrest := changes_of_suffix hhash (books_valid hhash (hs.trans ht)).lawful hin
  have hkept : ∀ n ∈ nonces, ∃ r, (reservationsAfter during)[n]? = some r ∧
      r.epochId = c.epochId := by
    intro n hn
    obtain ⟨r, hr, hrepoch⟩ := hbound n hn
    rw [reservationsIn_eq hhash hs] at hr
    obtain ⟨r', hr', hrepoch', -⟩ := changes_kept hchanges hr
    exact ⟨r', hr', hrepoch'.trans hrepoch⟩
  cases result with
  | ok =>
    exact absurd (hepoch ▸ changes_applied hchanges (commit_secured hhash hs hc).1) hanswer
  | error e =>
    refine ⟨e, rfl, ?_⟩
    rcases hanswer with hstale | hio | hbusy | ⟨reason, -, hrefused⟩
    · exact Or.inl hstale
    · exact Or.inr (Or.inl hio)
    · exact Or.inr (Or.inr hbusy)
    · exfalso
      cases hrefused with
      | duplicate hnot => exact hnot hnodup
      | unknown hn hunknown =>
        obtain ⟨r, hr, -⟩ := hkept _ hn
        rw [Std.ExtTreeMap.mem_iff_isSome_getElem?, hr] at hunknown
        exact hunknown rfl
      | @barred n r hn hr hbad =>
        obtain ⟨r', hr', hrepoch⟩ := hkept n hn
        cases hr.symm.trans hr'
        have hused := hbad.resolve_left fun hne => hne (hrepoch.trans hepoch.symm)
        obtain ⟨r'', hr'', -, hfinal⟩ := changes_kept hrest hr
        refine hunused n hn ⟨r'', ?_, (hfinal (by simp [hused])).trans hused⟩
        rw [reservationsIn_eq hhash (hs.trans ht)]
        exact hr''

theorem finalize_writes_nothing (hs : Reaches (BooksState.initial host) s) (ht : Reaches s t)
    {n : Bytes32} (hreleased : InState s .released n) {epochId : Bytes32} {batch : NettedBatch}
    {nonces : List Bytes32} (hn : n ∈ nonces) {file : BooksFile} {old : Option Bytes} {new : Bytes} :
    .wrote s.next (.finalizeSettlement epochId batch nonces) file old new ∉ t.world.log := by
  intro hmem
  obtain ⟨older, holder, hbefore, hlaw⟩ := law_of_new hhash hs ht hmem rfl
  obtain ⟨r, hr, hstate⟩ := hreleased
  rw [reservationsIn_eq hhash hs] at hr
  obtain ⟨r', hr', -, hkept⟩ := changes_kept (changes_between hhash hs ht holder hbefore) hr
  have hcovered : Covered epochId (reservationsAfter older) nonces batch.result.members := by
    cases file with
    | accounts =>
      obtain ⟨-, accounts, -, hwrite⟩ := hlaw
      cases hwrite with
      | settle _ hcovered _ => exact hcovered
    | reservations =>
      obtain ⟨-, reservations, -, hwrite⟩ := hlaw
      cases hwrite with
      | use _ hcovered => exact hcovered
  obtain ⟨records, hselected, -⟩ := hcovered
  obtain ⟨r'', hr'', -, hnot⟩ := hselected.mem hn
  cases hr'.symm.trans hr''
  exact hnot ((hkept (by simp [hstate])).trans hstate)

/-- In every interleaving, wherever calls stop. Call `s.next` is the first to start after `s`. -/
theorem released_or_settled (hs : Reaches (BooksState.initial host) s) :
    -- no nonce of a commit is released, neither before it nor after it
    (∀ c ∈ commits s.world.log, ∀ n ∈ c.nonces, BoundTo s c.epochId n ∧
      ∀ t, Reaches (BooksState.initial host) t → Reaches t s → ¬InState t .released n) ∧
    -- no later release of the epoch changes anything, or succeeds
    (∀ c ∈ commits s.world.log, ∀ (terminalEpoch : ConfirmedTerminalEpoch) (nonces : List Bytes32) t,
      terminalEpoch.epochId = c.epochId → Reaches s t →
      (∀ file old new,
        .wrote s.next (.releaseReservations terminalEpoch nonces) file old new ∉ t.world.log) ∧
      ∀ result, .returned s.next (.releaseReservations terminalEpoch nonces) result ∈ t.world.log →
        nonces.Nodup → (∀ n ∈ nonces, BoundTo s c.epochId n) → (∀ n ∈ nonces, ¬InState t .used n) →
        ∃ e, result = .error e ∧ (e = .staleSettlement ∨ e.IsIo ∨ e.IsBusy)) ∧
    -- a finalization with a nonce that was released before commits nothing
    (∀ epochId batch nonces n t, n ∈ nonces → InState s .released n → Reaches s t →
      ∀ file old new,
        .wrote s.next (.finalizeSettlement epochId batch nonces) file old new ∉ t.world.log) := by
  refine ⟨fun c hc n hn => ⟨?_, fun t ht hts => commit_never_released hhash hs hc hn ht hts⟩,
    fun c hc terminalEpoch nonces t hepoch ht => ⟨fun file old new => ?_, ?_⟩,
    fun epochId batch nonces n t hn hreleased ht file old new => ?_⟩
  · obtain ⟨records, hselected, -⟩ := (commit_secured hhash hs hc).2
    obtain ⟨r, hr, hepoch, -⟩ := hselected.mem hn
    exact ⟨r, by rw [reservationsIn_eq hhash hs]; exact hr, hepoch⟩
  · exact release_writes_nothing hhash hs hc ht hepoch
  · intro result hreturned hnodup hbound hunused
    exact release_fails hhash hs hc ht hepoch hreturned hnodup hbound hunused
  · exact finalize_writes_nothing hhash hs ht hreleased hn

/-! ### What the balances are -/

theorem refused_writes_nothing (hs : Reaches (BooksState.initial host) s) {i : Nat}
    {epochId : Bytes32} {batch : NettedBatch} {nonces : List Bytes32} {e : AccountError}
    (hreturned : .returned i (.finalizeSettlement epochId batch nonces) (.error e) ∈ s.world.log)
    (hio : ¬e.IsIo) : NoWrites i s.world.log := by
  have horderly := hs.orderly (orderly_initial _)
  obtain ⟨older, hsuffix, hbefore⟩ := horderly.before hreturned
  have hquiet := (books_valid hhash hs).lawful.event hsuffix e rfl hio
  intro op file old new hmem
  rcases hbefore _ hmem rfl with heq | hmem
  · cases heq
  · exact hquiet op file old new hmem

/-- In every interleaving, wherever calls stop. -/
theorem balances_add_up (hs : Reaches (BooksState.initial host) s) :
    ((commits s.world.log).map Commit.epochId).Nodup ∧
    (∀ e d : Bytes32, (accountsIn s).appliedEpochs[e]? = some d ↔
      ∃ c ∈ commits s.world.log, c.epochId = e ∧ settlementDigest host c.result = d) ∧
    ((registrations s.world.log).map Prod.fst).Nodup ∧
    (∀ p, p ∈ (accountsIn s).records ↔ p ∈ (registrations s.world.log).map Prod.fst) ∧
    (∀ p registered, (p, registered) ∈ registrations s.world.log →
      ∃ record, (accountsIn s).records[p]? = some record ∧
        (record.balance.baseAtoms.toNat : Int) =
          accrued PoolBalance.baseAtoms p registered (commits s.world.log) ∧
        (record.balance.quoteAtoms.toNat : Int) =
          accrued PoolBalance.quoteAtoms p registered (commits s.world.log) ∧
        record.lastEpoch = latestEpoch p (commits s.world.log)) ∧
    ∀ i epochId batch nonces e,
      .returned i (.finalizeSettlement epochId batch nonces) (.error e) ∈ s.world.log → ¬e.IsIo →
      NoWrites i s.world.log := by
  have h := balanced_of_lawful hhash (books_valid hhash hs).lawful
  rw [accountsIn_eq hhash hs]
  refine ⟨h.distinct, h.applied, h.registered, h.known, fun p registered hp => ?_,
    fun i epochId batch nonces e hreturned hio => refused_writes_nothing hhash hs hreturned hio⟩
  obtain ⟨record, hrecord, haccrues⟩ := h.accrues p registered hp
  exact ⟨record, hrecord, haccrues.balance _, haccrues.balance _, haccrues.lastEpoch⟩

end

theorem commitKey_injective :
    Function.Injective fun c : Commit => (c.epochId, c.result, c.nonces) := by
  rintro ⟨e, ⟨r, _⟩, ns⟩ ⟨e', ⟨r', _⟩, ns'⟩ h
  simp only [Prod.mk.injEq] at h
  obtain ⟨rfl, rfl, rfl⟩ := h
  rfl

namespace Sample

def alice : Bytes32 := key 61

def bob : Bytes32 := key 62

theorem alice_ne : alice ≠ zero32 := by decide

theorem bob_ne : bob ≠ zero32 := by decide

def lots : BatchConfig := ⟨1, 100, one_ne, hundred_ne⟩

def order (p : Bytes32) (side : Side) : FundedOrder := ⟨p, side, 100, hundred_ne⟩

def firstNetting : Except LedgerError BatchResult :=
  netBatch lots (Map.ofList [(alice, ⟨10, 1000⟩), (bob, ⟨10, 1000⟩)])
    [order alice .buy, order bob .sell]

def secondNetting : Except LedgerError BatchResult :=
  netBatch lots (Map.ofList [(alice, ⟨11, 900⟩)]) [order alice .buy]

def noResult : BatchResult := ⟨∅, ∅, .none, ⟨0, 0⟩⟩

/-- One lot from bob to alice. -/
def firstBatch : NettedBatch :=
  ⟨firstNetting.toOption.getD noResult, _, _, _, eq_ok_of_isSome _ (by decide +kernel)⟩

/-- One more lot to alice. -/
def secondBatch : NettedBatch :=
  ⟨secondNetting.toOption.getD noResult, _, _, _, eq_ok_of_isSome _ (by decide +kernel)⟩

def reserveLot (nonce epoch p : Bytes32) (hnonce : nonce ≠ zero32) (hepoch : epoch ≠ zero32)
    (hp : p ≠ zero32) : BooksOp host :=
  .reserve ⟨nonce, epoch, p, 1, 100, .reserved, hnonce, hepoch, hp, one_ne, hundred_ne⟩ rfl
    ⟨10, 1000⟩

/-- Two participants, reservations for three epochs, and the release of the third. -/
def opening : List (BooksOp host) :=
  [.openAccounts, .openReservations, .register alice ⟨key 71, Eq.refl true⟩ ⟨10, 1000⟩,
    .register bob ⟨key 72, Eq.refl true⟩ ⟨10, 1000⟩,
    reserveLot (key 91) (key 81) alice key_91_ne key_81_ne alice_ne,
    reserveLot (key 92) (key 81) bob key_92_ne key_81_ne bob_ne,
    reserveLot (key 93) (key 82) alice (by decide) (by decide) alice_ne,
    reserveLot (key 94) (key 83) bob (by decide) (by decide) bob_ne,
    .releaseReservations ⟨key 80, key 83, .expired, 9⟩ [key 94]]

def firstCommit : Commit := ⟨key 81, firstBatch, [key 91, key 92]⟩

def secondCommit : Commit := ⟨key 82, secondBatch, [key 93]⟩

def finalize (c : Commit) : BooksOp host := .finalizeSettlement c.epochId c.batch c.nonces

def openedBooks : BooksState host := (BooksState.initial host).soloAll opening

/-- The first settlement stops between its two writes. -/
def halfway : BooksState host := openedBooks.stopped (finalize firstCommit) 5

/-- The second settlement follows. -/
def overtaken : BooksState host := halfway.solo (finalize secondCommit)

theorem halfway_reaches : Reaches (BooksState.initial host) halfway ∧ halfway.Free := by
  obtain ⟨hopened, hfree⟩ :=
    State.Free.reaches_soloAll (s := BooksState.initial host) (fun _ => rfl) opening
  obtain ⟨hhalfway, hfree'⟩ := hfree.reaches_stopped (finalize firstCommit) 5
  exact ⟨hopened.trans hhalfway, hfree'⟩

theorem overtaken_reaches : Reaches (BooksState.initial host) overtaken ∧ overtaken.Free := by
  obtain ⟨hreaches, hfree⟩ := halfway_reaches.2.reaches_solo (finalize secondCommit)
  exact ⟨halfway_reaches.1.trans hreaches, hfree⟩

theorem overtaken_facts :
    ((commits halfway.world.log).map fun c => (c.epochId, c.result, c.nonces)) =
      ([firstCommit].map fun c => (c.epochId, c.result, c.nonces)) ∧
    ((commits overtaken.world.log).map fun c => (c.epochId, c.result, c.nonces)) =
      ([secondCommit, firstCommit].map fun c => (c.epochId, c.result, c.nonces)) ∧
    (reservationsIn halfway)[key 94]?.map ReservationRecord.state = some .released ∧
    (alice, ⟨10, 1000⟩) ∈ registrations overtaken.world.log := by
  decide +kernel

theorem halfway_commits : commits halfway.world.log = [firstCommit] :=
  List.map_injective_iff.mpr commitKey_injective overtaken_facts.1

theorem overtaken_commits : commits overtaken.world.log = [secondCommit, firstCommit] :=
  List.map_injective_iff.mpr commitKey_injective overtaken_facts.2.1

theorem halfway_released : InState halfway .released (key 94) := by
  simpa [InState, Option.map_eq_some_iff] using overtaken_facts.2.2.1

end Sample

/-- The reservations of the sample settlement were never released, and the one that was released
cannot be settled. -/
theorem released_or_settled_sample :
    (∀ n ∈ Sample.firstCommit.nonces, ∀ t, Reaches (BooksState.initial Sample.host) t →
      Reaches t Sample.halfway → ¬InState t .released n) ∧
    ∀ t, Reaches Sample.halfway t → ∀ file old new,
      .wrote Sample.halfway.next (.finalizeSettlement (Sample.key 83) Sample.firstBatch
        [Sample.key 94]) file old new ∉ t.world.log := by
  obtain ⟨hsettled, -, hreleased⟩ :=
    released_or_settled Sample.sha256_ne Sample.halfway_reaches.1
  refine ⟨fun n hn => (hsettled Sample.firstCommit ?_ n hn).2, fun t ht => ?_⟩
  · rw [Sample.halfway_commits]
    exact List.mem_cons_self
  · exact hreleased _ _ _ _ t List.mem_cons_self Sample.halfway_released ht

/-- Alice is registered with ten lots and has two more after both settlements. -/
theorem balances_add_up_sample :
    ∃ record, (accountsIn Sample.overtaken).records[Sample.alice]? = some record ∧
      (record.balance.baseAtoms.toNat : Int) = accrued PoolBalance.baseAtoms Sample.alice
        ⟨10, 1000⟩ [Sample.secondCommit, Sample.firstCommit] ∧
      record.lastEpoch = Sample.key 82 := by
  have hregistered := Sample.overtaken_facts.2.2.2
  obtain ⟨-, -, -, -, hbalance, -⟩ :=
    balances_add_up Sample.sha256_ne Sample.overtaken_reaches.1
  obtain ⟨record, hrecord, hbase, -, hlast⟩ := hbalance _ _ hregistered
  rw [Sample.overtaken_commits] at hbase hlast
  refine ⟨record, hrecord, hbase, hlast.trans ?_⟩
  decide

end Kageb
