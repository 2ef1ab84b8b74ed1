import Kageb.Host.BooksRuns

/-! What the books say of settlements. Every event changes the books in one of six ways; from
these follow what becomes of a reservation, how balances add up, and when a settlement can be
confirmed again. -/

namespace Kageb

open Binary Checks Files Maps

structure Commit where
  epochId : Bytes32
  batch : NettedBatch
  nonces : List Bytes32

abbrev Commit.result (c : Commit) : BatchResult := c.batch.result

/-- The accounts, the reservations, and the commits and registrations so far, the last one first. -/
structure OperatorBooks where
  accounts : AccountState
  reservations : Reservations
  commits : List Commit
  registrations : List (Bytes32 × PoolBalance)

section Changes

variable {host : Host}

/-- A finalization writes accounts in which its epoch was not applied. -/
def commitOf : BooksEvent host → Option Commit
  | .wrote _ (.finalizeSettlement epochId batch nonces) .accounts old _ =>
    if epochId ∈ (storedAccounts host old).appliedEpochs then none
    else some ⟨epochId, batch, nonces⟩
  | _ => none

def registrationOf : BooksEvent host → Option (Bytes32 × PoolBalance)
  | .wrote _ (.register participantId _ balance) .accounts _ _ => some (participantId, balance)
  | _ => none

def commits (log : BooksLog host) : List Commit := log.filterMap commitOf

def registrations (log : BooksLog host) : List (Bytes32 × PoolBalance) :=
  log.filterMap registrationOf

def booksAfter (log : BooksLog host) : OperatorBooks :=
  ⟨accountsAfter log, reservationsAfter log, commits log, registrations log⟩

variable (host) in
/-- The ways in which the books change. -/
inductive Change (b : OperatorBooks) : OperatorBooks → Prop
  | idle : Change b b
  | register {p : Bytes32} {key : VerifyingKey host} {balance : PoolBalance} :
      p ∉ b.accounts.records →
      Change b { b with
        accounts := { b.accounts with
          records := b.accounts.records.insert p ⟨p, key.bytes, balance, zero32⟩ }
        registrations := (p, balance) :: b.registrations }
  | commit (c : Commit) : c.epochId ∉ b.accounts.appliedEpochs →
      (∀ p ∈ c.result.balances, p ∈ b.accounts.records) → b.accounts.Current c.result →
      Covered c.epochId b.reservations c.nonces c.result.members →
      Change b { b with
        accounts := b.accounts.commit host c.epochId c.result
        commits := c :: b.commits }
  | reserve {record : ReservationRecord} : record.nonce ∉ b.reservations →
      record.state = .reserved →
      Change b { b with reservations := b.reservations.insert record.nonce record }
  | use {epochId : Bytes32} {nonces : List Bytes32} {records : List ReservationRecord} :
      epochId ∈ b.accounts.appliedEpochs →
      Selected epochId .released b.reservations nonces records →
      Change b { b with reservations := b.reservations.advance .used nonces }
  | release {epochId : Bytes32} {nonces : List Bytes32} {records : List ReservationRecord} :
      epochId ∉ b.accounts.appliedEpochs →
      Selected epochId .used b.reservations nonces records →
      Change b { b with reservations := b.reservations.advance .released nonces }

variable (hhash : ∀ m, host.sha256 m ≠ zero32)

include hhash

theorem change_of_accountWrite {log : BooksLog host} {i : Nat} {op : (booksMachine host).Op}
    {accounts : AccountState} {new : Bytes} (hlog : Lawful BooksLaw log)
    (hnew : encodeAccounts host accounts = .ok new)
    (hwrite : AccountWrite (accountsAfter log) (reservationsAfter log) op accounts) :
    Change host (booksAfter log)
      (booksAfter (.wrote i op .accounts (journalAfter log .accounts) new :: log)) := by
  have haccounts : accountsAfter (.wrote i op .accounts (journalAfter log .accounts) new :: log) =
      accounts :=
    accountsAfter_wrote (hwrite.valid hhash (legible_of_lawful hhash hlog).accounts) hnew
  rw [booksAfter, booksAfter, haccounts]
  cases hwrite with
  | «open» => exact .idle
  | register hp hbalance hregister =>
    simp only [registerIn, bind_ok, Unique.exists_iff, rejectIf_eq_ok] at hregister
    obtain ⟨hfresh, hok⟩ := hregister
    cases hok
    exact .register hfresh
  | @settle epochId batch nonces _ hepoch hcovered happly =>
    obtain ⟨hknown, hcases⟩ := applyIn_ok.mp happly
    rcases hcases with ⟨happlied, rfl⟩ | ⟨hfresh, hcurrent, rfl⟩
    · have hmem : epochId ∈ (accountsAfter log).appliedEpochs := by
        rw [Std.ExtTreeMap.mem_iff_isSome_getElem?, happlied.digest]
        rfl
      have hcommits : commits (.wrote i (.finalizeSettlement epochId batch nonces) .accounts
          (journalAfter log .accounts) new :: log) = commits log :=
        List.filterMap_cons_none (if_pos hmem)
      rw [hcommits]
      exact .idle
    · have hcommits : commits (.wrote i (.finalizeSettlement epochId batch nonces) .accounts
          (journalAfter log .accounts) new :: log) = ⟨epochId, batch, nonces⟩ :: commits log :=
        List.filterMap_cons_some (if_neg hfresh)
      rw [hcommits]
      exact @Change.commit host (booksAfter log) ⟨epochId, batch, nonces⟩ hfresh hknown hcurrent
        hcovered

theorem change_of_reservationWrite {log : BooksLog host} {i : Nat} {op : (booksMachine host).Op}
    {reservations : Reservations} {old : Option Bytes} {new : Bytes} (hlog : Lawful BooksLaw log)
    (hnew : encodeReservations host reservations = .ok new)
    (hwrite : ReservationWrite (accountsAfter log) (reservationsAfter log) op reservations) :
    Change host (booksAfter log) (booksAfter (.wrote i op .reservations old new :: log)) := by
  have hreservations : reservationsAfter (.wrote i op .reservations old new :: log) =
      reservations :=
    reservationsAfter_wrote (hwrite.keyed (legible_of_lawful hhash hlog).reservations) hnew
  have hcommits : commits (.wrote i op .reservations old new :: log) = commits log := by
    cases op <;> rfl
  have hregistrations : registrations (.wrote i op .reservations old new :: log) =
      registrations log := by
    cases op <;> rfl
  rw [booksAfter, booksAfter, hreservations, hcommits, hregistrations,
    accountsAfter_wrote_reservations]
  cases hwrite with
  | «open» => exact .idle
  | @reserve record fresh available _ hreserve =>
    obtain ⟨hnonce, rfl⟩ := reserveIn_ok hreserve
    exact .reserve hnonce fresh
  | use hdigest hcovered =>
    obtain ⟨records, hselected, -⟩ := hcovered
    refine .use ?_ hselected
    rw [Std.ExtTreeMap.mem_iff_isSome_getElem?]
    exact Option.isSome_iff_exists.mpr ⟨_, hdigest⟩
  | release hepoch hselected => exact .release hepoch hselected

/-- Every lawful event is one of the changes. -/
theorem change_of_lawful {log : BooksLog host} {event : BooksEvent host}
    (h : Lawful BooksLaw (event :: log)) :
    Change host (booksAfter log) (booksAfter (event :: log)) := by
  obtain ⟨hevent, hlog⟩ := h
  cases event with
  | started i op => exact .idle
  | returned i op result => exact .idle
  | removed file => exact hevent.elim
  | wrote i op file old new =>
    cases file with
    | accounts =>
      obtain ⟨rfl, accounts, hnew, hwrite⟩ := hevent
      exact change_of_accountWrite hhash hlog hnew hwrite
    | reservations =>
      obtain ⟨-, reservations, hnew, hwrite⟩ := hevent
      exact change_of_reservationWrite hhash hlog hnew hwrite

/-- Any number of changes. -/
theorem changes_of_suffix {log older : BooksLog host} (h : Lawful BooksLaw log)
    (hsuffix : older <:+ log) :
    Relation.ReflTransGen (Change host) (booksAfter older) (booksAfter log) := by
  induction log with
  | nil => exact List.suffix_nil.mp hsuffix ▸ .refl
  | cons event log ih =>
    rcases List.suffix_cons_iff.mp hsuffix with rfl | hsuffix
    · exact .refl
    · exact (ih h.2 hsuffix).tail (change_of_lawful hhash h)

omit hhash

/-! ### What becomes of a reservation -/

/-- A reservation keeps its epoch and its participant, and only a reserved one moves on: to
released only while the epoch is not applied. -/
structure Evolves (applied : AppliedEpochs) (r r' : ReservationRecord) : Prop where
  epochId : r'.epochId = r.epochId
  participantId : r'.participantId = r.participantId
  state : r'.state = r.state ∨
    r.state = .reserved ∧ (r'.state = .used ∨ r'.state = .released ∧ r.epochId ∉ applied)

theorem Evolves.refl (applied : AppliedEpochs) (r : ReservationRecord) : Evolves applied r r :=
  ⟨rfl, rfl, Or.inl rfl⟩

/-- Once its epoch is applied, a reservation that was not released is not. -/
theorem Evolves.not_released {applied : AppliedEpochs} {r r' : ReservationRecord}
    (h : Evolves applied r r') (happlied : r.epochId ∈ applied) (hr : r.state ≠ .released) :
    r'.state ≠ .released := by
  intro hreleased
  rcases h.state with hkept | ⟨-, hused | ⟨-, hnot⟩⟩
  · exact hr (hkept.symm.trans hreleased)
  · cases hused.symm.trans hreleased
  · exact hnot happlied

theorem Change.evolves {b b' : OperatorBooks} (h : Change host b b') {n : Bytes32}
    {r : ReservationRecord} (hr : b.reservations[n]? = some r) :
    ∃ r', b'.reservations[n]? = some r' ∧ Evolves b.accounts.appliedEpochs r r' := by
  cases h with
  | idle | register | commit => exact ⟨r, hr, .refl _ r⟩
  | @reserve record hfresh =>
    refine ⟨r, ?_, .refl _ r⟩
    have hne : record.nonce ≠ n := by
      rintro rfl
      rw [Std.ExtTreeMap.mem_iff_isSome_getElem?, hr] at hfresh
      exact hfresh rfl
    rw [Map.getElem?_insert, if_neg hne, hr]
  | @use epochId nonces records hepoch hselected =>
    refine ⟨_, Reservations.getElem?_advance_of_some hr _ _, ?_⟩
    split_ifs with hmoves
    · exact ⟨rfl, rfl, Or.inr ⟨hmoves.2, Or.inl rfl⟩⟩
    · exact .refl _ r
  | @release epochId nonces records hepoch hselected =>
    refine ⟨_, Reservations.getElem?_advance_of_some hr _ _, ?_⟩
    split_ifs with hmoves
    · obtain ⟨r', hr', rfl, -⟩ := hselected.mem hmoves.1
      cases hr.symm.trans hr'
      exact ⟨rfl, rfl, Or.inr ⟨hmoves.2, Or.inr ⟨rfl, hepoch⟩⟩⟩
    · exact .refl _ r

theorem Change.applied {b b' : OperatorBooks} (h : Change host b b') {e : Bytes32}
    (he : e ∈ b.accounts.appliedEpochs) : e ∈ b'.accounts.appliedEpochs := by
  cases h with
  | commit => exact Std.ExtTreeMap.mem_insert.mpr (Or.inr he)
  | idle | register | reserve | use | release => exact he

/-- A reservation keeps its epoch, and one that was used or released stays so. -/
theorem changes_kept {b b' : OperatorBooks} (h : Relation.ReflTransGen (Change host) b b')
    {n : Bytes32} {r : ReservationRecord} (hr : b.reservations[n]? = some r) :
    ∃ r', b'.reservations[n]? = some r' ∧ r'.epochId = r.epochId ∧
      (r.state ≠ .reserved → r'.state = r.state) := by
  induction h with
  | refl => exact ⟨r, hr, rfl, fun _ => rfl⟩
  | tail _ hchange ih =>
    obtain ⟨r₁, hr₁, hepoch, hstate⟩ := ih
    obtain ⟨r₂, hr₂, hevolves⟩ := hchange.evolves hr₁
    refine ⟨r₂, hr₂, hevolves.epochId.trans hepoch, fun hfinal => ?_⟩
    have hsame := hstate hfinal
    rcases hevolves.state with hkept | ⟨hreserved, -⟩
    · exact hkept.trans hsame
    · exact absurd (hsame.symm.trans hreserved) hfinal

theorem changes_applied {b b' : OperatorBooks} (h : Relation.ReflTransGen (Change host) b b')
    {e : Bytes32} (he : e ∈ b.accounts.appliedEpochs) : e ∈ b'.accounts.appliedEpochs := by
  induction h with
  | refl => exact he
  | tail _ hchange ih => exact hchange.applied ih

/-- A batch whose epoch is applied stays covered. -/
theorem Change.covered {b b' : OperatorBooks} (h : Change host b b') {epochId : Bytes32}
    {nonces : List Bytes32} {members : Finset Bytes32}
    (happlied : epochId ∈ b.accounts.appliedEpochs)
    (hcovered : Covered epochId b.reservations nonces members) :
    Covered epochId b'.reservations nonces members := by
  obtain ⟨records, ⟨hnodup, hrecords⟩, hlength, hmembers⟩ := hcovered
  have hevolved : ∃ records', List.Forall₂ (fun (n : Bytes32) (r : ReservationRecord) =>
      b'.reservations[n]? = some r ∧ r.epochId = epochId ∧ r.state ≠ .released) nonces records' ∧
      records'.map ReservationRecord.participantId =
        records.map ReservationRecord.participantId := by
    clear hnodup hlength hmembers
    induction hrecords with
    | nil => exact ⟨[], .nil, rfl⟩
    | cons hr _ ih =>
      obtain ⟨records', hrecords', hsame⟩ := ih
      obtain ⟨hr, rfl, hstate⟩ := hr
      obtain ⟨r', hr', hevolves⟩ := h.evolves hr
      exact ⟨r' :: records',
        .cons ⟨hr', hevolves.epochId, hevolves.not_released happlied hstate⟩ hrecords',
        congrArg₂ List.cons hevolves.participantId hsame⟩
  obtain ⟨records', hrecords', hsame⟩ := hevolved
  exact ⟨records', ⟨hnodup, hrecords'⟩, hlength, by rw [hsame, hmembers]⟩

/-- The epoch of a commit is applied, and its nonces are reservations for its members that are not
released. -/
def Secured (b : OperatorBooks) : Prop :=
  ∀ c ∈ b.commits, c.epochId ∈ b.accounts.appliedEpochs ∧
    Covered c.epochId b.reservations c.nonces c.result.members

theorem Change.secured {b b' : OperatorBooks} (h : Change host b b') (hb : Secured b) :
    Secured b' := by
  have hold : ∀ c ∈ b.commits, c.epochId ∈ b'.accounts.appliedEpochs ∧
      Covered c.epochId b'.reservations c.nonces c.result.members := fun c hc =>
    ⟨h.applied (hb c hc).1, h.covered (hb c hc).1 (hb c hc).2⟩
  cases h with
  | commit c hfresh hknown hcurrent hcovered =>
    intro c' hc'
    rcases List.mem_cons.mp hc' with rfl | hc'
    · exact ⟨Std.ExtTreeMap.mem_insert_self, hcovered⟩
    · exact hold c' hc'
  | idle | register | reserve | use | release => exact hold

theorem secured_of_lawful (hhash : ∀ m, host.sha256 m ≠ zero32) {log : BooksLog host}
    (h : Lawful BooksLaw log) : Secured (booksAfter log) := by
  induction log with
  | nil => exact fun c hc => by cases hc
  | cons event log ih => exact (change_of_lawful hhash h).secured (ih h.2)

/-! ### How balances add up -/

/-- The commits whose result contains the participant. -/
def settlementsOf (p : Bytes32) (commits : List Commit) : List Commit :=
  commits.filter fun c => p ∈ c.result.balances

theorem settlementsOf_append (p : Bytes32) (newer older : List Commit) :
    settlementsOf p (newer ++ older) = settlementsOf p newer ++ settlementsOf p older :=
  List.filter_append newer older

/-- What a batch adds to one side of the balance of a member. -/
def BatchResult.change (result : BatchResult) (side : PoolBalance → UInt64) (p : Bytes32) : Int :=
  ((result.balances[p]?.map fun b => (side b).toNat).getD 0 : Nat) -
    ((result.beforeBalances[p]?.map fun b => (side b).toNat).getD 0 : Nat)

/-- One side of what a participant has after these commits. -/
def accrued (side : PoolBalance → UInt64) (p : Bytes32) (registered : PoolBalance)
    (commits : List Commit) : Int :=
  (side registered).toNat + ((settlementsOf p commits).map fun c => c.result.change side p).sum

def latestEpoch (p : Bytes32) (commits : List Commit) : Bytes32 :=
  ((settlementsOf p commits).head?.map Commit.epochId).getD zero32

/-- The record of a participant that was registered with this balance. -/
structure Accrues (commits : List Commit) (p : Bytes32) (registered : PoolBalance)
    (record : AccountRecord) : Prop where
  balance : ∀ side : PoolBalance → UInt64,
    ((side record.balance).toNat : Int) = accrued side p registered commits
  lastEpoch : record.lastEpoch = latestEpoch p commits
  latest : ∀ c, (settlementsOf p commits).head? = some c →
    c.result.balances[p]? = some record.balance

variable (host) in
structure Balanced (b : OperatorBooks) : Prop where
  distinct : (b.commits.map Commit.epochId).Nodup
  applied : ∀ e d : Bytes32, b.accounts.appliedEpochs[e]? = some d ↔
    ∃ c ∈ b.commits, c.epochId = e ∧ settlementDigest host c.result = d
  members : ∀ c ∈ b.commits, ∀ p ∈ c.result.balances, p ∈ b.accounts.records
  registered : (b.registrations.map Prod.fst).Nodup
  known : ∀ p, p ∈ b.accounts.records ↔ p ∈ b.registrations.map Prod.fst
  accrues : ∀ p registered, (p, registered) ∈ b.registrations →
    ∃ record, b.accounts.records[p]? = some record ∧ Accrues b.commits p registered record

/-- A member of a batch has the balance that the batch started from. -/
theorem Commit.member {c : Commit} {accounts : AccountState} (h : accounts.Current c.result)
    {p : Bytes32} (hp : p ∈ c.result.balances) {record : AccountRecord}
    (hrecord : accounts.records[p]? = some record) :
    c.result.beforeBalances[p]? = some record.balance := by
  have hmem := (c.batch.mem_balances p).mp hp
  obtain ⟨before, hbefore⟩ :=
    Option.isSome_iff_exists.mp (Std.ExtTreeMap.mem_iff_isSome_getElem?.mp hmem)
  obtain ⟨record', hrecord', rfl⟩ := h p before hbefore
  cases hrecord.symm.trans hrecord'
  exact hbefore

theorem Accrues.commit {commits : List Commit} {p : Bytes32} {registered : PoolBalance}
    {record : AccountRecord} (h : Accrues commits p registered record) {c : Commit}
    {accounts : AccountState} (hcurrent : accounts.Current c.result)
    (hrecord : accounts.records[p]? = some record) :
    Accrues (c :: commits) p registered
      ((c.result.balances[p]?.map (record.settle c.epochId)).getD record) := by
  cases hafter : c.result.balances[p]? with
  | none =>
    have hnot : p ∉ c.result.balances := by
      rw [Std.ExtTreeMap.mem_iff_isSome_getElem?, hafter]
      simp
    have hsame : settlementsOf p (c :: commits) = settlementsOf p commits := by
      simp [settlementsOf, hnot]
    exact ⟨fun side => by rw [accrued, hsame]; exact h.balance side,
      by rw [latestEpoch, hsame]; exact h.lastEpoch, by rw [hsame]; exact h.latest⟩
  | some balance =>
    have hin : p ∈ c.result.balances := by
      rw [Std.ExtTreeMap.mem_iff_isSome_getElem?, hafter]
      rfl
    have hcons : settlementsOf p (c :: commits) = c :: settlementsOf p commits := by
      simp [settlementsOf, hin]
    have hbefore := Commit.member hcurrent hin hrecord
    refine ⟨fun side => ?_, by rw [latestEpoch, hcons]; rfl, ?_⟩
    · have hold := h.balance side
      simp only [accrued, hcons, List.map_cons, List.sum_cons, BatchResult.change, hafter,
        hbefore, Option.map_some, Option.getD_some, AccountRecord.settle] at hold ⊢
      omega
    · rw [hcons]
      rintro c' ⟨⟩
      exact hafter

theorem Change.balanced {b b' : OperatorBooks} (h : Change host b b') (hb : Balanced host b) :
    Balanced host b' := by
  cases h with
  | idle | reserve | use | release =>
    exact ⟨hb.distinct, hb.applied, hb.members, hb.registered, hb.known, hb.accrues⟩
  | @register p key balance hfresh =>
    have hnone : ∀ c ∈ b.commits, p ∉ c.result.balances := fun c hc hp =>
      hfresh (hb.members c hc p hp)
    have hempty : settlementsOf p b.commits = [] := by
      simpa [settlementsOf, List.filter_eq_nil_iff] using hnone
    have hnew : p ∉ b.registrations.map Prod.fst := fun hp => hfresh ((hb.known p).mpr hp)
    refine ⟨hb.distinct, hb.applied, fun c hc q hq => ?_, ?_, fun q => ?_, fun q registered hq => ?_⟩
    · exact Std.ExtTreeMap.mem_insert.mpr (Or.inr (hb.members c hc q hq))
    · exact List.nodup_cons.mpr ⟨hnew, hb.registered⟩
    · rw [Std.ExtTreeMap.mem_insert, List.map_cons, List.mem_cons, hb.known q, compare_eq_iff_eq]
      exact or_congr_left eq_comm
    · rcases List.mem_cons.mp hq with heq | hq
      · cases heq
        refine ⟨_, by rw [Map.getElem?_insert, if_pos rfl], fun side => ?_, ?_, ?_⟩
        · simp [accrued, hempty]
        · simp [latestEpoch, hempty]
        · simp [hempty]
      · have hne : p ≠ q := by
          rintro rfl
          exact hnew (List.mem_map.mpr ⟨_, hq, rfl⟩)
        obtain ⟨record, hrecord, haccrues⟩ := hb.accrues q registered hq
        exact ⟨record, by rw [Map.getElem?_insert, if_neg hne, hrecord], haccrues⟩
  | commit c hfresh hknown hcurrent hcovered =>
    have hmem : ∀ q, q ∈ (b.accounts.commit host c.epochId c.result).records ↔
        q ∈ b.accounts.records := fun q => by
      simp only [AccountState.commit, Std.ExtTreeMap.mem_iff_isSome_getElem?,
        AccountRecords.getElem?_settle, Option.isSome_map]
    have hnew : c.epochId ∉ b.commits.map Commit.epochId := by
      rintro hc
      obtain ⟨c', hc', heq⟩ := List.mem_map.mp hc
      have happlied := (hb.applied c.epochId _).mpr ⟨c', hc', heq, rfl⟩
      rw [Std.ExtTreeMap.mem_iff_isSome_getElem?, happlied] at hfresh
      exact hfresh rfl
    refine ⟨List.nodup_cons.mpr ⟨hnew, hb.distinct⟩, fun e d => ?_, fun c' hc' q hq => ?_,
      hb.registered, fun q => (hmem q).trans (hb.known q), fun q registered hq => ?_⟩
    · simp only [AccountState.commit, Map.getElem?_insert, List.exists_mem_cons_iff]
      split_ifs with he
      · subst he
        have hnot : ¬∃ c' ∈ b.commits, c'.epochId = c.epochId ∧
            settlementDigest host c'.result = d := by
          rintro ⟨c', hc', heq, -⟩
          exact hnew (List.mem_map.mpr ⟨c', hc', heq⟩)
        simp [hnot]
      · simp [he, hb.applied]
    · rw [hmem]
      rcases List.mem_cons.mp hc' with rfl | hc'
      · exact hknown q hq
      · exact hb.members c' hc' q hq
    · obtain ⟨record, hrecord, haccrues⟩ := hb.accrues q registered hq
      refine ⟨_, ?_, haccrues.commit hcurrent hrecord⟩
      simp only [AccountState.commit, AccountRecords.getElem?_settle, hrecord, Option.map_some]

theorem balanced_of_lawful (hhash : ∀ m, host.sha256 m ≠ zero32) {log : BooksLog host}
    (h : Lawful BooksLaw log) : Balanced host (booksAfter log) := by
  induction log with
  | nil =>
    refine ⟨List.nodup_nil, fun e d => ?_, by rintro c ⟨⟩, List.nodup_nil, fun p => ?_,
      by rintro p registered ⟨⟩⟩
    · have hnone : (∅ : AppliedEpochs)[e]? = none := Std.ExtTreeMap.getElem?_empty
      constructor
      · intro hd
        cases hnone.symm.trans hd
      · rintro ⟨c, ⟨⟩, -⟩
    · exact ⟨fun hp => absurd hp Std.ExtTreeMap.not_mem_empty, by rintro ⟨⟩⟩
  | cons event log ih => exact (change_of_lawful hhash h).balanced (ih h.2)

end Changes

end Kageb
