import Kageb.Host.BooksRuns
import Kageb.Host.Reference
import Kageb.Lib.Journals

/-! The reservation journal by itself: any number of handles on one path, in any interleaving of
their calls. A nonce is granted once, a record keeps its terms, nothing that was completed is lost,
and nobody reserves more than is available. -/

namespace Kageb

open Binary Checks Files Maps Files.Discipline

/-- What can be called on one reservation journal. What the closures of the last two return is part
of the call. -/
inductive ReservationOp (E : Type) where
  | «open»
  | reserve (record : ReservationRecord) (fresh : record.state = .reserved) (available : PoolBalance)
  | markUsed (nonce : Bytes32)
  | release (nonce : Bytes32)
  | finalizeEpoch (epochId : Bytes32) (nonces : List Bytes32) (expectedMembers : Finset Bytes32)
      (apply : Bool → Except E Unit)
  | releaseEpochChecked (epochId : Bytes32) (nonces : List Bytes32) (check : Except E Unit)

def reservationMachine (host : Host) (E : Type) : Machine BooksFile BooksFile UInt8 where
  Op := ReservationOp E
  Result
    | .open => Except JournalError Unit
    | .reserve .. => Except JournalError UnsignedFundedAuthorizationV1
    | .markUsed _ => Except JournalError Unit
    | .release _ => Except JournalError Unit
    | .finalizeEpoch .. => Except JournalError (Except E Unit)
    | .releaseEpochChecked .. => Except JournalError (Except E Unit)
  code
    | .open => (ReservationJournal.open host).run
    | .reserve record _ available => (ReservationJournal.reserve host record available).run
    | .markUsed nonce => (ReservationJournal.markUsed host nonce).run
    | .release nonce => (ReservationJournal.release host nonce).run
    | .finalizeEpoch epochId nonces members apply =>
      (ReservationJournal.finalizeEpoch host epochId nonces members fun hadUsed =>
        .done (apply hadUsed)).run
    | .releaseEpochChecked epochId nonces check =>
      (ReservationJournal.releaseEpochChecked host epochId nonces (.done check)).run
  removable _ := False

abbrev ReservationEvent (host : Host) (E : Type) : Type := Files.Event (reservationMachine host E)

abbrev ReservationRun (host : Host) (E : Type) : Type 1 := State (reservationMachine host E)

/-! ### What a call does to the records -/

section Records

/-- A later version of a record: only a reserved one changes, and only its state. -/
structure ReservationRecord.Follows (r r' : ReservationRecord) : Prop where
  terms : r' = { r with state := r'.state }
  state : r'.state = r.state ∨ r.state = .reserved

theorem ReservationRecord.Follows.refl (r : ReservationRecord) : r.Follows r := ⟨rfl, .inl rfl⟩

theorem ReservationRecord.Follows.trans {r r' r'' : ReservationRecord} (h : r.Follows r')
    (h' : r'.Follows r'') : r.Follows r'' := by
  refine ⟨?_, ?_⟩
  · rw [h'.terms, h.terms]
  · rcases h.state with hsame | hreserved
    · rw [← hsame]
      exact h'.state
    · exact .inr hreserved

/-- Every record is still there. -/
def Reservations.Kept (records records' : Reservations) : Prop :=
  ∀ (n : Bytes32) (r : ReservationRecord), records[n]? = some r →
    ∃ r', records'[n]? = some r' ∧ r.Follows r'

theorem Reservations.Kept.refl (records : Reservations) : records.Kept records :=
  fun _ r hr => ⟨r, hr, .refl r⟩

theorem Reservations.Kept.trans {records records' records'' : Reservations}
    (h : records.Kept records') (h' : records'.Kept records'') : records.Kept records'' := by
  intro n r hr
  obtain ⟨r', hr', hfollows⟩ := h n r hr
  obtain ⟨r'', hr'', hfollows'⟩ := h' n r' hr'
  exact ⟨r'', hr'', hfollows.trans hfollows'⟩

variable {E : Type}

/-- What a call may make of the records. -/
inductive ReservationMove (records : Reservations) : ReservationOp E → Reservations → Prop
  | open : ReservationMove records .open records
  | reserve {record : ReservationRecord} {fresh : record.state = .reserved}
      {available : PoolBalance} {records' : Reservations} :
      reserveIn record available records = .ok records' →
      ReservationMove records (.reserve record fresh available) records'
  | markUsed {nonce : Bytes32} {records' : Reservations} :
      transitionIn nonce .used records = .ok records' →
      ReservationMove records (.markUsed nonce) records'
  | release {nonce : Bytes32} {records' : Reservations} :
      transitionIn nonce .released records = .ok records' →
      ReservationMove records (.release nonce) records'
  | finalizeEpoch {epochId : Bytes32} {nonces : List Bytes32} {members : Finset Bytes32}
      {apply : Bool → Except E Unit} :
      Covered epochId records nonces members →
      ReservationMove records (.finalizeEpoch epochId nonces members apply)
        (records.advance .used nonces)
  | releaseEpochChecked {epochId : Bytes32} {nonces : List Bytes32} {check : Except E Unit}
      {selected : List ReservationRecord} : Selected epochId .used records nonces selected →
      ReservationMove records (.releaseEpochChecked epochId nonces check)
        (records.advance .released nonces)

theorem transitionIn_ok {nonce : Bytes32} {next : ReservationState}
    {records records' : Reservations} (h : transitionIn nonce next records = .ok records') :
    ∃ r, records[nonce]? = some r ∧ r.state = .reserved ∧ records' = records.advance next [nonce] := by
  simp only [transitionIn, bind_ok, okOr_eq_ok, Unique.exists_iff, rejectIf_eq_ok, not_not] at h
  obtain ⟨r, hr, hreserved, hok⟩ := h
  refine ⟨r, hr, hreserved, ?_⟩
  rw [← Except.ok.inj hok]
  apply Std.ExtTreeMap.ext_getElem?
  intro n
  rw [Map.getElem?_insert, Reservations.getElem?_advance]
  by_cases hn : nonce = n
  · subst hn
    simp [hr, hreserved]
  · simp [hn, Ne.symm hn]

/-- A call changes nothing, adds a record under a new nonce, or moves reserved records on. -/
theorem ReservationMove.cases {records records' : Reservations} {op : ReservationOp E}
    (h : ReservationMove records op records') : records' = records ∨
      (∃ record fresh available, op = .reserve record fresh available ∧
        reserveIn record available records = .ok records') ∨
      ∃ next nonces, next ≠ .reserved ∧ records' = records.advance next nonces := by
  cases h with
  | «open» => exact .inl rfl
  | reserve hreserve => exact .inr (.inl ⟨_, _, _, rfl, hreserve⟩)
  | markUsed hused =>
    obtain ⟨-, -, -, rfl⟩ := transitionIn_ok hused
    exact .inr (.inr ⟨_, _, by simp, rfl⟩)
  | release hreleased =>
    obtain ⟨-, -, -, rfl⟩ := transitionIn_ok hreleased
    exact .inr (.inr ⟨_, _, by simp, rfl⟩)
  | finalizeEpoch => exact .inr (.inr ⟨_, _, by simp, rfl⟩)
  | releaseEpochChecked => exact .inr (.inr ⟨_, _, by simp, rfl⟩)

theorem Reservations.Keyed.insert {records : Reservations} (h : records.Keyed)
    (record : ReservationRecord) : Reservations.Keyed (records.insert record.nonce record) := by
  intro n r hr
  rw [Map.getElem?_insert] at hr
  split_ifs at hr with hn
  · cases hr
    exact hn
  · exact h n r hr

theorem ReservationMove.keyed {records records' : Reservations} {op : ReservationOp E}
    (hkeyed : records.Keyed) (h : ReservationMove records op records') : records'.Keyed := by
  rcases h.cases with rfl | ⟨record, _, _, -, hreserve⟩ | ⟨next, nonces, -, rfl⟩
  · exact hkeyed
  · obtain ⟨-, rfl⟩ := reserveIn_ok hreserve
    exact hkeyed.insert record
  · exact hkeyed.advance next nonces

theorem Reservations.kept_advance (records : Reservations) (next : ReservationState)
    (nonces : List Bytes32) : records.Kept (records.advance next nonces) := by
  intro n r hr
  refine ⟨_, Reservations.getElem?_advance_of_some hr next nonces, ?_⟩
  split_ifs with hmoves
  · exact ⟨rfl, .inr hmoves.2⟩
  · exact .refl r

theorem Reservations.kept_insert {records : Reservations} {record : ReservationRecord}
    (h : record.nonce ∉ records) : records.Kept (records.insert record.nonce record) := by
  intro n r hr
  have hne : record.nonce ≠ n := by
    rintro rfl
    rw [Std.ExtTreeMap.mem_iff_isSome_getElem?, hr] at h
    exact h rfl
  exact ⟨r, by rw [Map.getElem?_insert, if_neg hne, hr], .refl r⟩

theorem ReservationMove.kept {records records' : Reservations} {op : ReservationOp E}
    (h : ReservationMove records op records') : records.Kept records' := by
  rcases h.cases with rfl | ⟨record, _, _, -, hreserve⟩ | ⟨next, nonces, -, rfl⟩
  · exact .refl records'
  · obtain ⟨hfresh, rfl⟩ := reserveIn_ok hreserve
    exact Reservations.kept_insert hfresh
  · exact records.kept_advance next nonces

end Records

/-! ### What a participant has reserved -/

section Totals

/-- One side of what a participant has reserved and neither used nor released. -/
def Reservations.reservedBy (records : Reservations) (side : ReservationRecord → UInt64)
    (p : Bytes32) : Nat :=
  Maps.total (fun r => if r.participantId = p ∧ r.state = .reserved then (side r).toNat else 0)
    records

theorem checkedAdd_toNat {a b c : UInt64} (h : checkedAdd a b = some c) :
    c.toNat = a.toNat + b.toNat := by
  unfold checkedAdd at h
  split_ifs at h with hlt
  rw [← Option.some.inj h, UInt64.toNat_add, Nat.mod_eq_of_lt hlt]

/-- The loop over the records adds both sides. -/
theorem foldlM_totals {records : List ReservationRecord} {base quote base' quote' : UInt64}
    (h : records.foldlM (fun (totals : UInt64 × UInt64) existing => do
      let base ← checkedAdd totals.1 existing.baseAtoms
      let quote ← checkedAdd totals.2 existing.quoteAtoms
      some (base, quote)) (base, quote) = some (base', quote')) :
    base'.toNat = base.toNat + (records.map fun r => r.baseAtoms.toNat).sum ∧
      quote'.toNat = quote.toNat + (records.map fun r => r.quoteAtoms.toNat).sum := by
  induction records generalizing base quote with
  | nil =>
    cases h
    simp
  | cons r records ih =>
    simp only [List.foldlM_cons, Option.bind_eq_bind, Option.bind_eq_some_iff] at h
    obtain ⟨⟨base₁, quote₁⟩, ⟨_, hbase, _, hquote, heq⟩, hrest⟩ := h
    cases heq
    obtain ⟨hbase', hquote'⟩ := ih hrest
    rw [hbase', hquote', checkedAdd_toNat hbase, checkedAdd_toNat hquote, List.map_cons,
      List.map_cons, List.sum_cons, List.sum_cons]
    omega

theorem reservedTotals_eq {records : Reservations} {p : Bytes32} {base quote : UInt64}
    (h : reservedTotals records p = some (base, quote)) :
    base.toNat = records.reservedBy ReservationRecord.baseAtoms p ∧
      quote.toNat = records.reservedBy ReservationRecord.quoteAtoms p := by
  obtain ⟨hbase, hquote⟩ := foldlM_totals h
  have hsum : ∀ side : ReservationRecord → UInt64,
      (((records.toList.map Prod.snd).filter fun existing =>
        existing.participantId = p && existing.state = .reserved).map fun r => (side r).toNat).sum =
      records.reservedBy side p := by
    intro side
    rw [Reservations.reservedBy, ← Maps.sum_toList, List.sum_map_ite, List.filter_map, List.map_map]
    simp [Function.comp_def]
  rw [hsum, UInt64.toNat_zero, Nat.zero_add] at hbase hquote
  exact ⟨hbase, hquote⟩

theorem reservedBy_advance_le (records : Reservations) (side : ReservationRecord → UInt64)
    (p : Bytes32) {next : ReservationState} (hnext : next ≠ .reserved) (nonces : List Bytes32) :
    (records.advance next nonces).reservedBy side p ≤ records.reservedBy side p := by
  have hdomain : Maps.domain (records.advance next nonces) = Maps.domain records := by
    ext n
    rw [Maps.mem_domain, Maps.mem_domain, Std.ExtTreeMap.mem_iff_isSome_getElem?,
      Std.ExtTreeMap.mem_iff_isSome_getElem?, Reservations.getElem?_advance, Option.isSome_map]
  rw [Reservations.reservedBy, Reservations.reservedBy, Maps.total, Maps.total, hdomain]
  refine Finset.sum_le_sum fun n _ => ?_
  rw [Maps.valueAt, Maps.valueAt, Reservations.getElem?_advance]
  cases records[n]? with
  | none => exact le_rfl
  | some r =>
    simp only [Option.map_some, Option.getD_some]
    split_ifs <;> simp_all

/-- A new reservation counts for its participant, and leaves room. -/
theorem reserveIn_reservedBy {record : ReservationRecord} {available : PoolBalance}
    {records records' : Reservations} (hstate : record.state = .reserved)
    (h : reserveIn record available records = .ok records') :
    (∀ side p, p ≠ record.participantId → records'.reservedBy side p = records.reservedBy side p) ∧
    records'.reservedBy ReservationRecord.baseAtoms record.participantId ≤
      available.baseAtoms.toNat ∧
    records'.reservedBy ReservationRecord.quoteAtoms record.participantId ≤
      available.quoteAtoms.toNat := by
  obtain ⟨hfresh, rfl⟩ := reserveIn_ok h
  simp only [reserveIn, bind_ok, Unique.exists_iff, rejectIf_eq_ok, okOr_eq_ok, not_or,
    UInt64.not_lt] at h
  obtain ⟨-, ⟨base, quote⟩, htotals, base', hbase, quote', hquote, ⟨hlebase, hlequote⟩, -⟩ := h
  obtain ⟨hbaseSum, hquoteSum⟩ := reservedTotals_eq htotals
  have hinsert : ∀ side p, Reservations.reservedBy (records.insert record.nonce record) side p =
      (if record.participantId = p ∧ record.state = .reserved then (side record).toNat else 0) +
        records.reservedBy side p := fun side p => Maps.total_insert _ hfresh
  refine ⟨fun side p hp => ?_, ?_, ?_⟩
  · rw [hinsert, if_neg fun hsame => hp hsame.1.symm, Nat.zero_add]
  · rw [hinsert, if_pos ⟨rfl, hstate⟩, ← hbaseSum, Nat.add_comm, ← checkedAdd_toNat hbase]
    exact UInt64.le_iff_toNat_le.mp hlebase
  · rw [hinsert, if_pos ⟨rfl, hstate⟩, ← hquoteSum, Nat.add_comm, ← checkedAdd_toNat hquote]
    exact UInt64.le_iff_toNat_le.mp hlequote

end Totals

/-! ### The journal -/

section Runs

variable {host : Host} {E : Type}

def recordsAfter (log : List (ReservationEvent host E)) : Reservations :=
  storedReservations host (contentOf (fun _ => none) log .reservations)

/-- The reservation is in this state. -/
def Reservations.StateOf (records : Reservations) (state : ReservationState) (n : Bytes32) : Prop :=
  ∃ r, records[n]? = some r ∧ r.state = state

/-- What a call that succeeds leaves in the records. -/
def Completed : ReservationOp E → Reservations → Prop
  | .open, _ => True
  | .reserve record _ _, records => ∃ r, records[record.nonce]? = some r ∧ record.Follows r
  | .markUsed nonce, records => records.StateOf .used nonce
  | .release nonce, records => records.StateOf .released nonce
  | .finalizeEpoch _ nonces _ _, records => ∀ n ∈ nonces, records.StateOf .used n
  | .releaseEpochChecked _ nonces _, records => ∀ n ∈ nonces, records.StateOf .released n

/-- The call has done what it was asked to. -/
def Succeeded : (op : (reservationMachine host E).Op) → (reservationMachine host E).Result op → Prop
  | .open, result => result = .ok ()
  | .reserve .., result => ∃ a, result = .ok a
  | .markUsed _, result => result = .ok ()
  | .release _, result => result = .ok ()
  | .finalizeEpoch .., result => result = .ok (.ok ())
  | .releaseEpochChecked .., result => result = .ok (.ok ())

/-- The authorization for a record. -/
def ReservationRecord.authorization (record : ReservationRecord) : UnsignedFundedAuthorizationV1 where
  nonce := record.nonce
  epochId := record.epochId
  participantId := record.participantId
  baseAtoms := record.baseAtoms
  quoteAtoms := record.quoteAtoms

/-- What is granted is what the call has put down. -/
def Granted (log : List (ReservationEvent host E)) (i : Nat) :
    (op : (reservationMachine host E).Op) → (reservationMachine host E).Result op → Prop
  | .reserve record fresh available, result => ∀ a, result = .ok a → a = record.authorization ∧
      ∃ old new, .wrote i (.reserve record fresh available) .reservations old new ∈ log
  | _, _ => True

variable (host E) in
/-- The journal with what its calls do and say. -/
def reservationJournal : Journal (reservationMachine host E) Reservations JournalError where
  file := .reservations
  lock := .reservations
  empty := ∅
  decode := decodeReservations host
  encode := encodeReservations host
  Valid := Reservations.Keyed
  step := ReservationMove
  told log i op result := Granted log i op result ∧
    (Succeeded op result → ∃ during, during <:+ log ∧ Completed op (recordsAfter during))
  valid_empty := by
    intro n r hr
    simp at hr
  decode_encode := decodeReservations_encode
  valid_step := ReservationMove.keyed
  told_suffix := by
    rintro older newer i op result ⟨hgranted, hcompleted⟩ hsuffix
    refine ⟨?_, fun hresult => ?_⟩
    · cases op with
      | reserve record fresh available =>
        intro a ha
        obtain ⟨hterms, old, new, hwrote⟩ := hgranted a ha
        exact ⟨hterms, old, new, hsuffix.mem hwrote⟩
      | _ => trivial
    · obtain ⟨during, hduring, hvisible⟩ := hcompleted hresult
      exact ⟨during, hduring.trans hsuffix, hvisible⟩

abbrev ReservationDiscipline (host : Host) (E : Type) : Discipline (reservationMachine host E) :=
  (reservationJournal host E).discipline

variable {i : Nat} {op : (reservationMachine host E).Op} {held : Finset BooksFile}
  {w : World (reservationMachine host E)}

theorem completed_kept {op : ReservationOp E} {records records' : Reservations}
    (h : Completed op records) (hkept : records.Kept records') : Completed op records' := by
  -- a state that is not reserved stays
  have hstays : ∀ state n, state ≠ .reserved → records.StateOf state n →
      records'.StateOf state n := by
    rintro state n hstate ⟨r, hr, rfl⟩
    obtain ⟨r', hr', hfollows⟩ := hkept n r hr
    exact ⟨r', hr', hfollows.state.resolve_right hstate⟩
  cases op with
  | «open» => trivial
  | reserve record fresh available =>
    obtain ⟨r, hr, hfollows⟩ := h
    obtain ⟨r', hr', hfollows'⟩ := hkept _ r hr
    exact ⟨r', hr', hfollows.trans hfollows'⟩
  | markUsed nonce => exact hstays _ _ (by simp) h
  | release nonce => exact hstays _ _ (by simp) h
  | finalizeEpoch epochId nonces members apply => exact fun n hn => hstays _ n (by simp) (h n hn)
  | releaseEpochChecked epochId nonces check => exact fun n hn => hstays _ n (by simp) (h n hn)

/-- What `mutate` does for a call that may do it. -/
theorem ends_mutateRecords {operation : Reservations → Except JournalError Reservations}
    (hmove : ∀ records records', operation records = .ok records' →
      ReservationMove records op records')
    (hcompleted : ∀ records records', operation records = .ok records' → Completed op records') :
    (ReservationDiscipline host E).Ends i op held w
      (fun r w' => ∀ u, r = .ok u → ∃ during, during <:+ w'.log ∧
        Completed op (recordsAfter during) ∧ ∃ old new, .wrote i op .reservations old new ∈ w'.log)
      (ReservationJournal.mutate host operation).run := by
  have hupdate := @Journal.ends_update _ _ _ _ _ _ (reservationJournal host E) _ i op held w _
    JournalError.io _ reservations_lockRefused operation fun s s' _ hs => hmove s s' hs
  refine hupdate.mono fun r w' hr u hu => ?_
  obtain ⟨s, s', hoperation, during, hduring, hstate, old, new, hwrote⟩ := hr u hu
  refine ⟨during, hduring, ?_, old, new, hduring.mem hwrote⟩
  have hrecords : recordsAfter during = s' := hstate
  rw [hrecords]
  exact hcompleted s s' hoperation

theorem ends_openRecords : (ReservationDiscipline host E).Ends i .open held w (fun _ _ => True)
    (ReservationJournal.open host).run := by
  refine ends_guarded_of_any reservations_lockRefused fun now hnow => ?_
  have hheld := Finset.mem_insert_self BooksFile.reservations held
  refine ends_isThere.bind (fun there w₁ ⟨hw₁, hthere⟩ => ?_) fun _ _ _ => trivial
  have hload : ∀ w₂, (ReservationDiscipline host E).Ends i .open (insert .reservations held) w₂
      (fun _ _ => True) (do
        let _ ← ReservationJournal.loadRecords host
        Call.lift (.ok ()) : ExceptT JournalError BooksCall Unit).run := fun w₂ =>
    (Journal.ends_load (J := reservationJournal host E)).bind (fun _ _ _ => ends_lift trivial)
      fun _ _ _ => trivial
  cases there with
  | true => exact hload w₁
  | false =>
    -- without the file there are no records
    have hempty : (reservationJournal host E).stateAfter w₁.log = ∅ := by
      have hnone : w₁.files .reservations = none := by
        simpa using (Except.ok.inj hthere).symm
      rw [hw₁.valid.stateAfter]
      exact congrArg (storedReservations host) hnone
    have hstep : (reservationJournal host E).step
        ((reservationJournal host E).stateAfter w₁.log) .open ∅ := by
      rw [hempty]
      exact .open
    exact ((Journal.ends_store hw₁.valid hheld hstep).mono fun _ _ _ => trivial).bind
      (fun _ w₂ _ => hload w₂) fun _ _ _ => trivial

/-- The end of both calls on a batch, if it may be moved on. -/
theorem ends_finishRecords {next : ReservationState} {nonces : List Bytes32} {records : Reservations}
    {applied : Except E Unit} (hnext : next ≠ .reserved)
    (hw : (reservationJournal host E).Sound w) (hheld : .reservations ∈ held)
    (hrecords : recordsAfter w.log = records) (hknown : ∀ n ∈ nonces, n ∈ records)
    (hmove : ReservationMove records op (records.advance next nonces)) :
    (ReservationDiscipline host E).Ends i op held w
      (fun r w' => (reservationJournal host E).Sound w' ∧
        (r = .ok (.ok ()) → recordsAfter w'.log = records.advance next nonces))
      (ReservationJournal.finish host next nonces records applied).run := by
  rcases applied with e | ⟨⟩
  · exact ends_lift ⟨hw, by rintro ⟨⟩⟩
  rw [ReservationJournal.finish, transitionAll_eq hnext false hknown]
  refine ends_lift_bind (fun updated hupdated => ?_) (by rintro e ⟨⟩)
  cases hupdated
  dsimp only
  cases hchanged : false || nonces.any fun n => records[n]?.any fun r =>
      decide (r.state = .reserved) with
  | false =>
    refine ends_lift_bind (fun _ _ => ends_lift ⟨hw, fun _ => ?_⟩) (by rintro e ⟨⟩)
    rw [advance_eq_self (by simpa using hchanged), hrecords]
  | true =>
    have hstep : (reservationJournal host E).step
        ((reservationJournal host E).stateAfter w.log) op (records.advance next nonces) := by
      have hstate : (reservationJournal host E).stateAfter w.log = records := hrecords
      rw [hstate]
      exact hmove
    refine (Journal.ends_store hw hheld hstep).bind (fun u w' hstored => ?_) fun e w' hstored => ?_
    · obtain ⟨hw', -, hdone⟩ := hstored
      exact ends_lift ⟨hw', fun _ => (hdone u rfl).1⟩
    · exact ⟨hstored.1, by rintro ⟨⟩⟩

theorem ends_transition {nonce : Bytes32} {next : ReservationState}
    (hmove : ∀ records records', transitionIn nonce next records = .ok records' →
      ReservationMove records op records')
    (hop : ∀ records : Reservations, records.StateOf next nonce → Completed op records) :
    (ReservationDiscipline host E).Ends i op held w
      (fun r w' => r = .ok () → ∃ during, during <:+ w'.log ∧ Completed op (recordsAfter during))
      (ReservationJournal.transition host nonce next).run := by
  refine (ends_mutateRecords hmove fun records records' htransition => hop records' ?_).mono
    fun r w' hr hok => ?_
  · obtain ⟨r, hr, hreserved, rfl⟩ := transitionIn_ok htransition
    exact ⟨_, advance_moved List.mem_cons_self hr (.inl hreserved), rfl⟩
  · obtain ⟨during, hduring, hcompleted, -⟩ := hr () hok
    exact ⟨during, hduring, hcompleted⟩

theorem ends_reserveRecord {record : ReservationRecord} {fresh : record.state = .reserved}
    {available : PoolBalance} :
    (ReservationDiscipline host E).Ends i (.reserve record fresh available) held w
      (fun r w' => (reservationJournal host E).told w'.log i (.reserve record fresh available) r)
      (ReservationJournal.reserve host record available).run := by
  refine (@ends_mutateRecords host E i (.reserve record fresh available) held w
    (reserveIn record available) (fun _ _ => .reserve) fun records records' hreserve => ?_).bind
    (fun u w' hdone => ?_) fun e w' _ => ⟨nofun, nofun⟩
  · obtain ⟨-, rfl⟩ := reserveIn_ok hreserve
    exact ⟨record, by rw [Map.getElem?_insert, if_pos rfl], .refl record⟩
  · obtain ⟨during, hduring, hcompleted, hwrote⟩ := hdone u rfl
    refine ends_lift ⟨fun a ha => ?_, fun _ => ⟨during, hduring, hcompleted⟩⟩
    cases ha
    exact ⟨rfl, hwrote⟩

theorem ends_finalizeRecords {epochId : Bytes32} {nonces : List Bytes32} {members : Finset Bytes32}
    {apply : Bool → Except E Unit} :
    (ReservationDiscipline host E).Ends i (.finalizeEpoch epochId nonces members apply) held w
      (fun r w' => r = .ok (.ok ()) → ∃ during, during <:+ w'.log ∧
        ∀ n ∈ nonces, (recordsAfter during).StateOf .used n)
      (ReservationJournal.finalizeEpoch host epochId nonces members fun hadUsed =>
        .done (apply hadUsed)).run := by
  refine ends_guarded reservations_lockRefused (fun _ _ _ _ _ => nofun) fun now _ hnow => ?_
  have hheld := Finset.mem_insert_self BooksFile.reservations held
  refine (Journal.ends_load (J := reservationJournal host E)).bind
    (fun records w₁ ⟨hw₁, hrecords⟩ => ?_) fun _ _ _ _ _ => nofun
  refine ends_lift_bind (fun selected hselect => ?_) fun _ _ _ _ => nofun
  have hselected := (selectRecords_ok.mp hselect).2
  refine ends_lift_bind (fun _ hcheck => ?_) fun _ _ _ _ => nofun
  rw [rejectIf_eq_ok, not_or, not_not, not_not] at hcheck
  refine (ends_finishRecords (by simp) hw₁.valid hheld (hrecords records rfl).symm
    hselected.known (.finalizeEpoch ⟨selected, hselected, hcheck⟩)).mono
    fun r w₂ ⟨_, hdone⟩ later hlater hok => ⟨w₂.log, hlater.rely.log, fun n hn => ?_⟩
  rw [hdone hok]
  obtain ⟨r, hr, -, hstate⟩ := hselected.mem hn
  exact ⟨_, advance_used hn hr hstate, rfl⟩

theorem ends_releaseRecords {epochId : Bytes32} {nonces : List Bytes32} {check : Except E Unit} :
    (ReservationDiscipline host E).Ends i (.releaseEpochChecked epochId nonces check) held w
      (fun r w' => r = .ok (.ok ()) → ∃ during, during <:+ w'.log ∧
        ∀ n ∈ nonces, (recordsAfter during).StateOf .released n)
      (ReservationJournal.releaseEpochChecked host epochId nonces (.done check)).run := by
  refine ends_guarded reservations_lockRefused (fun _ _ _ _ _ => nofun) fun now _ hnow => ?_
  have hheld := Finset.mem_insert_self BooksFile.reservations held
  refine (Journal.ends_load (J := reservationJournal host E)).bind
    (fun records w₁ ⟨hw₁, hrecords⟩ => ?_) fun _ _ _ _ _ => nofun
  refine ends_lift_bind (fun selected hselect => ?_) fun _ _ _ _ => nofun
  have hselected := (selectRecords_ok.mp hselect).2
  refine (ends_finishRecords (by simp) hw₁.valid hheld (hrecords records rfl).symm
    hselected.known (.releaseEpochChecked hselected)).mono
    fun r w₂ ⟨_, hdone⟩ later hlater hok => ⟨w₂.log, hlater.rely.log, fun n hn => ?_⟩
  rw [hdone hok]
  obtain ⟨r, hr, -, hstate⟩ := hselected.mem hn
  exact ⟨_, advance_released hn hr hstate, rfl⟩

/-- Every call keeps the discipline and says what it may. -/
theorem ends_reservationCode (op : (reservationMachine host E).Op) :
    (ReservationDiscipline host E).Ends i op ∅ w
      (fun r w' => (reservationJournal host E).told w'.log i op r)
      ((reservationMachine host E).code op) := by
  cases op with
  | «open» => exact ends_openRecords.mono fun _ w' _ =>
      ⟨trivial, fun _ => ⟨w'.log, List.suffix_refl _, trivial⟩⟩
  | reserve record fresh available => exact ends_reserveRecord
  | markUsed nonce =>
    exact (ends_transition (fun _ _ => .markUsed) fun _ => id).mono fun _ _ h => ⟨trivial, h⟩
  | release nonce =>
    exact (ends_transition (fun _ _ => .release) fun _ => id).mono fun _ _ h => ⟨trivial, h⟩
  | finalizeEpoch epochId nonces members apply =>
    exact ends_finalizeRecords.mono fun _ _ h => ⟨trivial, h⟩
  | releaseEpochChecked epochId nonces check =>
    exact ends_releaseRecords.mono fun _ _ h => ⟨trivial, h⟩

/-! ### Whole runs -/

/-- There is no file yet. -/
def ReservationRun.initial (host : Host) (E : Type) : ReservationRun host E :=
  State.initial BooksFile fun _ => none

def recordsIn (s : ReservationRun host E) : Reservations :=
  storedReservations host (s.world.files .reservations)

/-- The authorization that an event hands out. -/
def grantOf : ReservationEvent host E → Option UnsignedFundedAuthorizationV1
  | .returned _ (.reserve ..) result =>
    (result : Except JournalError UnsignedFundedAuthorizationV1).toOption
  | _ => none

/-- All authorizations ever handed out, the last one first. -/
def grants (log : List (ReservationEvent host E)) : List UnsignedFundedAuthorizationV1 :=
  log.filterMap grantOf

abbrev ReservationLaw (host : Host) (E : Type) := (reservationJournal host E).Law

variable {s t : ReservationRun host E} {log older : List (ReservationEvent host E)}

theorem reservations_sound (hs : Reaches (ReservationRun.initial host E) s) :
    (reservationJournal host E).Sound s.world :=
  Journal.lawful_of_reaches (fun _ => id) (fun op _ _ => ends_reservationCode op) hs

theorem recordsIn_eq (hs : Reaches (ReservationRun.initial host E) s) :
    recordsIn s = recordsAfter s.world.log :=
  (reservations_sound hs).stateAfter.symm

theorem kept_of_suffix (h : Lawful (ReservationLaw host E) log) (hsuffix : older <:+ log) :
    (recordsAfter older).Kept (recordsAfter log) :=
  Journal.keeps_suffix (J := reservationJournal host E) Reservations.Kept.refl
    Reservations.Kept.trans (fun _ => ReservationMove.kept) h hsuffix

/-- One event does nothing to the records, or what its call may do. -/
theorem recordsAfter_cons {event : ReservationEvent host E}
    (h : Lawful (ReservationLaw host E) (event :: log)) :
    recordsAfter (event :: log) = recordsAfter log ∨
      ∃ i op old new, event = .wrote i op .reservations old new ∧
        ReservationMove (recordsAfter log) op (recordsAfter (event :: log)) :=
  Journal.stateAfter_cons h

theorem mem_of_kept {records records' : Reservations} (h : records.Kept records') {n : Bytes32}
    (hn : n ∈ records) : n ∈ records' := by
  obtain ⟨r, hr⟩ := Option.isSome_iff_exists.mp (Std.ExtTreeMap.mem_iff_isSome_getElem?.mp hn)
  obtain ⟨r', hr', -⟩ := h n r hr
  rw [Std.ExtTreeMap.mem_iff_isSome_getElem?, hr']
  rfl

section Writes

variable {i j : Nat} {record record' : ReservationRecord} {fresh : record.state = .reserved}
  {fresh' : record'.state = .reserved} {available available' : PoolBalance} {old old' : Option Bytes}
  {new new' : Bytes}

/-- A reservation is put down under a nonce that was not there, and is there afterwards. -/
theorem reserve_wrote (h : Lawful (ReservationLaw host E)
    (.wrote i (.reserve record fresh available) .reservations old new :: older)) :
    record.nonce ∉ recordsAfter older ∧ record.nonce ∈ recordsAfter
      (.wrote i (.reserve record fresh available) .reservations old new :: older) := by
  have hmove : ReservationMove (recordsAfter older) (.reserve record fresh available)
      (recordsAfter (.wrote i (.reserve record fresh available) .reservations old new :: older)) :=
    Journal.step_of_wrote h
  generalize recordsAfter (.wrote i (.reserve record fresh available) .reservations old new :: older)
    = records' at hmove
  cases hmove with
  | reserve hreserve =>
    obtain ⟨hnew, rfl⟩ := reserveIn_ok hreserve
    exact ⟨hnew, Std.ExtTreeMap.mem_insert_self⟩

/-- No other call puts down the same nonce afterwards. -/
theorem reserve_wrote_last (h : Lawful (ReservationLaw host E)
    (.wrote i (.reserve record fresh available) .reservations old new :: older))
    (hwrote : .wrote j (.reserve record' fresh' available') .reservations old' new' ∈ older) :
    record.nonce ≠ record'.nonce := by
  intro heq
  obtain ⟨oldest, hsuffix⟩ := exists_suffix_of_mem hwrote
  have hbefore := (reserve_wrote (h.2.suffix hsuffix)).2
  exact (reserve_wrote h).1 (heq ▸ mem_of_kept (kept_of_suffix h.2 hsuffix) hbefore)

/-- One nonce is put down by one call. -/
theorem reserve_wrote_once (h : Lawful (ReservationLaw host E) log)
    (hi : .wrote i (.reserve record fresh available) .reservations old new ∈ log)
    (hj : .wrote j (.reserve record' fresh' available') .reservations old' new' ∈ log)
    (hnonce : record.nonce = record'.nonce) : i = j := by
  obtain ⟨olderi, hsuffixi⟩ := exists_suffix_of_mem hi
  obtain ⟨olderj, hsuffixj⟩ := exists_suffix_of_mem hj
  rcases List.suffix_or_suffix_of_suffix hsuffixi hsuffixj with hij | hji
  · rcases List.suffix_cons_iff.mp hij with heq | hij
    · cases heq
      rfl
    · exact absurd hnonce.symm (reserve_wrote_last (h.suffix hsuffixj) (hij.mem List.mem_cons_self))
  · rcases List.suffix_cons_iff.mp hji with heq | hji
    · cases heq
      rfl
    · exact absurd hnonce (reserve_wrote_last (h.suffix hsuffixi) (hji.mem List.mem_cons_self))

end Writes

theorem mem_grants {a : UnsignedFundedAuthorizationV1} (ha : a ∈ grants log) :
    ∃ i record fresh available,
      .returned i (.reserve record fresh available) (.ok a : Except JournalError _) ∈ log := by
  obtain ⟨event, hevent, hgrant⟩ := List.mem_filterMap.mp ha
  cases event with
  | returned i op result =>
    cases op with
    | reserve record fresh available =>
      obtain rfl := eq_ok_of_toOption hgrant
      exact ⟨i, record, fresh, available, hevent⟩
    | _ => cases hgrant
  | _ => cases hgrant

/-- What was granted was put down before, by the same call. -/
theorem granted_of_lawful {i : Nat} {record : ReservationRecord} {fresh : record.state = .reserved}
    {available : PoolBalance} {a : UnsignedFundedAuthorizationV1}
    (h : Lawful (ReservationLaw host E) log)
    (hmem : .returned i (.reserve record fresh available) (.ok a : Except JournalError _) ∈ log) :
    a = record.authorization ∧
      ∃ old new, .wrote i (.reserve record fresh available) .reservations old new ∈ log := by
  obtain ⟨older, hsuffix⟩ := exists_suffix_of_mem hmem
  obtain ⟨hterms, old, new, hwrote⟩ := (h.event hsuffix).1 a rfl
  exact ⟨hterms, old, new, hsuffix.mem (List.mem_cons_of_mem _ hwrote)⟩

/-- No nonce is granted twice. -/
theorem nodup_grants (hs : Reaches (ReservationRun.initial host E) s)
    (hsuffix : log <:+ s.world.log) : ((grants log).map (·.nonce)).Nodup := by
  have hlawful := (reservations_sound hs).lawful
  have horderly := hs.orderly (orderly_initial _)
  induction log with
  | nil => exact List.nodup_nil
  | cons event log ih =>
    have hlog := ih ((List.suffix_cons _ _).trans hsuffix)
    cases hgrant : grantOf event with
    | none => rwa [grants, List.filterMap_cons_none hgrant]
    | some a =>
      rw [grants, List.filterMap_cons_some hgrant, List.map_cons, List.nodup_cons]
      refine ⟨fun hmem => ?_, hlog⟩
      obtain ⟨a', ha', hnonce⟩ := List.mem_map.mp hmem
      have hhead : a ∈ grants [event] := List.mem_filterMap.mpr ⟨event, List.mem_cons_self, hgrant⟩
      obtain ⟨i, record, fresh, available, hreturned⟩ := mem_grants hhead
      obtain rfl := List.mem_singleton.mp hreturned
      obtain ⟨j, record', fresh', available', hreturned'⟩ := mem_grants ha'
      have hwhole := hlawful.suffix hsuffix
      obtain ⟨rfl, old, new, hwrote⟩ := granted_of_lawful hwhole List.mem_cons_self
      obtain ⟨rfl, old', new', hwrote'⟩ :=
        granted_of_lawful hwhole (List.mem_cons_of_mem _ hreturned')
      obtain rfl := reserve_wrote_once hwhole hwrote hwrote' hnonce.symm
      -- one call would have returned twice
      exact horderly.last _ log i _ _ hsuffix rfl hreturned'

theorem completed_of_returned (hs : Reaches (ReservationRun.initial host E) s) {i : Nat}
    {op : (reservationMachine host E).Op} {result : (reservationMachine host E).Result op}
    (hreturned : .returned i op result ∈ s.world.log) (hresult : Succeeded op result) :
    Completed op (recordsIn s) := by
  have hlawful := (reservations_sound hs).lawful
  obtain ⟨older, hsuffix⟩ := exists_suffix_of_mem hreturned
  obtain ⟨during, hduring, hcompleted⟩ := (hlawful.event hsuffix).2 hresult
  rw [recordsIn_eq hs]
  exact completed_kept hcompleted (kept_of_suffix hlawful
    ((hduring.trans (List.suffix_cons _ _)).trans hsuffix))

/-- As long as every reservation of a participant was made against the same balance, it covers what
is reserved. -/
theorem reservedBy_le (h : Lawful (ReservationLaw host E) log) {p : Bytes32} {A : PoolBalance}
    (hsame : ∀ i record fresh available old new,
      .wrote i (.reserve record fresh available) .reservations old new ∈ log →
      record.participantId = p → available = A) :
    (recordsAfter log).reservedBy ReservationRecord.baseAtoms p ≤ A.baseAtoms.toNat ∧
      (recordsAfter log).reservedBy ReservationRecord.quoteAtoms p ≤ A.quoteAtoms.toNat := by
  induction log with
  | nil => exact ⟨Nat.zero_le _, Nat.zero_le _⟩
  | cons event log ih =>
    have hlog := ih h.2 fun i record fresh available old new hmem =>
      hsame i record fresh available old new (List.mem_cons_of_mem _ hmem)
    rcases recordsAfter_cons h with hkept | ⟨i, op, old, new, rfl, hmove⟩
    · rwa [hkept]
    · rcases hmove.cases with hkept | ⟨record, fresh, available, rfl, hreserve⟩ |
        ⟨next, nonces, hnext, hadvanced⟩
      · rwa [hkept]
      · obtain ⟨hothers, hbase, hquote⟩ := reserveIn_reservedBy fresh hreserve
        by_cases hp : record.participantId = p
        · obtain rfl := hsame i record fresh available old new List.mem_cons_self hp
          subst hp
          exact ⟨hbase, hquote⟩
        · rw [hothers _ p (Ne.symm hp), hothers _ p (Ne.symm hp)]
          exact hlog
      · rw [hadvanced]
        exact ⟨(reservedBy_advance_le _ _ p hnext nonces).trans hlog.1,
          (reservedBy_advance_le _ _ p hnext nonces).trans hlog.2⟩

/-- In every interleaving of calls on one path, wherever they stop. -/
theorem reservations_linear (hs : Reaches (ReservationRun.initial host E) s) :
    -- a nonce is granted once, on the terms of its record
    ((grants s.world.log).map (·.nonce)).Nodup ∧
    (∀ i record fresh available (a : UnsignedFundedAuthorizationV1),
      .returned i (.reserve record fresh available) (.ok a : Except JournalError _) ∈ s.world.log →
      a = record.authorization) ∧
    -- a record keeps its terms, and its state moves on at most once
    (∀ t, Reaches (ReservationRun.initial host E) t → Reaches t s →
      (recordsIn t).Kept (recordsIn s)) ∧
    -- what was completed is there
    (∀ i op result, .returned i op result ∈ s.world.log → Succeeded op result →
      Completed op (recordsIn s)) ∧
    -- nobody reserves more than the balance that all reservations are made against
    ∀ p A, (∀ i record fresh available,
        .started i (.reserve record fresh available) ∈ s.world.log → record.participantId = p →
        available = A) →
      (recordsIn s).reservedBy ReservationRecord.baseAtoms p ≤ A.baseAtoms.toNat ∧
        (recordsIn s).reservedBy ReservationRecord.quoteAtoms p ≤ A.quoteAtoms.toNat := by
  have hlawful := (reservations_sound hs).lawful
  refine ⟨nodup_grants hs (List.suffix_refl _), fun i record fresh available a hreturned => ?_,
    fun t ht hts => ?_, fun i op result hreturned hresult => ?_, fun p A hsame => ?_⟩
  · exact (granted_of_lawful hlawful hreturned).1
  · rw [recordsIn_eq ht, recordsIn_eq hs]
    exact kept_of_suffix hlawful hts.log
  · exact completed_of_returned hs hreturned hresult
  · rw [recordsIn_eq hs]
    refine reservedBy_le hlawful fun i record fresh available old new hwrote => ?_
    exact hsame i record fresh available ((hs.begun (begun_initial _)).wrote _ _ _ _ _ hwrote)

end Runs

namespace Sample

def lotRecord (nonce : Bytes32) (h : nonce ≠ zero32) : ReservationRecord :=
  ⟨nonce, key 81, key 61, 1, 100, .reserved, h, key_81_ne, by decide, one_ne, hundred_ne⟩

def lotBalance : PoolBalance := ⟨10, 1000⟩

/-- Two reservations of one participant. -/
def reservedRun : ReservationRun host Unit :=
  (ReservationRun.initial host Unit).soloAll [.open,
    .reserve (lotRecord (key 91) key_91_ne) rfl lotBalance,
    .reserve (lotRecord (key 92) key_92_ne) rfl lotBalance]

def useFirst : ReservationOp Unit := .markUsed (key 91)

/-- One of them is used. -/
def usedRun : ReservationRun host Unit := reservedRun.solo useFirst

theorem usedRun_reaches : Reaches (ReservationRun.initial host Unit) usedRun := by
  obtain ⟨hreserved, hfree⟩ :=
    State.Free.reaches_soloAll (s := ReservationRun.initial host Unit) (fun _ => rfl) _
  exact hreserved.trans (hfree.reaches_solo _).1

/-- Whoever reserves does so against the balance of the sample. -/
def sameBalance : ReservationEvent host Unit → Bool
  | .started _ (.reserve _ _ available) => available = lotBalance
  | _ => true

end Sample

/-- The used reservation is recorded as such, and the other is covered. -/
theorem reservations_linear_used :
    (recordsIn Sample.usedRun).StateOf .used (Sample.key 91) ∧
    (recordsIn Sample.usedRun).reservedBy ReservationRecord.baseAtoms (Sample.key 61) ≤ 10 := by
  have hchecks : Except.toOption (Sample.reservedRun.told Sample.useFirst :
      Except JournalError Unit) = some () ∧
      Sample.usedRun.world.log.all Sample.sameBalance = true := by decide +kernel
  have hsolo : ∀ (s : ReservationRun Sample.host Unit) (op : ReservationOp Unit),
      Reaches (ReservationRun.initial Sample.host Unit) (s.solo op) → Succeeded op (s.told op) →
      Completed op (recordsIn (s.solo op)) := fun s op hs htold =>
    (reservations_linear hs).2.2.2.1 _ _ _ (State.solo_returned s op) htold
  have hused := hsolo Sample.reservedRun Sample.useFirst Sample.usedRun_reaches
    (eq_ok_of_toOption hchecks.1)
  have hcovered := (reservations_linear Sample.usedRun_reaches).2.2.2.2
  refine ⟨hused, (hcovered (Sample.key 61) Sample.lotBalance ?_).1⟩
  intro i record fresh available hstarted _
  exact of_decide_eq_true (List.all_eq_true.mp hchecks.2 _ hstarted)

end Kageb
