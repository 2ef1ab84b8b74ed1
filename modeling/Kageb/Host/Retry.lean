import Kageb.Host.Finality

/-! A settlement that is finalized once more: what the call returns when nobody disturbs it. -/

namespace Kageb

open Binary Checks Files Maps

section Exec

variable {host : Host} {i : Nat} {op : (booksMachine host).Op} {held : Finset BooksFile}
  {w : BooksWorld host} {accounts : AccountState} {reservations : Reservations} {bytes : Bytes}

theorem exec_load (hfile : w.files .accounts = some bytes)
    (hdecode : decodeAccounts host bytes = .ok accounts) :
    exec i op (AccountJournal.load host).run held w = (.ok accounts, held, w) := by
  rw [AccountJournal.load, exec_run_bind, exec_adapt, exec_read, hfile]
  simp only [Except.mapError, thenRun_ok, exec_lift, hdecode]

theorem exec_loadRecords (hfile : w.files .reservations = some bytes)
    (hdecode : decodeReservations host bytes = .ok reservations) :
    exec i op (ReservationJournal.loadRecords host).run held w = (.ok reservations, held, w) := by
  rw [ReservationJournal.loadRecords, exec_run_bind, exec_adapt, exec_read, hfile]
  simp only [Except.mapError, thenRun_ok, exec_lift, hdecode]

theorem exec_reload (hheld : .accounts ∉ held) (hfile : w.files .accounts = some bytes)
    (hdecode : decodeAccounts host bytes = .ok accounts) :
    exec i op (AccountJournal.reload host).run held w = (.ok accounts, held, w) := by
  rw [AccountJournal.reload, AccountJournal.locked, exec_guarded hheld rfl,
    exec_load hfile hdecode, Finset.erase_insert hheld]

theorem exec_mutate_error {operation : AccountState → Except AccountError AccountState}
    {e : AccountError} (hheld : .accounts ∉ held) (hfile : w.files .accounts = some bytes)
    (hdecode : decodeAccounts host bytes = .ok accounts) (hoperation : operation accounts = .error e) :
    exec i op (AccountJournal.mutate host operation).run held w = (.error e, held, w) := by
  rw [AccountJournal.mutate, AccountJournal.locked, exec_guarded hheld rfl, exec_run_bind,
    exec_load hfile hdecode]
  simp only [thenRun_ok, exec_run_bind, exec_lift, hoperation, thenRun_error,
    Finset.erase_insert hheld]

theorem exec_mutate_ok {operation : AccountState → Except AccountError AccountState}
    {accounts' : AccountState} {new : Bytes} (hheld : .accounts ∉ held)
    (hfile : w.files .accounts = some bytes) (hdecode : decodeAccounts host bytes = .ok accounts)
    (hoperation : operation accounts = .ok accounts')
    (hnew : encodeAccounts host accounts' = .ok new) :
    exec i op (AccountJournal.mutate host operation).run held w =
      (.ok (), held, w.write i op .accounts new) := by
  rw [AccountJournal.mutate, AccountJournal.locked, exec_guarded hheld rfl, exec_run_bind,
    exec_load hfile hdecode]
  simp only [thenRun_ok, exec_run_bind, exec_lift, hoperation, AccountJournal.persist, hnew,
    exec_adapt, exec_persist, Except.mapError, Finset.erase_insert hheld]

/-- The books of a settlement that was applied: what the journals hold, and that they hold it in
the form in which it is written. -/
structure Finalized (w : BooksWorld host) (epochId : Bytes32) (result : BatchResult)
    (accounts : AccountState) (accountBytes : Bytes) : Prop where
  file : w.files .accounts = some accountBytes
  encoded : encodeAccounts host accounts = .ok accountBytes
  decoded : decodeAccounts host accountBytes = .ok accounts
  epochId_ne : epochId ≠ zero32
  digest : accounts.appliedEpochs[epochId]? = some (settlementDigest host result)
  known : ∀ p ∈ result.balances, p ∈ accounts.records

variable {epochId : Bytes32} {result : BatchResult}

theorem Finalized.applyIn_eq (h : Finalized w epochId result accounts bytes) :
    applyIn host epochId result accounts =
      if settlementMatches accounts.records epochId result then .ok accounts
      else .error .staleSettlement := by
  split_ifs with hmatches
  · exact applyIn_ok.mpr ⟨h.known, Or.inl ⟨⟨h.digest, hmatches⟩, rfl⟩⟩
  · have hknown : ¬(result.balances.keys.any fun p => decide (p ∉ accounts.records)) = true := by
      simpa using h.known
    rw [applyIn, rejectIf_bind_of_not hknown, h.digest]
    simp [applyAgain, rejectIf, hmatches]
    rfl

theorem Finalized.exec_confirmUsed (h : Finalized w epochId result accounts bytes)
    (hheld : .accounts ∉ held) (hadUsed : Bool) :
    exec i op (confirmUsed host epochId result hadUsed).run held w =
      (if hadUsed && !settlementMatches accounts.records epochId result then
        .error .staleSettlement else .ok (), held, w) := by
  cases hadUsed with
  | false => rfl
  | true =>
    simp only [confirmUsed, if_true, exec_run_bind, AccountJournal.settlementMatches,
      exec_reload hheld h.file h.decoded, thenRun_ok, exec_lift, h.digest, decide_true,
      Bool.true_and]
    cases settlementMatches accounts.records epochId result <;> rfl

theorem Finalized.exec_settle (h : Finalized w epochId result accounts bytes)
    (hheld : .accounts ∉ held) (hadUsed : Bool) :
    exec i op (do
        confirmUsed host epochId result hadUsed
        AccountJournal.applySettlement host epochId result : AccountCall Unit).run held w =
      if settlementMatches accounts.records epochId result then
        (.ok (), held, w.write i op .accounts bytes)
      else (.error .staleSettlement, held, w) := by
  have hzero : rejectIf (epochId = zero32) AccountError.staleSettlement = .ok () :=
    rejectIf_eq_ok.mpr h.epochId_ne
  rw [exec_run_bind, h.exec_confirmUsed hheld]
  cases hmatches : settlementMatches accounts.records epochId result with
  | true =>
    have happly := h.applyIn_eq
    rw [if_pos hmatches] at happly
    simp only [Bool.not_true, Bool.and_false, if_true, Bool.false_eq_true, if_false, thenRun_ok,
      AccountJournal.applySettlement, exec_run_bind, exec_lift, hzero,
      exec_mutate_ok hheld h.file h.decoded happly h.encoded]
  | false =>
    have happly := h.applyIn_eq
    rw [hmatches, if_neg (by simp)] at happly
    cases hadUsed with
    | true => rfl
    | false =>
      simp only [Bool.false_and, Bool.false_eq_true, if_false, thenRun_ok,
        AccountJournal.applySettlement, exec_run_bind, exec_lift, hzero,
        exec_mutate_error hheld h.file h.decoded happly]

theorem exec_finish {ε : Type} {next : ReservationState} {nonces : List Bytes32}
    (hnext : next ≠ .reserved) (hknown : ∀ n ∈ nonces, n ∈ reservations)
    (hfile : w.files .reservations = some bytes)
    (hencoded : encodeReservations host reservations = .ok bytes) :
    ∃ w' new, exec i op (@ReservationJournal.finish host ε next nonces reservations (.ok ())).run
        held w = (.ok (.ok ()), held, w') ∧
      w'.files .accounts = w.files .accounts ∧ w'.files .reservations = some new ∧
      encodeReservations host (reservations.advance next nonces) = .ok new := by
  simp only [ReservationJournal.finish, transitionAll_eq hnext false hknown, exec_run_bind,
    exec_lift, thenRun_ok, Bool.false_or]
  cases hchanged : nonces.any fun n => reservations[n]?.any fun r => decide (r.state = .reserved) with
  | false =>
    refine ⟨w, bytes, rfl, rfl, hfile, ?_⟩
    rwa [advance_eq_self hchanged]
  | true =>
    obtain ⟨new, hnew⟩ := encodes_advance next nonces hencoded
    refine ⟨w.write i op .reservations new, new, ?_, rfl, rfl, hnew⟩
    simp only [ReservationJournal.persistIf, if_true, ReservationJournal.persistRecords,
      exec_run_bind, exec_lift, hnew, thenRun_ok, exec_adapt, exec_persist, Except.mapError]

/-- The reservations of a batch, and that they are held in the form in which they are written. -/
structure Batched (w : BooksWorld host) (epochId : Bytes32) (nonces : List Bytes32)
    (members : Finset Bytes32) (reservations : Reservations) (reservationBytes : Bytes) : Prop where
  file : w.files .reservations = some reservationBytes
  encoded : encodeReservations host reservations = .ok reservationBytes
  decoded : decodeReservations host reservationBytes = .ok reservations
  covered : Covered epochId reservations nonces members

variable {nonces : List Bytes32} {reservationBytes : Bytes}

theorem exec_finalizeEpoch {ε : Type} {members : Finset Bytes32}
    {apply : Bool → BooksCall (Except ε Unit)} {applied : Except ε Unit} {w' : BooksWorld host}
    (hb : Batched w epochId nonces members reservations reservationBytes)
    (happly : ∀ hadUsed, exec i op (apply hadUsed) {.reservations} w =
      (applied, {.reservations}, w')) :
    exec i op (ReservationJournal.finalizeEpoch host epochId nonces members apply).run ∅ w =
      let finished := exec i op (ReservationJournal.finish host .used nonces reservations applied).run
        {.reservations} w'
      (finished.1, finished.2.1.erase .reservations, finished.2.2) := by
  obtain ⟨records, hselected, hlength, hmembers⟩ := hb.covered
  have hselect : selectRecords epochId .released reservations ∅ nonces = .ok records :=
    selectRecords_ok.mpr ⟨by simp, hselected⟩
  have hcheck : rejectIf (nonces.length ≠ members.card ∨
      (records.map ReservationRecord.participantId).toFinset ≠ members)
      JournalError.invalidTransition = .ok () :=
    rejectIf_eq_ok.mpr (by simp [hlength, hmembers])
  rw [ReservationJournal.finalizeEpoch, ReservationJournal.locked,
    exec_guarded (Finset.notMem_empty _) rfl, exec_run_bind,
    exec_loadRecords hb.file hb.decoded]
  simp only [thenRun_ok, exec_run_bind, exec_lift, hselect, hcheck, exec_inner,
    insert_empty_eq, happly]

theorem exec_finalizeSettlement (h : Finalized w epochId result accounts bytes)
    (hb : Batched w epochId nonces result.members reservations reservationBytes) :
    if settlementMatches accounts.records epochId result then
      ∃ w' new, exec i op (finalizeSettlement host epochId result nonces).run ∅ w = (.ok (), ∅, w') ∧
        w'.files .accounts = some bytes ∧ w'.files .reservations = some new ∧
        encodeReservations host (reservations.advance .used nonces) = .ok new
    else exec i op (finalizeSettlement host epochId result nonces).run ∅ w =
      (.error .staleSettlement, ∅, w) := by
  have hheld : BooksFile.accounts ∉ ({.reservations} : Finset BooksFile) := by decide
  have hfree : ({.reservations} : Finset BooksFile).erase .reservations = ∅ := by decide
  have hsettle := @Finalized.exec_settle host i op _ w accounts bytes epochId result h hheld
  rw [finalizeSettlement, exec_run_bind, exec_adapt]
  split_ifs with hmatches
  · simp only [hmatches, if_true] at hsettle
    rw [exec_finalizeEpoch hb hsettle]
    obtain ⟨records, hselected, -⟩ := hb.covered
    obtain ⟨w', new, hfinish, haccounts, hreservations, hnew⟩ :=
      @exec_finish host i op {.reservations} (w.write i op .accounts bytes) reservations
        reservationBytes AccountError .used nonces (by simp) hselected.known hb.file hb.encoded
    refine ⟨w', new, ?_, haccounts, hreservations, hnew⟩
    simp only [hfinish, hfree, Except.mapError, thenRun_ok, exec_lift]
  · simp only [hmatches] at hsettle
    rw [exec_finalizeEpoch hb hsettle]
    simp only [ReservationJournal.finish, exec_lift, hfree, Except.mapError, thenRun_ok]

end Exec

/-! ### The call once more -/

/-- The records of a committed batch still show it exactly when no later commit shares a member. -/
theorem settlementMatches_iff_disjoint {host : Host} {b : OperatorBooks} (hb : Balanced host b)
    {newer older : List Commit} {c : Commit} (hc : b.commits = newer ++ c :: older) :
    settlementMatches b.accounts.records c.epochId c.result = true ↔
      ∀ c' ∈ newer, ∀ p ∈ c'.result.balances, p ∉ c.result.balances := by
  have hmem : c ∈ b.commits := hc ▸ by simp
  have hrecord : ∀ p ∈ c.result.balances, ∃ registered record,
      b.accounts.records[p]? = some record ∧ Accrues b.commits p registered record := by
    intro p hp
    obtain ⟨⟨q, registered⟩, hregistered, hq⟩ :=
      List.mem_map.mp ((hb.known p).mp (hb.members c hmem p hp))
    obtain rfl : q = p := hq
    exact ⟨registered, hb.accrues q registered hregistered⟩
  rw [settlementMatches_iff]
  constructor
  · intro hmatches c' hc' p hp' hp
    obtain ⟨balance, hbalance⟩ :=
      Option.isSome_iff_exists.mp (Std.ExtTreeMap.mem_iff_isSome_getElem?.mp hp)
    obtain ⟨record, hr, hepoch, -⟩ := hmatches p balance hbalance
    obtain ⟨registered, record', hr', haccrues⟩ := hrecord p hp
    cases hr.symm.trans hr'
    -- the latest settlement of `p` is one of the newer ones
    have hin : c' ∈ settlementsOf p newer := List.mem_filter.mpr ⟨hc', by simpa using hp'⟩
    obtain ⟨latest, rest, hlatest⟩ := List.exists_cons_of_ne_nil (List.ne_nil_of_mem hin)
    have hnewer : latest ∈ newer :=
      List.mem_of_mem_filter (hlatest ▸ List.mem_cons_self : latest ∈ settlementsOf p newer)
    have hlast : record.lastEpoch = latest.epochId := by
      rw [haccrues.lastEpoch, latestEpoch, hc, settlementsOf_append, hlatest]
      rfl
    have hdistinct := hb.distinct
    rw [hc, List.map_append, List.nodup_append] at hdistinct
    exact hdistinct.2.2 _ (List.mem_map_of_mem hnewer) c.epochId (by simp) (hlast.symm.trans hepoch)
  · intro hdisjoint p balance hbalance
    have hp : p ∈ c.result.balances := by
      rw [Std.ExtTreeMap.mem_iff_isSome_getElem?, hbalance]
      rfl
    obtain ⟨registered, record, hr, haccrues⟩ := hrecord p hp
    have hnone : settlementsOf p newer = [] := by
      rw [settlementsOf, List.filter_eq_nil_iff]
      intro c' hc' hp'
      exact hdisjoint c' hc' p (by simpa using hp') hp
    have hhead : (settlementsOf p b.commits).head? = some c := by
      rw [hc, settlementsOf_append, hnone]
      simp [settlementsOf, hp]
    refine ⟨record, hr, ?_, ?_⟩
    · rw [haccrues.lastEpoch, latestEpoch, hhead]
      rfl
    · exact Option.some.inj ((haccrues.latest c hhead).symm.trans hbalance)

/-- The call that committed `c`, made once more, succeeds, changes no account and leaves every
reservation of `c` used. -/
structure Repaired {host : Host} (s : BooksState host) (c : Commit) : Prop where
  told : s.told (.finalizeSettlement c.epochId c.batch c.nonces) = (.ok () : Except AccountError Unit)
  accounts : accountsIn (s.solo (.finalizeSettlement c.epochId c.batch c.nonces)) = accountsIn s
  used : ∀ n ∈ c.nonces, InState (s.solo (.finalizeSettlement c.epochId c.batch c.nonces)) .used n

section Again

variable {host : Host} (hhash : ∀ m, host.sha256 m ≠ zero32) {s : BooksState host} {c : Commit}

include hhash

theorem finalized_of_commit (hs : Reaches (BooksState.initial host) s)
    (hc : c ∈ commits s.world.log) :
    ∃ bytes, Finalized s.world c.epochId c.result (accountsIn s) bytes := by
  have hvalid := books_valid hhash hs
  have hlegible := hvalid.legible hhash
  have hbalanced := balanced_of_lawful hhash hvalid.lawful
  have hdigest := (hbalanced.applied c.epochId _).mpr ⟨c, hc, rfl, rfl⟩
  cases hfile : s.world.files .accounts with
  | none =>
    -- without the file no epoch is applied
    have hempty : accountsAfter s.world.log = .empty := by
      rw [← accountsIn_eq hhash hs, accountsIn, hfile]
      rfl
    have hnone : (AccountState.empty.appliedEpochs)[c.epochId]? =
        some (settlementDigest host c.result) := hempty ▸ hdigest
    simp [AccountState.empty] at hnone
  | some bytes =>
    have hencoded := hlegible.accountBytes bytes (hvalid.files ▸ hfile)
    rw [accountsIn_eq hhash hs]
    exact ⟨bytes, hfile, hencoded, decodeAccounts_encode hlegible.accounts hencoded,
      (hlegible.accounts.appliedEpochs _ _ hdigest).1, hdigest, hbalanced.members c hc⟩

theorem batched_of_commit (hs : Reaches (BooksState.initial host) s)
    (hc : c ∈ commits s.world.log) :
    ∃ bytes, Batched s.world c.epochId c.nonces c.result.members (reservationsIn s) bytes := by
  have hvalid := books_valid hhash hs
  have hlegible := hvalid.legible hhash
  have hcovered := (commit_secured hhash hs hc).2
  cases hfile : s.world.files .reservations with
  | none =>
    -- without the file no member has a reservation
    have hempty : reservationsAfter s.world.log = ∅ := by
      rw [← reservationsIn_eq hhash hs, reservationsIn, hfile]
      rfl
    obtain ⟨records, hselected, hlength, -⟩ := hcovered
    obtain ⟨p, hp⟩ := c.batch.exists_member
    have hmember : p ∈ c.result.members :=
      List.mem_toFinset.mpr (Std.ExtTreeMap.mem_keys.mpr hp)
    obtain ⟨n, hn⟩ := List.exists_mem_of_length_pos (l := c.nonces)
      (hlength ▸ Finset.card_pos.mpr ⟨p, hmember⟩)
    exact absurd (hempty ▸ hselected.known n hn) Std.ExtTreeMap.not_mem_empty
  | some bytes =>
    have hencoded := hlegible.reservationBytes bytes (hvalid.files ▸ hfile)
    rw [reservationsIn_eq hhash hs]
    exact ⟨bytes, hfile, hencoded, decodeReservations_encode hlegible.reservations hencoded,
      hcovered⟩

/-- In every state that is reached and in which nobody holds a lock: the retry of a commit is a run
of the system, and it succeeds exactly when no later commit shares a member with it. -/
theorem retry_repairs_iff (hs : Reaches (BooksState.initial host) s) (hfree : s.Free)
    {newer older : List Commit} (hc : commits s.world.log = newer ++ c :: older) :
    Reaches s (s.solo (.finalizeSettlement c.epochId c.batch c.nonces)) ∧
      (Repaired s c ↔ ∀ c' ∈ newer, ∀ p ∈ c'.result.balances, p ∉ c.result.balances) := by
  refine ⟨(hfree.reaches_solo _).1, ?_⟩
  have hmem : c ∈ commits s.world.log := hc ▸ by simp
  have hvalid := books_valid hhash hs
  obtain ⟨bytes, hfinal⟩ := finalized_of_commit hhash hs hmem
  obtain ⟨reservationBytes, hbatched⟩ := batched_of_commit hhash hs hmem
  have hmatches := settlementMatches_iff_disjoint (balanced_of_lawful hhash hvalid.lawful) hc
  have hexec := @exec_finalizeSettlement host s.next
    (.finalizeSettlement c.epochId c.batch c.nonces)
    (s.world.note (.started s.next (.finalizeSettlement c.epochId c.batch c.nonces))) _ _ _ _ _ _ _
    ⟨hfinal.file, hfinal.encoded, hfinal.decoded, hfinal.epochId_ne, hfinal.digest, hfinal.known⟩
    ⟨hbatched.file, hbatched.encoded, hbatched.decoded, hbatched.covered⟩
  rw [accountsIn_eq hhash hs] at hexec
  rw [← hmatches]
  split_ifs at hexec with hshown
  · refine iff_of_true ?_ hshown
    obtain ⟨w', new, hrun, haccounts, hreservations, hnew⟩ := hexec
    have hworld := State.solo_world hrun
    refine ⟨congrArg Prod.fst hrun, ?_, fun n hn => ?_⟩
    · rw [accountsIn, accountsIn, hworld, hfinal.file]
      exact congrArg (storedAccounts host) haccounts
    · have hkeyed := (hvalid.legible hhash).reservations
      rw [← reservationsIn_eq hhash hs] at hkeyed
      have hstored : reservationsIn (s.solo (.finalizeSettlement c.epochId c.batch c.nonces)) =
          (reservationsIn s).advance .used c.nonces := by
        rw [reservationsIn, hworld]
        exact (congrArg (storedReservations host) hreservations).trans
          (storedReservations_encode (hkeyed.advance _ _) hnew)
      obtain ⟨records, hselected, -⟩ := hbatched.covered
      obtain ⟨r, hr, -, hnot⟩ := hselected.mem hn
      exact ⟨_, by rw [hstored, advance_used hn hr hnot], rfl⟩
  · refine iff_of_false (fun hrepaired => ?_) hshown
    cases (congrArg Prod.fst hexec).symm.trans hrepaired.told

end Again

/-- Right after the stop the retry repairs the sample settlement. -/
theorem retry_repairs_iff_halfway : Repaired Sample.halfway Sample.firstCommit :=
  (@retry_repairs_iff _ Sample.sha256_ne _ _ Sample.halfway_reaches.1 Sample.halfway_reaches.2 [] []
    Sample.halfway_commits).2.mpr (by simp)

/-- Once alice has settled again it does not: the retry is told that the settlement is stale, and the
reservation stays reserved. -/
theorem retry_fails_when_overtaken :
    Reaches (BooksState.initial Sample.host) Sample.overtaken ∧ Sample.overtaken.Free ∧
    Sample.firstCommit ∈ commits Sample.overtaken.world.log ∧
    Sample.overtaken.told (Sample.finalize Sample.firstCommit) =
      (.error .staleSettlement : Except AccountError Unit) ∧
    ∀ n ∈ Sample.firstCommit.nonces,
      ¬InState (Sample.overtaken.solo (Sample.finalize Sample.firstCommit)) .used n := by
  have htold : errorOf (Sample.overtaken.told (Sample.finalize Sample.firstCommit) :
      Except AccountError Unit) = some .staleSettlement := by decide +kernel
  have hstates : (Sample.firstCommit.nonces.all fun n => decide (((reservationsIn
      (Sample.overtaken.solo (Sample.finalize Sample.firstCommit)))[n]?.map
        ReservationRecord.state) = some .reserved)) = true := by decide +kernel
  refine ⟨Sample.overtaken_reaches.1, Sample.overtaken_reaches.2, ?_, eq_error_of_errorOf htold, ?_⟩
  · rw [Sample.overtaken_commits]
    simp
  · rintro n hn ⟨r, hr, hused⟩
    have hstate := of_decide_eq_true (List.all_eq_true.mp hstates n hn)
    rw [hr, Option.map_some, hused] at hstate
    cases hstate

end Kageb
