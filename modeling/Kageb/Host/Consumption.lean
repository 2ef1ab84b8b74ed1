import Kageb.Host.Retry

/-! What a settled epoch consumes: one reservation of each member, as long as no call settles the
epoch once more with other reservations of the same members. -/

namespace Kageb

open Binary Checks Files Maps

/-- The reservation is used, for this epoch and by this participant. -/
def Reservations.UsedFor (records : Reservations) (epochId participantId nonce : Bytes32) : Prop :=
  ∃ r, records[nonce]? = some r ∧ r.state = .used ∧ r.epochId = epochId ∧
    r.participantId = participantId

/-- Every participant has used at most one reservation for an epoch. -/
def Reservations.UsedOnce (records : Reservations) : Prop :=
  ∀ e p n n', records.UsedFor e p n → records.UsedFor e p n' → n = n'

/-- Whoever settles an epoch names all reservations that its members have used for it already. -/
def NamesUsed {host : Host} (log : BooksLog host) : Prop :=
  ∀ i e batch nonces old new,
    .wrote i (.finalizeSettlement e batch nonces) .reservations old new ∈ log →
    ∀ p ∈ batch.result.members, ∀ n, (storedReservations host old).UsedFor e p n → n ∈ nonces

section

variable {host : Host}

theorem Selected.participants {e : Bytes32} {barred : ReservationState} {records : Reservations}
    {nonces : List Bytes32} {selected : List ReservationRecord}
    (h : Selected e barred records nonces selected) :
    nonces.map (fun n => records[n]?.map ReservationRecord.participantId) =
      (selected.map ReservationRecord.participantId).map some := by
  have hpairs := h.records
  clear h
  induction hpairs with
  | nil => rfl
  | cons hr _ ih => rw [List.map_cons, List.map_cons, List.map_cons, ih, hr.1, Option.map_some]

theorem Covered.of_mem {e : Bytes32} {records : Reservations} {nonces : List Bytes32}
    {members : Finset Bytes32} (h : Covered e records nonces members) {n : Bytes32}
    {r : ReservationRecord} (hn : n ∈ nonces) (hr : records[n]? = some r) :
    r.epochId = e ∧ r.participantId ∈ members := by
  obtain ⟨selected, hselected, -, hmembers⟩ := h
  obtain ⟨r', hr', hepoch, -⟩ := hselected.mem hn
  cases hr.symm.trans hr'
  refine ⟨hepoch, ?_⟩
  have hmem : some r.participantId ∈ (selected.map ReservationRecord.participantId).map some := by
    rw [← hselected.participants]
    exact List.mem_map.mpr ⟨n, hn, by rw [hr, Option.map_some]⟩
  rw [← hmembers, List.mem_toFinset]
  exact (List.mem_map_of_injective (Option.some_injective _)).mp hmem

/-- Every member has a reservation of its own among them. -/
theorem Covered.exists_mem {e : Bytes32} {records : Reservations} {nonces : List Bytes32}
    {members : Finset Bytes32} (h : Covered e records nonces members) {p : Bytes32}
    (hp : p ∈ members) : ∃ n ∈ nonces, ∃ r, records[n]? = some r ∧ r.epochId = e ∧
      r.state ≠ .released ∧ r.participantId = p := by
  obtain ⟨selected, hselected, -, hmembers⟩ := h
  have hsome : some p ∈ nonces.map fun n => records[n]?.map ReservationRecord.participantId := by
    rw [hselected.participants]
    rw [← hmembers, List.mem_toFinset] at hp
    exact List.mem_map_of_mem hp
  obtain ⟨n, hn, hrecord⟩ := List.mem_map.mp hsome
  obtain ⟨r, hr, hparticipant⟩ := Option.map_eq_some_iff.mp hrecord
  obtain ⟨r', hr', hepoch, hstate⟩ := hselected.mem hn
  cases hr.symm.trans hr'
  exact ⟨n, hn, r, hr, hepoch, hstate, hparticipant⟩

/-- Settling uses one reservation of each member. -/
theorem Covered.used {e : Bytes32} {records : Reservations} {nonces : List Bytes32}
    {members : Finset Bytes32} (h : Covered e records nonces members) {p : Bytes32}
    (hp : p ∈ members) : ∃ n ∈ nonces, (records.advance .used nonces).UsedFor e p n := by
  obtain ⟨n, hn, r, hr, hepoch, hstate, hparticipant⟩ := h.exists_mem hp
  exact ⟨n, hn, _, advance_used hn hr hstate, rfl, hepoch, hparticipant⟩

/-- There are as many nonces as members, so no two of them belong to one member. -/
theorem Covered.unique {e : Bytes32} {records : Reservations} {nonces : List Bytes32}
    {members : Finset Bytes32} (h : Covered e records nonces members) {n n' : Bytes32}
    {r r' : ReservationRecord} (hn : n ∈ nonces) (hn' : n' ∈ nonces) (hr : records[n]? = some r)
    (hr' : records[n']? = some r') (heq : r.participantId = r'.participantId) : n = n' := by
  obtain ⟨selected, hselected, hlength, hmembers⟩ := h
  have hcard : (selected.map ReservationRecord.participantId).toFinset.card =
      (selected.map ReservationRecord.participantId).length := by
    rw [hmembers, ← hlength, List.length_map, hselected.records.length_eq]
  have hnodup : (selected.map ReservationRecord.participantId).Nodup :=
    Multiset.toFinset_card_eq_card_iff_nodup.mp hcard
  have hmap : (nonces.map fun n => records[n]?.map ReservationRecord.participantId).Nodup := by
    rw [hselected.participants]
    exact hnodup.map (Option.some_injective _)
  refine List.inj_on_of_nodup_map hmap hn hn' ?_
  rw [hr, hr', Option.map_some, Option.map_some, heq]

/-- A reservation that is used after a batch has moved on was used before or belongs to it. -/
theorem Reservations.UsedFor.of_advance {records : Reservations} {nonces : List Bytes32}
    {e p n : Bytes32} (h : (records.advance .used nonces).UsedFor e p n) :
    records.UsedFor e p n ∨ n ∈ nonces ∧ ∃ r, records[n]? = some r ∧ r.epochId = e ∧
      r.participantId = p := by
  obtain ⟨r, hr, hused, hepoch, hparticipant⟩ := h
  rw [getElem?_advance, Option.map_eq_some_iff] at hr
  obtain ⟨r, hr, rfl⟩ := hr
  split_ifs at hused hepoch hparticipant with hmoves
  · exact .inr ⟨hmoves.1, r, hr, hepoch, hparticipant⟩
  · exact .inl ⟨r, hr, hused, hepoch, hparticipant⟩

theorem Reservations.UsedFor.of_advance_released {records : Reservations} {nonces : List Bytes32}
    {e p n : Bytes32} (h : (records.advance .released nonces).UsedFor e p n) :
    records.UsedFor e p n := by
  obtain ⟨r, hr, hused, hepoch, hparticipant⟩ := h
  rw [getElem?_advance, Option.map_eq_some_iff] at hr
  obtain ⟨r, hr, rfl⟩ := hr
  split_ifs at hused hepoch hparticipant with hmoves
  exact ⟨r, hr, hused, hepoch, hparticipant⟩

/-- One write keeps it so, if a settlement names what its members have used before. -/
theorem ReservationWrite.usedOnce {accounts : AccountState} {records records' : Reservations}
    {op : BooksOp host} (h : ReservationWrite accounts records op records') (honce : records.UsedOnce)
    (hnames : ∀ e batch nonces, op = .finalizeSettlement e batch nonces →
      ∀ p ∈ batch.result.members, ∀ n, records.UsedFor e p n → n ∈ nonces) : records'.UsedOnce := by
  cases h with
  | «open» => exact honce
  | @reserve record fresh available _ hreserve =>
    obtain ⟨-, rfl⟩ := reserveIn_ok hreserve
    -- what is new is reserved
    have hold : ∀ {e p n}, Reservations.UsedFor (records.insert record.nonce record) e p n →
        records.UsedFor e p n := by
      rintro e p n ⟨r, hr, hused, hrest⟩
      rw [Map.getElem?_insert] at hr
      split_ifs at hr
      · cases hr
        cases fresh.symm.trans hused
      · exact ⟨r, hr, hused, hrest⟩
    exact fun e p n n' hn hn' => honce e p n n' (hold hn) (hold hn')
  | @use epochId batch nonces hdigest hcovered =>
    have hwithin : ∀ {e p n}, n ∈ nonces → (∃ r, records[n]? = some r ∧ r.epochId = e ∧
        r.participantId = p) → e = epochId ∧ p ∈ batch.result.members := by
      rintro e p n hn ⟨r, hr, rfl, rfl⟩
      exact hcovered.of_mem hn hr
    intro e p n n' hn hn'
    rcases hn.of_advance, hn'.of_advance with ⟨hold | ⟨hnew, hrecord⟩, hold' | ⟨hnew', hrecord'⟩⟩
    · exact honce e p n n' hold hold'
    · obtain ⟨rfl, hp⟩ := hwithin hnew' hrecord'
      have hnamed := hnames _ _ _ rfl p hp n hold
      obtain ⟨r, hr, -, -, hparticipant⟩ := hold
      obtain ⟨r', hr', -, hparticipant'⟩ := hrecord'
      exact hcovered.unique hnamed hnew' hr hr' (hparticipant.trans hparticipant'.symm)
    · obtain ⟨rfl, hp⟩ := hwithin hnew hrecord
      have hnamed := hnames _ _ _ rfl p hp n' hold'
      obtain ⟨r', hr', -, -, hparticipant'⟩ := hold'
      obtain ⟨r, hr, -, hparticipant⟩ := hrecord
      exact hcovered.unique hnew hnamed hr hr' (hparticipant.trans hparticipant'.symm)
    · obtain ⟨r, hr, -, hparticipant⟩ := hrecord
      obtain ⟨r', hr', -, hparticipant'⟩ := hrecord'
      exact hcovered.unique hnew hnew' hr hr' (hparticipant.trans hparticipant'.symm)
  | release =>
    exact fun e p n n' hn hn' => honce e p n n' hn.of_advance_released hn'.of_advance_released

/-! ### Whole runs -/

/-- A used reservation stays as it is. -/
theorem Change.usedFor {b b' : OperatorBooks} (h : Change host b b') {e p n : Bytes32}
    (hused : b.reservations.UsedFor e p n) : b'.reservations.UsedFor e p n := by
  obtain ⟨r, hr, hstate, hepoch, hparticipant⟩ := hused
  obtain ⟨r', hr', hevolves⟩ := h.evolves hr
  refine ⟨r', hr', ?_, hevolves.epochId.trans hepoch, hevolves.participantId.trans hparticipant⟩
  rcases hevolves.state with hkept | ⟨hreserved, -⟩
  · exact hkept.trans hstate
  · cases hstate.symm.trans hreserved

theorem changes_usedFor {b b' : OperatorBooks} (h : Relation.ReflTransGen (Change host) b b')
    {e p n : Bytes32} (hused : b.reservations.UsedFor e p n) : b'.reservations.UsedFor e p n := by
  induction h with
  | refl => exact hused
  | tail _ hchange ih => exact hchange.usedFor ih

variable (hhash : ∀ m, host.sha256 m ≠ zero32)

include hhash

theorem usedOnce_of_lawful {log : BooksLog host} (h : Lawful BooksLaw log)
    (hnamed : NamesUsed log) : (reservationsAfter log).UsedOnce := by
  induction log with
  | nil =>
    rintro e p n n' ⟨r, hr, -⟩ -
    have hnone : (∅ : Reservations)[n]? = some r := hr
    simp at hnone
  | cons event log ih =>
    have honce := ih h.2 fun i e batch nonces old new hmem =>
      hnamed i e batch nonces old new (List.mem_cons_of_mem _ hmem)
    cases event with
    | started i op => exact honce
    | returned i op result => exact honce
    | removed file => exact h.1.elim
    | wrote i op file old new =>
      cases file with
      | accounts => exact honce
      | reservations =>
        obtain ⟨rfl, records, hnew, hwrite⟩ := h.1
        rw [reservationsAfter_wrote (hwrite.keyed (legible_of_lawful hhash h.2).reservations) hnew]
        refine hwrite.usedOnce honce fun e batch nonces heq => ?_
        subst heq
        exact hnamed i e batch nonces _ new List.mem_cons_self

/-- A settlement that was written has used one of its reservations for each member, and all that
was used before is used after it. -/
theorem used_of_wrote {log : BooksLog host} (h : Lawful BooksLaw log) {i : Nat} {e : Bytes32}
    {batch : NettedBatch} {nonces : List Bytes32} {old : Option Bytes} {new : Bytes}
    (hmem : .wrote i (.finalizeSettlement e batch nonces) .reservations old new ∈ log) {p : Bytes32}
    (hp : p ∈ batch.result.members) :
    (∃ n ∈ nonces, (reservationsAfter log).UsedFor e p n) ∧
      ∀ n, (storedReservations host old).UsedFor e p n → (reservationsAfter log).UsedFor e p n := by
  obtain ⟨older, hsuffix⟩ := exists_suffix_of_mem hmem
  have hlater := changes_of_suffix hhash h hsuffix
  obtain ⟨hevent, holder⟩ := h.suffix hsuffix
  have hbefore := (Relation.ReflTransGen.single (change_of_lawful hhash ⟨hevent, holder⟩)).trans hlater
  obtain ⟨rfl, records, hnew, hwrite⟩ := hevent
  have hafter := @reservationsAfter_wrote host older i (.finalizeSettlement e batch nonces)
    (journalAfter older .reservations) new records
    (hwrite.keyed (legible_of_lawful hhash holder).reservations) hnew
  refine ⟨?_, fun n hused => changes_usedFor hbefore hused⟩
  cases hwrite with
  | use hdigest hcovered =>
    obtain ⟨n, hn, hused⟩ := hcovered.used hp
    rw [← hafter] at hused
    exact ⟨n, hn, changes_usedFor hlater hused⟩

theorem namesUsed_of_usedOnce {log : BooksLog host} (h : Lawful BooksLaw log)
    (honce : (reservationsAfter log).UsedOnce) : NamesUsed log := by
  intro i e batch nonces old new hmem p hp n hused
  obtain ⟨⟨n', hn', hused'⟩, hkept⟩ := used_of_wrote hhash h hmem hp
  rw [honce e p n n' (hkept n hused) hused']
  exact hn'

theorem usedFor_later {s t : BooksState host} (hs : Reaches (BooksState.initial host) s)
    (ht : Reaches s t) {e p n : Bytes32} (h : (reservationsIn s).UsedFor e p n) :
    (reservationsIn t).UsedFor e p n := by
  rw [reservationsIn_eq hhash hs] at h
  rw [reservationsIn_eq hhash (hs.trans ht)]
  exact changes_usedFor (changes_between hhash hs ht (List.suffix_refl _) ht.log) h

/-- In every interleaving, wherever calls stop: a settlement uses a reservation of each member, and
a member never uses two for one epoch just if no settlement leaves out what its members have used
before. -/
theorem consumed_once_iff {s : BooksState host} (hs : Reaches (BooksState.initial host) s) :
    (∀ i e batch nonces old new,
      .wrote i (.finalizeSettlement e batch nonces) .reservations old new ∈ s.world.log →
      ∀ p ∈ batch.result.members, ∃ n ∈ nonces, (reservationsIn s).UsedFor e p n) ∧
    ((∀ t t', Reaches (BooksState.initial host) t → Reaches t s →
      Reaches (BooksState.initial host) t' → Reaches t' s → ∀ e p n n',
      (reservationsIn t).UsedFor e p n → (reservationsIn t').UsedFor e p n' → n = n') ↔
    NamesUsed s.world.log) := by
  have hlawful := (books_valid hhash hs).lawful
  refine ⟨fun i e batch nonces old new hmem p hp => ?_, fun honce => ?_, fun hnamed => ?_⟩
  · rw [reservationsIn_eq hhash hs]
    exact (used_of_wrote hhash hlawful hmem hp).1
  · refine namesUsed_of_usedOnce hhash hlawful ?_
    rw [← reservationsIn_eq hhash hs]
    exact honce s s hs .refl hs .refl
  · intro t t' ht hts ht' hts' e p n n' hn hn'
    have honce := usedOnce_of_lawful hhash hlawful hnamed
    rw [← reservationsIn_eq hhash hs] at honce
    exact honce e p n n' (usedFor_later hhash ht hts hn) (usedFor_later hhash ht' hts' hn')

end

namespace Sample

/-- The epoch of the first settlement, for which both have reserved twice. -/
def reservedTwice : List (BooksOp host) :=
  opening ++ [reserveLot (key 95) (key 81) alice key_95_ne key_81_ne alice_ne,
    reserveLot (key 96) (key 81) bob (by decide) key_81_ne bob_ne, finalize firstCommit]

def settledOnce : BooksState host := (BooksState.initial host).soloAll reservedTwice

/-- The same batch with the other reservations. -/
def settleOthers : BooksOp host := .finalizeSettlement (key 81) firstBatch [key 95, key 96]

theorem settledOnce_reaches : Reaches (BooksState.initial host) settledOnce ∧ settledOnce.Free :=
  State.Free.reaches_soloAll (s := BooksState.initial host) (fun _ => rfl) reservedTwice

/-- When a settlement was written, nothing had been used. -/
def firstUse (event : BooksEvent host) : Bool :=
  match event with
  | .wrote _ (.finalizeSettlement _ _ _) .reservations old _ =>
    (storedReservations host old).toList.all fun (_, r) => decide (r.state ≠ .used)
  | _ => true

theorem namesUsed_of_firstUse {log : BooksLog host} (h : log.all firstUse = true) :
    NamesUsed log := by
  rintro i e batch nonces old new hmem p - n ⟨r, hr, hused, -⟩
  have hfirst := List.all_eq_true.mp (List.all_eq_true.mp h _ hmem) (n, r)
    (Std.ExtTreeMap.mem_toList_iff_getElem?_eq_some.mpr hr)
  exact absurd hused (of_decide_eq_true hfirst)

/-- The first settlement, and what the second does, evaluated once. -/
theorem settledOnce_facts :
    settledOnce.world.log.all firstUse = true ∧
    Except.toOption (settledOnce.told settleOthers : Except AccountError Unit) = some () ∧
    ([key 91, key 95].all fun n =>
      ((reservationsIn (settledOnce.solo settleOthers))[n]?.map fun r =>
        decide (r.state = .used ∧ r.epochId = key 81 ∧ r.participantId = alice)) = some true) =
      true := by
  decide +kernel

end Sample

/-- Alice has reserved twice, and the settlement has used one. -/
theorem consumed_once_iff_settled :
    NamesUsed Sample.settledOnce.world.log ∧ ∀ t, Reaches (BooksState.initial Sample.host) t →
      Reaches t Sample.settledOnce → ∀ n n',
        (reservationsIn t).UsedFor (Sample.key 81) Sample.alice n →
        (reservationsIn Sample.settledOnce).UsedFor (Sample.key 81) Sample.alice n' → n = n' := by
  have hreaches := Sample.settledOnce_reaches.1
  have hnamed : NamesUsed Sample.settledOnce.world.log :=
    Sample.namesUsed_of_firstUse Sample.settledOnce_facts.1
  refine ⟨hnamed, fun t ht hts n n' => ?_⟩
  exact (consumed_once_iff Sample.sha256_ne hreaches).2.mpr hnamed t _ ht hts hreaches .refl _ _ n n'

/-- Settled again with the other reservations, the epoch has used both of alice. -/
theorem settled_again_uses_two :
    Reaches (BooksState.initial Sample.host) Sample.settledOnce ∧
    Reaches Sample.settledOnce (Sample.settledOnce.solo Sample.settleOthers) ∧
    Sample.settledOnce.told Sample.settleOthers = (.ok () : Except AccountError Unit) ∧
    Sample.key 91 ≠ Sample.key 95 ∧
    ∀ n ∈ [Sample.key 91, Sample.key 95],
      (reservationsIn (Sample.settledOnce.solo Sample.settleOthers)).UsedFor (Sample.key 81)
        Sample.alice n := by
  obtain ⟨-, htold, hrecords⟩ := Sample.settledOnce_facts
  obtain ⟨hreaches, hfree⟩ := Sample.settledOnce_reaches
  refine ⟨hreaches, (hfree.reaches_solo _).1, ?_, by decide, fun n hn => ?_⟩
  · exact eq_ok_of_toOption htold
  · have hn := of_decide_eq_true (List.all_eq_true.mp hrecords n hn)
    obtain ⟨r, hr, hused⟩ := Option.map_eq_some_iff.mp hn
    exact ⟨r, hr, of_decide_eq_true hused⟩

end Kageb
