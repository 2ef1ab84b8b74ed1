import Kageb.Host.Lock
import Kageb.Lib.Discipline
import Kageb.Lib.Solo
import Kageb.Lib.Tables

/-! The reservation journal: what a participant has set aside for an epoch, under the nonce of its
authorization, and the calls that reserve, use and release. -/

namespace Kageb

open Binary Binary.Codec Checks Files Maps Tables

/-- The two journals of the operator. Each has a lock file beside it, which goes by the same name
here. -/
inductive BooksFile where
  | accounts
  | reservations
  deriving DecidableEq

abbrev BooksCall := Call BooksFile BooksFile UInt8

inductive JournalError where
  | io (kind : ErrorKind)
  | busy
  | corrupt
  | duplicateNonce
  | unknownNonce
  | invalidTransition
  | invalidAmount
  | insufficientBalance
  | arithmeticOverflow
  deriving DecidableEq

inductive ReservationState where
  | reserved
  | used
  | released
  deriving DecidableEq

namespace ReservationState

def toByte : ReservationState → UInt8
  | reserved => 1
  | used => 2
  | released => 3

def tryFrom (value : UInt8) : Except JournalError ReservationState :=
  if value = 1 then .ok reserved
  else if value = 2 then .ok used
  else if value = 3 then .ok released
  else .error .corrupt

theorem tryFrom_toByte (s : ReservationState) : tryFrom s.toByte = .ok s := by
  cases s <;> decide

end ReservationState

@[ext] structure ReservationRecord where
  nonce : Bytes32
  epochId : Bytes32
  participantId : Bytes32
  baseAtoms : UInt64
  quoteAtoms : UInt64
  state : ReservationState
  nonce_ne : nonce ≠ zero32
  epochId_ne : epochId ≠ zero32
  participantId_ne : participantId ≠ zero32
  baseAtoms_ne : baseAtoms ≠ 0
  quoteAtoms_ne : quoteAtoms ≠ 0

instance : DecidableEq ReservationRecord := fun a b =>
  decidable_of_iff
    (a.nonce = b.nonce ∧ a.epochId = b.epochId ∧ a.participantId = b.participantId ∧
      a.baseAtoms = b.baseAtoms ∧ a.quoteAtoms = b.quoteAtoms ∧ a.state = b.state)
    ReservationRecord.ext_iff.symm

namespace ReservationRecord

def new (nonce epochId participantId : Bytes32) (baseAtoms quoteAtoms : UInt64) :
    Except JournalError ReservationRecord :=
  if h : nonce ≠ zero32 ∧ epochId ≠ zero32 ∧ participantId ≠ zero32 ∧ baseAtoms ≠ 0 ∧
      quoteAtoms ≠ 0 then
    .ok ⟨nonce, epochId, participantId, baseAtoms, quoteAtoms, .reserved, h.1, h.2.1, h.2.2.1,
      h.2.2.2.1, h.2.2.2.2⟩
  else .error .invalidAmount

def layout : Codec (Bytes32 × Bytes32 × Bytes32 × UInt64 × UInt64 × UInt8) :=
  (array 32).pair <| (array 32).pair <| (array 32).pair <| u64.pair <| u64.pair byte

def encode (r : ReservationRecord) : Bytes :=
  layout.encode (r.nonce, r.epochId, r.participantId, r.baseAtoms, r.quoteAtoms, r.state.toByte)

def decode (bytes : Bytes) : Except JournalError (Bytes32 × ReservationRecord) := do
  let (nonce, epochId, participantId, baseAtoms, quoteAtoms, value) ←
    okOr (layout.read bytes) .corrupt
  let record ← (new nonce epochId participantId baseAtoms quoteAtoms).mapError fun _ => .corrupt
  let state ← ReservationState.tryFrom value
  .ok (nonce, { record with state })

end ReservationRecord

/-- Capability that `reserve` returns once the reservation is durable. -/
structure UnsignedFundedAuthorizationV1 where
  nonce : Bytes32
  epochId : Bytes32
  participantId : Bytes32
  baseAtoms : UInt64
  quoteAtoms : UInt64
  deriving DecidableEq

abbrev Reservations := Map Bytes32 ReservationRecord

/-- `HEADER`, the bytes of `KGBRSV2\0`. -/
def reservationHeader : Bytes := [75, 71, 66, 82, 83, 86, 50, 0]

def reservationRecordLen : Nat := 113

/-- What `load_records` makes of the bytes of the file. -/
def decodeReservations (host : Host) (bytes : Bytes) : Except JournalError Reservations :=
  decodeTable host.sha256 reservationHeader reservationRecordLen .corrupt ReservationRecord.decode
    bytes

/-- The bytes that `persist_records` writes. -/
def encodeReservations (host : Host) (records : Reservations) : Except JournalError Bytes :=
  encodeTable host.sha256 reservationHeader .arithmeticOverflow (fun entry => entry.2.encode) records

/-! ### What the calls do to the records -/

/-- The totals of what a participant has reserved and neither used nor released. -/
def reservedTotals (records : Reservations) (participantId : Bytes32) : Option (UInt64 × UInt64) :=
  ((records.toList.map Prod.snd).filter fun existing =>
    existing.participantId = participantId && existing.state = .reserved).foldlM
    (fun totals existing => do
      let base ← checkedAdd totals.1 existing.baseAtoms
      let quote ← checkedAdd totals.2 existing.quoteAtoms
      some (base, quote)) (0, 0)

def reserveIn (record : ReservationRecord) (available : PoolBalance) (records : Reservations) :
    Except JournalError Reservations := do
  rejectIf (record.nonce ∈ records) .duplicateNonce
  let (reservedBase, reservedQuote) ← okOr (reservedTotals records record.participantId)
    .arithmeticOverflow
  let requiredBase ← okOr (checkedAdd reservedBase record.baseAtoms) .arithmeticOverflow
  let requiredQuote ← okOr (checkedAdd reservedQuote record.quoteAtoms) .arithmeticOverflow
  rejectIf (available.baseAtoms < requiredBase ∨ available.quoteAtoms < requiredQuote)
    .insufficientBalance
  .ok (records.insert record.nonce record)

def transitionIn (nonce : Bytes32) (next : ReservationState) (records : Reservations) :
    Except JournalError Reservations := do
  let record ← okOr records[nonce]? .unknownNonce
  rejectIf (record.state ≠ .reserved) .invalidTransition
  .ok (records.insert nonce { record with state := next })

/-- The loop over the nonces of a batch: each stands once in the list, is known, belongs to the
epoch and is not in the barred state. -/
def selectRecords (epochId : Bytes32) (barred : ReservationState) (current : Reservations)
    (seen : Finset Bytes32) : List Bytes32 → Except JournalError (List ReservationRecord)
  | [] => .ok []
  | nonce :: nonces => do
    rejectIf (nonce ∈ seen) .invalidTransition
    let record ← okOr current[nonce]? .unknownNonce
    rejectIf (record.epochId ≠ epochId ∨ record.state = barred) .invalidTransition
    let records ← selectRecords epochId barred current (insert nonce seen) nonces
    .ok (record :: records)

/-- The loop that moves the reserved records of a batch on, and says whether there were any. -/
def transitionAll (next : ReservationState) :
    List Bytes32 → Reservations → Bool → Except JournalError (Reservations × Bool)
  | [], current, changed => .ok (current, changed)
  | nonce :: nonces, current, changed => do
    let record ← okOr current[nonce]? .unknownNonce
    if record.state = .reserved then
      transitionAll next nonces (current.insert nonce { record with state := next }) true
    else transitionAll next nonces current changed

/-! ### The calls -/

namespace ReservationJournal

variable (host : Host)

/-- `acquire_journal_lock`. -/
def lockRefused : Acquired → Option JournalError
  | .locked => none
  | .busy => some .busy
  | .failed kind => some (.io kind)

def locked {α : Type} (body : ExceptT JournalError BooksCall α) : ExceptT JournalError BooksCall α :=
  Call.guarded .reservations lockRefused body

def loadRecords : ExceptT JournalError BooksCall Reservations := do
  let bytes ← ExceptT.adapt .io (Call.attempt (.read .reservations))
  Call.lift (decodeReservations host bytes)

def persistRecords (records : Reservations) : ExceptT JournalError BooksCall Unit := do
  let bytes ← Call.lift (encodeReservations host records)
  ExceptT.adapt .io (Call.persist .reservations bytes)

def persistIf (changed : Bool) (records : Reservations) : ExceptT JournalError BooksCall Unit :=
  if changed then persistRecords host records else Call.lift (.ok ())

def «open» : ExceptT JournalError BooksCall Unit :=
  locked do
    let there ← Call.isThere .reservations
    persistIf host (!there) ∅
    let _ ← loadRecords host
    Call.lift (.ok ())

def mutate (operation : Reservations → Except JournalError Reservations) :
    ExceptT JournalError BooksCall Unit :=
  locked do
    let current ← loadRecords host
    let current ← Call.lift (operation current)
    persistRecords host current

def reserve (record : ReservationRecord) (available : PoolBalance) :
    ExceptT JournalError BooksCall UnsignedFundedAuthorizationV1 := do
  mutate host (reserveIn record available)
  Call.lift (.ok
    { nonce := record.nonce
      epochId := record.epochId
      participantId := record.participantId
      baseAtoms := record.baseAtoms
      quoteAtoms := record.quoteAtoms })

def transition (nonce : Bytes32) (next : ReservationState) : ExceptT JournalError BooksCall Unit :=
  mutate host (transitionIn nonce next)

def markUsed (nonce : Bytes32) : ExceptT JournalError BooksCall Unit := transition host nonce .used

def release (nonce : Bytes32) : ExceptT JournalError BooksCall Unit :=
  transition host nonce .released

/-- How both calls on a batch end, once the accounts had their say. -/
def finish {ε : Type} (next : ReservationState) (nonces : List Bytes32) (current : Reservations) :
    Except ε Unit → ExceptT JournalError BooksCall (Except ε Unit)
  | .error e => Call.lift (.ok (.error e))
  | .ok () => do
    let (updated, changed) ← Call.lift (transitionAll next nonces current false)
    persistIf host changed updated
    Call.lift (.ok (.ok ()))

def finalizeEpoch {ε : Type} (epochId : Bytes32) (nonces : List Bytes32)
    (expectedMembers : Finset Bytes32) (apply : Bool → BooksCall (Except ε Unit)) :
    ExceptT JournalError BooksCall (Except ε Unit) :=
  locked do
    let current ← loadRecords host
    let records ← Call.lift (selectRecords epochId .released current ∅ nonces)
    Call.lift (rejectIf (nonces.length ≠ expectedMembers.card ∨
      (records.map ReservationRecord.participantId).toFinset ≠ expectedMembers) .invalidTransition)
    let applied ← Call.inner (apply (records.any fun record => record.state = .used))
    finish host .used nonces current applied

def releaseEpochChecked {ε : Type} (epochId : Bytes32) (nonces : List Bytes32)
    (check : BooksCall (Except ε Unit)) : ExceptT JournalError BooksCall (Except ε Unit) :=
  locked do
    let current ← loadRecords host
    let _ ← Call.lift (selectRecords epochId .used current ∅ nonces)
    let checked ← Call.inner check
    finish host .released nonces current checked

end ReservationJournal

/-! ### The format -/

/-- Every record stands under its own nonce. -/
def Reservations.Keyed (records : Reservations) : Prop :=
  ∀ (n : Bytes32) (r : ReservationRecord), records[n]? = some r → r.nonce = n

theorem ReservationRecord.layout_width : layout.Width reservationRecordLen :=
  (array_width 32).pair <| (array_width 32).pair <| (array_width 32).pair <|
    u64_width.pair <| u64_width.pair byte_width

theorem ReservationRecord.encode_length (r : ReservationRecord) :
    r.encode.length = reservationRecordLen := layout_width _

theorem ReservationRecord.decode_encode (r : ReservationRecord) :
    decode r.encode = .ok (r.nonce, r) := by
  have hnew : new r.nonce r.epochId r.participantId r.baseAtoms r.quoteAtoms =
      .ok { r with state := .reserved } :=
    dif_pos ⟨r.nonce_ne, r.epochId_ne, r.participantId_ne, r.baseAtoms_ne, r.quoteAtoms_ne⟩
  simp only [decode, bind_ok, okOr_eq_ok, mapError_eq_ok]
  exact ⟨_, read_encode .., _, hnew, r.state, ReservationState.tryFrom_toByte r.state, rfl⟩

theorem decodeReservations_encode {host : Host} {records : Reservations} {bytes : Bytes}
    (hkeyed : records.Keyed) (h : encodeReservations host records = .ok bytes) :
    decodeReservations host bytes = .ok records := by
  refine decodeTable_encodeTable (fun entry _ => entry.2.encode_length) ?_ h
  rintro ⟨n, r⟩ hmem
  have hn := hkeyed n r (Std.ExtTreeMap.mem_toList_iff_getElem?_eq_some.mp hmem)
  rw [ReservationRecord.decode_encode, hn]

/-! ### The loops -/

/-- The batch may go on: its nonces are distinct and name these records of the epoch, none of them
in the barred state. -/
structure Selected (epochId : Bytes32) (barred : ReservationState) (current : Reservations)
    (nonces : List Bytes32) (records : List ReservationRecord) : Prop where
  nodup : nonces.Nodup
  records : List.Forall₂ (fun (n : Bytes32) (r : ReservationRecord) =>
    current[n]? = some r ∧ r.epochId = epochId ∧ r.state ≠ barred) nonces records

theorem selectRecords_ok {epochId : Bytes32} {barred : ReservationState} {current : Reservations}
    {seen : Finset Bytes32} {nonces : List Bytes32} {records : List ReservationRecord} :
    selectRecords epochId barred current seen nonces = .ok records ↔
      (∀ n ∈ nonces, n ∉ seen) ∧ Selected epochId barred current nonces records := by
  induction nonces generalizing seen records with
  | nil =>
    constructor
    · rintro ⟨⟩
      exact ⟨by simp, by simp, .nil⟩
    · rintro ⟨-, -, hrecords⟩
      cases hrecords
      rfl
  | cons n nonces ih =>
    simp only [selectRecords, bind_ok, Unique.exists_iff, rejectIf_eq_ok, okOr_eq_ok, not_or,
      not_not, ih, List.forall_mem_cons, Finset.mem_insert]
    constructor
    · rintro ⟨hn, r, hr, ⟨hepoch, hstate⟩, rest, ⟨hseen, hnodup, hrest⟩, ⟨⟩⟩
      exact ⟨⟨hn, fun m hm => (hseen m hm).2⟩,
        List.nodup_cons.mpr ⟨fun hmem => (hseen n hmem).1 rfl, hnodup⟩,
        .cons ⟨hr, hepoch, hstate⟩ hrest⟩
    · rintro ⟨⟨hn, hseen⟩, hnodup, hrecords⟩
      obtain ⟨hnot, hnodup⟩ := List.nodup_cons.mp hnodup
      cases hrecords with
      | cons hr hrest =>
        exact ⟨hn, _, hr.1, hr.2, _, ⟨fun m hm => ⟨fun heq => hnot (heq ▸ hm), hseen m hm⟩, hnodup,
          hrest⟩, rfl⟩

/-- Why a batch may not go on. -/
inductive Refused (epochId : Bytes32) (barred : ReservationState) (current : Reservations)
    (nonces : List Bytes32) : JournalError → Prop
  | duplicate : ¬nonces.Nodup → Refused epochId barred current nonces .invalidTransition
  | unknown {n : Bytes32} : n ∈ nonces → n ∉ current →
      Refused epochId barred current nonces .unknownNonce
  | barred {n : Bytes32} {r : ReservationRecord} : n ∈ nonces → current[n]? = some r →
      r.epochId ≠ epochId ∨ r.state = barred →
      Refused epochId barred current nonces .invalidTransition

theorem Refused.cons {epochId : Bytes32} {barred : ReservationState} {current : Reservations}
    {nonces : List Bytes32} {e : JournalError} (n : Bytes32)
    (h : Refused epochId barred current nonces e) :
    Refused epochId barred current (n :: nonces) e := by
  cases h with
  | duplicate hnodup => exact .duplicate fun h => hnodup (List.nodup_cons.mp h).2
  | unknown hmem hn => exact .unknown (List.mem_cons_of_mem _ hmem) hn
  | barred hmem hr hbad => exact .barred (List.mem_cons_of_mem _ hmem) hr hbad

theorem selectRecords_error {epochId : Bytes32} {barred : ReservationState}
    {current : Reservations} {seen : Finset Bytes32} {nonces : List Bytes32} {e : JournalError}
    (h : selectRecords epochId barred current seen nonces = .error e) :
    (e = .invalidTransition ∧ ∃ n ∈ nonces, n ∈ seen) ∨ Refused epochId barred current nonces e := by
  induction nonces generalizing seen with
  | nil => cases h
  | cons n nonces ih =>
    simp only [selectRecords, bind_error, rejectIf_eq_error, rejectIf_eq_ok, okOr_eq_error,
      okOr_eq_ok, Unique.exists_iff, not_or, not_not, reduceCtorEq, and_false, exists_false,
      or_false] at h
    rcases h with ⟨hseen, rfl⟩ | ⟨-, ⟨hnone, rfl⟩ | ⟨r, hr, ⟨hbad, rfl⟩ | ⟨-, hrest⟩⟩⟩
    · exact Or.inl ⟨rfl, n, List.mem_cons_self, hseen⟩
    · refine Or.inr (.unknown List.mem_cons_self ?_)
      rw [Std.ExtTreeMap.mem_iff_isSome_getElem?, hnone]
      simp
    · exact Or.inr (.barred List.mem_cons_self hr hbad)
    · rcases ih hrest with ⟨rfl, m, hm, hseen⟩ | hrefused
      · rcases Finset.mem_insert.mp hseen with rfl | hseen
        · exact Or.inr (.duplicate fun hnodup => (List.nodup_cons.mp hnodup).1 hm)
        · exact Or.inl ⟨rfl, m, List.mem_cons_of_mem _ hm, hseen⟩
      · exact Or.inr (hrefused.cons n)

/-- The reserved records of the batch moved on. -/
def Reservations.advance (next : ReservationState) (nonces : List Bytes32)
    (records : Reservations) : Reservations :=
  records.map fun n r => if n ∈ nonces ∧ r.state = .reserved then { r with state := next } else r

theorem Reservations.getElem?_advance (next : ReservationState) (nonces : List Bytes32)
    (records : Reservations) (n : Bytes32) : (records.advance next nonces)[n]? =
      records[n]?.map fun r =>
        if n ∈ nonces ∧ r.state = .reserved then { r with state := next } else r :=
  Std.ExtTreeMap.getElem?_map

theorem Reservations.getElem?_advance_of_some {records : Reservations} {n : Bytes32}
    {r : ReservationRecord} (hr : records[n]? = some r) (next : ReservationState)
    (nonces : List Bytes32) : (records.advance next nonces)[n]? =
      some (if n ∈ nonces ∧ r.state = .reserved then { r with state := next } else r) := by
  rw [getElem?_advance, hr]
  rfl

/-- A reservation of the batch that can be in no third state is moved. -/
theorem advance_moved {records : Reservations} {next : ReservationState} {nonces : List Bytes32}
    {n : Bytes32} {r : ReservationRecord} (hn : n ∈ nonces) (hr : records[n]? = some r)
    (hstate : r.state = .reserved ∨ r.state = next) :
    (records.advance next nonces)[n]? = some { r with state := next } := by
  rw [Reservations.getElem?_advance_of_some hr]
  split_ifs with hmoves
  · rfl
  · rw [← hstate.resolve_left fun hreserved => hmoves ⟨hn, hreserved⟩]

theorem advance_used {records : Reservations} {nonces : List Bytes32} {n : Bytes32}
    {r : ReservationRecord} (hn : n ∈ nonces) (hr : records[n]? = some r)
    (hstate : r.state ≠ .released) :
    (records.advance .used nonces)[n]? = some { r with state := .used } := by
  refine advance_moved hn hr ?_
  cases hcase : r.state <;> simp_all

theorem advance_released {records : Reservations} {nonces : List Bytes32} {n : Bytes32}
    {r : ReservationRecord} (hn : n ∈ nonces) (hr : records[n]? = some r)
    (hstate : r.state ≠ .used) :
    (records.advance .released nonces)[n]? = some { r with state := .released } := by
  refine advance_moved hn hr ?_
  cases hcase : r.state <;> simp_all

theorem advance_eq_self {records : Reservations} {next : ReservationState} {nonces : List Bytes32}
    (h : (nonces.any fun n => records[n]?.any fun r => r.state = .reserved) = false) :
    records.advance next nonces = records := by
  apply Std.ExtTreeMap.ext_getElem?
  intro n
  rw [Reservations.getElem?_advance]
  cases hr : records[n]? with
  | none => rfl
  | some r =>
    have hnot : ¬(n ∈ nonces ∧ r.state = .reserved) := by
      rintro ⟨hn, hreserved⟩
      rw [List.any_eq_false] at h
      exact h n hn (by simp [hr, hreserved])
    simp [hnot]

theorem transitionAll_eq {next : ReservationState} (hnext : next ≠ .reserved)
    {nonces : List Bytes32} {current : Reservations} (changed : Bool)
    (hknown : ∀ n ∈ nonces, n ∈ current) :
    transitionAll next nonces current changed = .ok (current.advance next nonces,
      changed || nonces.any fun n => current[n]?.any fun r => r.state = .reserved) := by
  induction nonces generalizing current changed with
  | nil =>
    have hsame : current.advance next [] = current := by
      apply Std.ExtTreeMap.ext_getElem?
      intro n
      rw [Reservations.getElem?_advance]
      simp
    simp [transitionAll, hsame]
  | cons n nonces ih =>
    obtain ⟨hn, hrest⟩ := List.forall_mem_cons.mp hknown
    obtain ⟨r, hr⟩ := Option.isSome_iff_exists.mp (Std.ExtTreeMap.mem_iff_isSome_getElem?.mp hn)
    rw [transitionAll, hr]
    by_cases hreserved : r.state = .reserved
    · have hadvance : Reservations.advance next nonces
          (current.insert n { r with state := next }) = current.advance next (n :: nonces) := by
        apply Std.ExtTreeMap.ext_getElem?
        intro m
        rw [Reservations.getElem?_advance, Reservations.getElem?_advance, Map.getElem?_insert]
        by_cases hm : n = m
        · subst hm
          simp [hr, hreserved, hnext]
        · simp [hm, Ne.symm hm]
      have hall : ∀ m ∈ nonces, m ∈ current.insert n { r with state := next } := fun m hm =>
        Std.ExtTreeMap.mem_insert.mpr (Or.inr (hrest m hm))
      refine Eq.trans (if_pos hreserved) ?_
      rw [ih true hall, hadvance]
      simp [hr, hreserved]
    · have hadvance : current.advance next nonces = current.advance next (n :: nonces) := by
        apply Std.ExtTreeMap.ext_getElem?
        intro m
        rw [Reservations.getElem?_advance, Reservations.getElem?_advance]
        by_cases hm : m = n
        · subst hm
          simp [hr, hreserved]
        · simp [hm]
      refine Eq.trans (if_neg hreserved) ?_
      rw [ih changed hrest, hadvance]
      simp [hr, hreserved]

end Kageb
