import Kageb.Host.Reservations

/-! The account journal: the balances of the participants, the epochs that were applied to them,
and the two calls that go through both journals of the operator. -/

namespace Kageb

open Binary Binary.Codec Checks Files Maps Tables

inductive AccountError where
  | io (kind : ErrorKind)
  | busy
  | corrupt
  | invalidAccount
  | duplicateAccount
  | unknownAccount
  | unauthorized
  | resultPending
  | staleSettlement
  | arithmeticOverflow
  | reservation (error : JournalError)
  deriving DecidableEq

structure VerifyingKey (host : Host) where
  bytes : Bytes32
  valid : host.validKey bytes = true

/-- A result that `net_batch` returned: nothing else makes one. -/
structure NettedBatch where
  result : BatchResult
  netted : ∃ config before orders, netBatch config before orders = .ok result

structure AccountRecord where
  participantId : Bytes32
  tradingKey : Bytes32
  balance : PoolBalance
  lastEpoch : Bytes32
  deriving DecidableEq

abbrev AccountRecords := Map Bytes32 AccountRecord

abbrev AppliedEpochs := Map Bytes32 Bytes32

structure AccountState where
  records : AccountRecords
  appliedEpochs : AppliedEpochs
  deriving DecidableEq

def AccountState.empty : AccountState := ⟨∅, ∅⟩

/-- `HEADER`, the bytes of `KGBACC2\0`. -/
def accountHeader : Bytes := [75, 71, 66, 65, 67, 67, 50, 0]

def accountRecordLen : Nat := 112

def appliedEpochLen : Nat := 64

namespace AccountRecord

def layout : Codec (Bytes32 × Bytes32 × UInt64 × UInt64 × Bytes32) :=
  (array 32).pair <| (array 32).pair <| u64.pair <| u64.pair <| array 32

def encode (r : AccountRecord) : Bytes :=
  layout.encode
    (r.participantId, r.tradingKey, r.balance.baseAtoms, r.balance.quoteAtoms, r.lastEpoch)

def decode (host : Host) (bytes : Bytes) : Except AccountError (Bytes32 × AccountRecord) := do
  let (participantId, tradingKey, baseAtoms, quoteAtoms, lastEpoch) ←
    okOr (layout.read bytes) .corrupt
  rejectIf (host.validKey tradingKey = false) .corrupt
  rejectIf (participantId = zero32 ∨ (baseAtoms = 0 ∧ quoteAtoms = 0)) .corrupt
  .ok (participantId, ⟨participantId, tradingKey, ⟨baseAtoms, quoteAtoms⟩, lastEpoch⟩)

end AccountRecord

def appliedEpochLayout : Codec (Bytes32 × Bytes32) := (array 32).pair (array 32)

def decodeAppliedEpoch (bytes : Bytes) : Except AccountError (Bytes32 × Bytes32) := do
  let (epoch, resultDigest) ← okOr (appliedEpochLayout.read bytes) .corrupt
  rejectIf (epoch = zero32 ∨ resultDigest = zero32) .corrupt
  .ok (epoch, resultDigest)

/-- What `load` makes of the bytes of the file. -/
def decodeAccounts (host : Host) (bytes : Bytes) : Except AccountError AccountState := do
  rejectIf (bytes.length < accountHeader.length + 8 + 32 ∨
    bytes.take accountHeader.length ≠ accountHeader) .corrupt
  let payloadLen := bytes.length - 32
  rejectIf ((host.sha256 (bytes.take payloadLen)).bytes ≠ bytes.drop payloadLen) .corrupt
  let offset := accountHeader.length + 8
  let accountCount := leValue (slice bytes accountHeader.length (accountHeader.length + 4))
  let epochCount := leValue (slice bytes (accountHeader.length + 4) offset)
  rejectIf (bytes.length ≠
    offset + accountCount * accountRecordLen + epochCount * appliedEpochLen + 32) .corrupt
  let records ← insertAll (AccountRecord.decode host) .corrupt ∅
    (chunks accountRecordLen accountCount (bytes.drop offset))
  let appliedEpochs ← insertAll decodeAppliedEpoch .corrupt ∅
    (chunks appliedEpochLen epochCount (bytes.drop (offset + accountCount * accountRecordLen)))
  .ok ⟨records, appliedEpochs⟩

/-- The bytes that `persist` writes. -/
def encodeAccounts (host : Host) (state : AccountState) : Except AccountError Bytes := do
  let accountCount ← okOr (count32 state.records.size) .arithmeticOverflow
  let epochCount ← okOr (count32 state.appliedEpochs.size) .arithmeticOverflow
  let payload := accountHeader ++ le32 accountCount ++ le32 epochCount ++
    state.records.toList.flatMap (fun entry => entry.2.encode) ++
    state.appliedEpochs.toList.flatMap appliedEpochLayout.encode
  .ok (payload ++ (host.sha256 payload).bytes)

/-! ### What the calls do to the accounts -/

/-- The bytes of `kageb-account-settlement-v1`. -/
def accountSettlementDomain : Bytes :=
  [107, 97, 103, 101, 98, 45, 97, 99, 99, 111, 117, 110, 116, 45, 115, 101, 116, 116, 108, 101,
    109, 101, 110, 116, 45, 118, 49]

def balancesMessage (balances : Map ParticipantId PoolBalance) : Bytes :=
  le32 ((count32 balances.size).getD 4294967295) ++
    balances.toList.flatMap fun entry =>
      entry.1.bytes ++ le64 entry.2.baseAtoms ++ le64 entry.2.quoteAtoms

def settlementDigest (host : Host) (result : BatchResult) : Bytes32 :=
  host.sha256 (accountSettlementDomain ++ balancesMessage result.beforeBalances ++
    balancesMessage result.balances)

def settlementMatches (records : AccountRecords) (epochId : Bytes32) (result : BatchResult) : Bool :=
  result.balances.toList.all fun entry =>
    records[entry.1]?.any fun record => record.lastEpoch = epochId && record.balance = entry.2

def setBalances (epochId : Bytes32) :
    List (ParticipantId × PoolBalance) → AccountRecords → Except AccountError AccountRecords
  | [], records => .ok records
  | (participantId, balance) :: balances, records => do
    let record ← okOr records[participantId]? .unknownAccount
    setBalances epochId balances
      (records.insert participantId { record with balance, lastEpoch := epochId })

/-- The batch is applied to the balances it was netted from. -/
def applyNew (host : Host) (epochId : Bytes32) (result : BatchResult) (state : AccountState) :
    Except AccountError AccountState := do
  rejectIf (result.beforeBalances.toList.any fun entry =>
    state.records[entry.1]?.all fun record => record.balance ≠ entry.2) .staleSettlement
  let records ← setBalances epochId result.balances.toList state.records
  .ok ⟨records, state.appliedEpochs.insert epochId (settlementDigest host result)⟩

/-- The batch was applied before, and nothing has changed since. -/
def applyAgain (host : Host) (epochId : Bytes32) (result : BatchResult) (state : AccountState)
    (appliedDigest : Bytes32) : Except AccountError AccountState := do
  rejectIf (¬(appliedDigest = settlementDigest host result ∧
    settlementMatches state.records epochId result)) .staleSettlement
  .ok state

def applyIn (host : Host) (epochId : Bytes32) (result : BatchResult) (state : AccountState) :
    Except AccountError AccountState := do
  rejectIf (result.balances.keys.any fun participantId => participantId ∉ state.records)
    .unknownAccount
  match state.appliedEpochs[epochId]? with
  | some appliedDigest => applyAgain host epochId result state appliedDigest
  | none => applyNew host epochId result state

def registerIn (participantId tradingKey : Bytes32) (balance : PoolBalance)
    (state : AccountState) : Except AccountError AccountState := do
  rejectIf (participantId ∈ state.records) .duplicateAccount
  .ok { state with
    records := state.records.insert participantId ⟨participantId, tradingKey, balance, zero32⟩ }

/-! ### The calls -/

abbrev AccountCall := ExceptT AccountError BooksCall

namespace AccountJournal

variable (host : Host)

/-- `acquire_lock`. -/
def lockRefused : Acquired → Option AccountError
  | .locked => none
  | .busy => some .busy
  | .failed kind => some (.io kind)

def locked {α : Type} (body : AccountCall α) : AccountCall α :=
  Call.guarded .accounts lockRefused body

def load : AccountCall AccountState := do
  let bytes ← ExceptT.adapt .io (Call.attempt (.read .accounts))
  Call.lift (decodeAccounts host bytes)

def persist (state : AccountState) : AccountCall Unit := do
  let bytes ← Call.lift (encodeAccounts host state)
  ExceptT.adapt .io (Call.persist .accounts bytes)

def create (there : Bool) : AccountCall Unit :=
  if there then Call.lift (.ok ()) else persist host .empty

def «open» : AccountCall Unit :=
  locked do
    let there ← Call.isThere .accounts
    create host there
    let _ ← load host
    Call.lift (.ok ())

def reload : AccountCall AccountState := locked (load host)

def mutate (operation : AccountState → Except AccountError AccountState) : AccountCall Unit :=
  locked do
    let state ← load host
    let state ← Call.lift (operation state)
    persist host state

def register (participantId : Bytes32) (tradingKey : VerifyingKey host) (balance : PoolBalance) :
    AccountCall Unit := do
  Call.lift (rejectIf (participantId = zero32 ∨ (balance.baseAtoms = 0 ∧ balance.quoteAtoms = 0))
    .invalidAccount)
  mutate host (registerIn participantId tradingKey.bytes balance)

def applySettlement (epochId : Bytes32) (result : BatchResult) : AccountCall Unit := do
  Call.lift (rejectIf (epochId = zero32) .staleSettlement)
  mutate host (applyIn host epochId result)

def settlementMatches (epochId : Bytes32) (result : BatchResult) : AccountCall Bool := do
  let state ← reload host
  Call.lift (.ok (state.appliedEpochs[epochId]? = some (settlementDigest host result) &&
    Kageb.settlementMatches state.records epochId result))

def hasAppliedEpoch (epochId : Bytes32) : AccountCall Bool := do
  let state ← reload host
  Call.lift (.ok (epochId ∈ state.appliedEpochs))

end AccountJournal

section Books

variable (host : Host)

/-- A batch with a used reservation has to be the one that was applied. -/
def confirmUsed (epochId : Bytes32) (result : BatchResult) (hadUsed : Bool) : AccountCall Unit :=
  if hadUsed then do
    let same ← AccountJournal.settlementMatches host epochId result
    Call.lift (rejectIf (same = false) .staleSettlement)
  else Call.lift (.ok ())

/-- The members of a batch. -/
def BatchResult.members (result : BatchResult) : Finset Bytes32 := result.balances.keys.toFinset

def finalizeSettlement (epochId : Bytes32) (result : BatchResult) (reservationNonces : List Bytes32) :
    AccountCall Unit := do
  let applied ← ExceptT.adapt .reservation <|
    ReservationJournal.finalizeEpoch host epochId reservationNonces result.members fun hadUsed =>
      (do
        confirmUsed host epochId result hadUsed
        AccountJournal.applySettlement host epochId result : AccountCall Unit).run
  Call.lift applied

/-- Releases one batch of reservations, with a capability for the same aborted or expired epoch. -/
def releaseReservations (terminalEpoch : ConfirmedTerminalEpoch)
    (reservationNonces : List Bytes32) : AccountCall Unit := do
  let checked ← ExceptT.adapt .reservation <|
    ReservationJournal.releaseEpochChecked host terminalEpoch.epochId reservationNonces
      (do
        let applied ← AccountJournal.hasAppliedEpoch host terminalEpoch.epochId
        Call.lift (rejectIf (applied = true) .staleSettlement) : AccountCall Unit).run
  Call.lift checked

end Books

/-! ### The format -/

/-- A record that may stand under this key. -/
structure AccountRecord.Valid (host : Host) (p : Bytes32) (r : AccountRecord) : Prop where
  participantId : r.participantId = p
  participantId_ne : p ≠ zero32
  tradingKey : host.validKey r.tradingKey = true
  balance : ¬(r.balance.baseAtoms = 0 ∧ r.balance.quoteAtoms = 0)

structure AccountState.Valid (host : Host) (state : AccountState) : Prop where
  records : ∀ (p : Bytes32) (r : AccountRecord), state.records[p]? = some r → r.Valid host p
  appliedEpochs : ∀ e d : Bytes32, state.appliedEpochs[e]? = some d → e ≠ zero32 ∧ d ≠ zero32

theorem AccountState.valid_empty (host : Host) : AccountState.empty.Valid host :=
  ⟨by simp [empty], by simp [empty]⟩

theorem AccountRecord.layout_width : layout.Width accountRecordLen :=
  (array_width 32).pair <| (array_width 32).pair <| u64_width.pair <| u64_width.pair <|
    array_width 32

theorem AccountRecord.encode_length (r : AccountRecord) : r.encode.length = accountRecordLen :=
  layout_width _

theorem AccountRecord.decode_encode {host : Host} {p : Bytes32} {r : AccountRecord}
    (h : r.Valid host p) : decode host r.encode = .ok (p, r) := by
  obtain ⟨rfl, hne, hkey, hbalance⟩ := h
  simp only [decode, bind_ok, okOr_eq_ok, Unique.exists_iff, rejectIf_eq_ok, not_or]
  exact ⟨_, read_encode .., by simp [hkey], ⟨hne, hbalance⟩, rfl⟩

theorem appliedEpochLayout_width : appliedEpochLayout.Width appliedEpochLen :=
  (array_width 32).pair (array_width 32)

theorem decodeAppliedEpoch_encode {e d : Bytes32} (he : e ≠ zero32) (hd : d ≠ zero32) :
    decodeAppliedEpoch (appliedEpochLayout.encode (e, d)) = .ok (e, d) := by
  simp only [decodeAppliedEpoch, bind_ok, okOr_eq_ok, Unique.exists_iff, rejectIf_eq_ok, not_or]
  exact ⟨_, read_encode .., ⟨he, hd⟩, rfl⟩

theorem decodeAccounts_encode {host : Host} {state : AccountState} {bytes : Bytes}
    (hvalid : state.Valid host) (h : encodeAccounts host state = .ok bytes) :
    decodeAccounts host bytes = .ok state := by
  simp only [encodeAccounts, bind_ok, okOr_eq_ok] at h
  obtain ⟨accountCount, haccounts, epochCount, hepochs, hbytes⟩ := h
  have hwidth : ∀ entry ∈ state.records.toList, entry.2.encode.length = accountRecordLen :=
    fun entry _ => entry.2.encode_length
  have hwidth' : ∀ entry ∈ state.appliedEpochs.toList,
      (appliedEpochLayout.encode entry).length = appliedEpochLen :=
    fun entry _ => appliedEpochLayout_width entry
  have hrecords : insertAll (AccountRecord.decode host) .corrupt ∅
      (state.records.toList.map fun entry => entry.2.encode) = .ok state.records :=
    insertAll_toList fun entry hentry => AccountRecord.decode_encode
      (hvalid.records _ _ (Std.ExtTreeMap.mem_toList_iff_getElem?_eq_some.mp hentry))
  have happlied : insertAll decodeAppliedEpoch .corrupt ∅
      (state.appliedEpochs.toList.map appliedEpochLayout.encode) = .ok state.appliedEpochs := by
    refine insertAll_toList fun entry hentry => ?_
    obtain ⟨he, hd⟩ :=
      hvalid.appliedEpochs _ _ (Std.ExtTreeMap.mem_toList_iff_getElem?_eq_some.mp hentry)
    exact decodeAppliedEpoch_encode he hd
  have hsize : accountCount.toNat = state.records.toList.length := by
    rw [count32_toNat haccounts, Std.ExtTreeMap.length_toList]
  have hsize' : epochCount.toNat = state.appliedEpochs.toList.length := by
    rw [count32_toNat hepochs, Std.ExtTreeMap.length_toList]
  have hbody := length_flatMap hwidth
  have hbody' := length_flatMap hwidth'
  have hchunks := chunks_flatMap hwidth
  have hchunks' := chunks_flatMap hwidth'
  generalize state.records.toList.flatMap (fun entry => entry.2.encode) = R at *
  generalize state.appliedEpochs.toList.flatMap appliedEpochLayout.encode = E at *
  generalize hpayload : accountHeader ++ le32 accountCount ++ le32 epochCount ++ R ++ E = payload
    at hbytes
  have hlength : payload.length = accountHeader.length + 8 + R.length + E.length := by
    rw [← hpayload]
    simp
    omega
  obtain rfl := Except.ok.inj hbytes
  generalize hseal : (host.sha256 payload).bytes = checksum
  have hchecksum : checksum.length = 32 := by
    rw [← hseal]
    simp
  have htotal : (payload ++ checksum).length = payload.length + 32 := by
    rw [List.length_append, hchecksum]
  have hheader : (payload ++ checksum).take accountHeader.length = accountHeader := by
    rw [← hpayload]
    simp only [List.append_assoc, List.take_left]
  have hcount : leValue (slice (payload ++ checksum) accountHeader.length
      (accountHeader.length + 4)) = state.records.toList.length := by
    rw [← hpayload]
    simp only [List.append_assoc]
    rw [← List.append_assoc, slice_append rfl (by simp), leValue_le32, hsize]
  have hcount' : leValue (slice (payload ++ checksum) (accountHeader.length + 4)
      (accountHeader.length + 8)) = state.appliedEpochs.toList.length := by
    rw [← hpayload, List.append_assoc, List.append_assoc, slice_append (by simp) (by simp),
      leValue_le32, hsize']
  have hdrop : (payload ++ checksum).drop (accountHeader.length + 8) = R ++ (E ++ checksum) := by
    rw [← hpayload, List.append_assoc, List.append_assoc, List.drop_left' (by simp)]
  have hdrop' : (payload ++ checksum).drop
      (accountHeader.length + 8 + state.records.toList.length * accountRecordLen) =
        E ++ checksum := by
    rw [← List.drop_drop, hdrop, ← hbody, List.drop_left]
  simp only [decodeAccounts, bind_ok, Unique.exists_iff, rejectIf_eq_ok, htotal,
    Nat.add_sub_cancel, List.take_left, List.drop_left, hseal, hheader, hcount, hcount', hdrop,
    hdrop', hchunks, hchunks', hrecords, happlied, not_or, not_not, ne_eq, not_true,
    not_false_eq_true, and_true, true_and]
  refine ⟨?_, ?_, _, rfl, _, rfl, rfl⟩
  · omega
  · omega

/-! ### What a settlement does -/

/-- The record after a settlement that gave it this balance. -/
def AccountRecord.settle (epochId : Bytes32) (r : AccountRecord) (balance : PoolBalance) :
    AccountRecord :=
  { r with balance, lastEpoch := epochId }

/-- The records after a settlement that ended in these balances. -/
def AccountRecords.settle (epochId : Bytes32) (balances : Map ParticipantId PoolBalance)
    (records : AccountRecords) : AccountRecords :=
  records.map fun p r => (balances[p]?.map (r.settle epochId)).getD r

theorem AccountRecords.getElem?_settle (epochId : Bytes32)
    (balances : Map ParticipantId PoolBalance) (records : AccountRecords) (p : Bytes32) :
    (records.settle epochId balances)[p]? =
      records[p]?.map fun r => (balances[p]?.map (r.settle epochId)).getD r :=
  Std.ExtTreeMap.getElem?_map

theorem setBalances_ok {epochId : Bytes32} {entries : List (ParticipantId × PoolBalance)}
    {records : AccountRecords} (hnodup : (entries.map Prod.fst).Nodup)
    (hknown : ∀ entry ∈ entries, entry.1 ∈ records) :
    ∃ records', setBalances epochId entries records = .ok records' ∧
      (∀ p b, (p, b) ∈ entries → records'[p]? = records[p]?.map fun r => r.settle epochId b) ∧
      ∀ p, p ∉ entries.map Prod.fst → records'[p]? = records[p]? := by
  induction entries generalizing records with
  | nil => exact ⟨records, rfl, by simp, by simp⟩
  | cons entry entries ih =>
    obtain ⟨q, c⟩ := entry
    obtain ⟨hfresh, hnodup⟩ := List.nodup_cons.mp hnodup
    obtain ⟨hq, hrest⟩ := List.forall_mem_cons.mp hknown
    obtain ⟨r, hr⟩ := Option.isSome_iff_exists.mp (Std.ExtTreeMap.mem_iff_isSome_getElem?.mp hq)
    have hothers : ∀ p, q ≠ p → (records.insert q (r.settle epochId c))[p]? = records[p]? :=
      fun p hp => by rw [Map.getElem?_insert, if_neg hp]
    obtain ⟨records', hset, hin, hout⟩ := @ih (records.insert q (r.settle epochId c)) hnodup
      fun entry hentry => Std.ExtTreeMap.mem_insert.mpr (Or.inr (hrest entry hentry))
    refine ⟨records', ?_, ?_, ?_⟩
    · rw [setBalances, hr]
      exact hset
    · intro p b hmem
      rcases List.mem_cons.mp hmem with heq | hmem
      · cases heq
        rw [hout q hfresh, Map.getElem?_insert, if_pos rfl, hr]
        rfl
      · have hne : q ≠ p := by
          rintro rfl
          exact hfresh (List.mem_map.mpr ⟨_, hmem, rfl⟩)
        rw [hin p b hmem, hothers p hne]
    · intro p hp
      rw [List.map_cons, List.mem_cons, not_or] at hp
      rw [hout p hp.2, hothers p (Ne.symm hp.1)]

theorem setBalances_toList {epochId : Bytes32} {balances : Map ParticipantId PoolBalance}
    {records : AccountRecords} (hknown : ∀ p ∈ balances, p ∈ records) :
    setBalances epochId balances.toList records = .ok (records.settle epochId balances) := by
  obtain ⟨records', hset, hin, hout⟩ := @setBalances_ok epochId balances.toList records
    (by
      rw [Std.ExtTreeMap.map_fst_toList_eq_keys]
      exact Std.ExtTreeMap.distinct_keys.imp fun h heq => h (compare_eq_iff_eq.mpr heq))
    fun entry hentry => by
      refine hknown _ (Std.ExtTreeMap.mem_iff_isSome_getElem?.mpr ?_)
      rw [Std.ExtTreeMap.mem_toList_iff_getElem?_eq_some.mp hentry]
      rfl
  rw [hset]
  congr 1
  apply Std.ExtTreeMap.ext_getElem?
  intro p
  rw [AccountRecords.getElem?_settle]
  cases hp : balances[p]? with
  | some b =>
    rw [hin p b (Std.ExtTreeMap.mem_toList_iff_getElem?_eq_some.mpr hp)]
    rfl
  | none =>
    rw [hout p]
    · simp
    · rw [Std.ExtTreeMap.map_fst_toList_eq_keys, Std.ExtTreeMap.mem_keys,
        Std.ExtTreeMap.mem_iff_isSome_getElem?, hp]
      simp

theorem settlementMatches_iff {records : AccountRecords} {epochId : Bytes32} {r : BatchResult} :
    settlementMatches records epochId r = true ↔
      ∀ (p : Bytes32) (b : PoolBalance), r.balances[p]? = some b → ∃ record : AccountRecord,
        records[p]? = some record ∧ record.lastEpoch = epochId ∧ record.balance = b := by
  simp only [settlementMatches, List.all_eq_true, Prod.forall,
    Std.ExtTreeMap.mem_toList_iff_getElem?_eq_some, Option.any_eq_true, Bool.and_eq_true,
    decide_eq_true_eq]

/-- The accounts after the commit of a batch. -/
def AccountState.commit (host : Host) (epochId : Bytes32) (result : BatchResult)
    (state : AccountState) : AccountState :=
  ⟨state.records.settle epochId result.balances,
    state.appliedEpochs.insert epochId (settlementDigest host result)⟩

/-- The accounts hold what the batch started from. -/
def AccountState.Current (result : BatchResult) (state : AccountState) : Prop :=
  ∀ (p : Bytes32) (b : PoolBalance), result.beforeBalances[p]? = some b →
    ∃ record : AccountRecord, state.records[p]? = some record ∧ record.balance = b

/-- The batch is the one that was applied, and no later one touched its members. -/
structure AccountState.Applied (host : Host) (epochId : Bytes32) (result : BatchResult)
    (state : AccountState) : Prop where
  digest : state.appliedEpochs[epochId]? = some (settlementDigest host result)
  latest : settlementMatches state.records epochId result = true

theorem applyNew_ok {host : Host} {epochId : Bytes32} {result : BatchResult}
    {state state' : AccountState} (hknown : ∀ p ∈ result.balances, p ∈ state.records) :
    applyNew host epochId result state = .ok state' ↔
      state.Current result ∧ state' = state.commit host epochId result := by
  have hcurrent : ((result.beforeBalances.toList.any fun entry =>
      state.records[entry.1]?.all fun record => decide (record.balance ≠ entry.2)) = true) ↔
      ¬state.Current result := by
    simp only [AccountState.Current, List.any_eq_true, Prod.exists,
      Std.ExtTreeMap.mem_toList_iff_getElem?_eq_some, Option.all_eq_true, decide_eq_true_eq]
    push Not
    simp
  simp only [applyNew, bind_ok, Unique.exists_iff, rejectIf_eq_ok, hcurrent, not_not,
    setBalances_toList hknown, Except.ok.injEq, exists_eq_left', AccountState.commit]
  exact and_congr_right fun _ => eq_comm

theorem applyIn_ok {host : Host} {epochId : Bytes32} {result : BatchResult}
    {state state' : AccountState} : applyIn host epochId result state = .ok state' ↔
      (∀ p ∈ result.balances, p ∈ state.records) ∧
        (state.Applied host epochId result ∧ state' = state ∨
          epochId ∉ state.appliedEpochs ∧ state.Current result ∧
            state' = state.commit host epochId result) := by
  simp only [applyIn, bind_ok, Unique.exists_iff, rejectIf_eq_ok, List.any_eq_true,
    Std.ExtTreeMap.mem_keys, decide_eq_true_eq, not_exists, not_and, not_not]
  refine and_congr_right fun hknown => ?_
  cases hepoch : state.appliedEpochs[epochId]? with
  | some d =>
    have hmem : epochId ∈ state.appliedEpochs := by
      rw [Std.ExtTreeMap.mem_iff_isSome_getElem?, hepoch]
      rfl
    simp only [applyAgain, bind_ok, Unique.exists_iff, rejectIf_eq_ok, not_not, hmem,
      not_true_eq_false, false_and, or_false, Except.ok.injEq]
    constructor
    · rintro ⟨⟨rfl, hmatches⟩, rfl⟩
      exact ⟨⟨hepoch, hmatches⟩, rfl⟩
    · rintro ⟨⟨hdigest, hmatches⟩, rfl⟩
      exact ⟨⟨Option.some.inj (hepoch.symm.trans hdigest), hmatches⟩, rfl⟩
  | none =>
    have hmem : epochId ∉ state.appliedEpochs := by
      rw [Std.ExtTreeMap.mem_iff_isSome_getElem?, hepoch]
      simp
    have hnot : ¬state.Applied host epochId result := fun happlied => by
      cases hepoch.symm.trans happlied.digest
    simp only [hmem, not_false_eq_true, true_and, hnot, false_and, false_or]
    exact applyNew_ok hknown

/-! ### Accounts stay valid -/

namespace NettedBatch

variable (batch : NettedBatch)

theorem mem_balances (p : ParticipantId) :
    p ∈ batch.result.balances ↔ p ∈ batch.result.beforeBalances := by
  obtain ⟨config, before, orders, h⟩ := batch.netted
  rw [(netBatch_ok h).mem_balances, (netBatch_ok h).beforeBalances]

theorem exists_member : ∃ p, p ∈ batch.result.balances := by
  obtain ⟨config, before, orders, h⟩ := batch.netted
  have hnetted := netBatch_ok h
  obtain ⟨order, horder⟩ := List.exists_mem_of_ne_nil _ hnetted.nonempty
  obtain ⟨n, hn, -⟩ := hnetted.filled
  obtain ⟨b, hb, -⟩ := hn.filled order horder
  refine ⟨order.participantId, (hnetted.mem_balances _).mpr ?_⟩
  rw [Std.ExtTreeMap.mem_iff_isSome_getElem?, hb]
  rfl

/-- Who had something still has something. -/
theorem balance_ne {p : ParticipantId} {b b' : PoolBalance}
    (hbefore : batch.result.beforeBalances[p]? = some b)
    (hafter : batch.result.balances[p]? = some b') (h : ¬(b.baseAtoms = 0 ∧ b.quoteAtoms = 0)) :
    ¬(b'.baseAtoms = 0 ∧ b'.quoteAtoms = 0) := by
  obtain ⟨config, before, orders, hbatch⟩ := batch.netted
  have hnetted := netBatch_ok hbatch
  rw [hnetted.beforeBalances] at hbefore
  obtain ⟨n, hn, hbalances, -⟩ := hnetted.filled
  rw [hbalances] at hafter
  rcases hn.mem_or_others p with ⟨order, horder, rfl, c, hc, hfill⟩ | ⟨-, hkept⟩
  · cases hfill.symm.trans hafter
    exact (netBatch_fits hbatch order horder c hc).fill_ne
  · cases (hkept.symm.trans hafter).symm.trans hbefore
    exact h

end NettedBatch

theorem AccountState.Valid.register {host : Host} {state state' : AccountState} {p : Bytes32}
    {key : VerifyingKey host} {balance : PoolBalance} (h : state.Valid host) (hp : p ≠ zero32)
    (hbalance : ¬(balance.baseAtoms = 0 ∧ balance.quoteAtoms = 0))
    (hregister : registerIn p key.bytes balance state = .ok state') : state'.Valid host := by
  simp only [registerIn, bind_ok, Unique.exists_iff] at hregister
  obtain ⟨-, hstate⟩ := hregister
  cases hstate
  refine ⟨fun q r hr => ?_, h.appliedEpochs⟩
  rw [Map.getElem?_insert] at hr
  split_ifs at hr with hq
  · cases hr
    exact ⟨hq, hq ▸ hp, key.valid, hbalance⟩
  · exact h.records q r hr

theorem AccountState.Valid.commit {host : Host} {state : AccountState} {epochId : Bytes32}
    {batch : NettedBatch} (h : state.Valid host) (hepoch : epochId ≠ zero32)
    (hdigest : settlementDigest host batch.result ≠ zero32) (hcurrent : state.Current batch.result) :
    (state.commit host epochId batch.result).Valid host := by
  refine ⟨fun p r hr => ?_, fun e d hd => ?_⟩
  · simp only [AccountState.commit, AccountRecords.getElem?_settle, Option.map_eq_some_iff] at hr
    obtain ⟨record, hrecord, rfl⟩ := hr
    have hvalid := h.records p record hrecord
    cases hafter : batch.result.balances[p]? with
    | none => exact hvalid
    | some balance =>
      have hmem : p ∈ batch.result.beforeBalances := by
        rw [← batch.mem_balances, Std.ExtTreeMap.mem_iff_isSome_getElem?, hafter]
        rfl
      obtain ⟨before, hbefore⟩ :=
        Option.isSome_iff_exists.mp (Std.ExtTreeMap.mem_iff_isSome_getElem?.mp hmem)
      obtain ⟨record', hrecord', rfl⟩ := hcurrent p before hbefore
      cases hrecord.symm.trans hrecord'
      exact ⟨hvalid.participantId, hvalid.participantId_ne, hvalid.tradingKey,
        batch.balance_ne hbefore hafter hvalid.balance⟩
  · simp only [AccountState.commit, Map.getElem?_insert] at hd
    split_ifs at hd with he
    · cases hd
      exact ⟨he ▸ hepoch, hdigest⟩
    · exact h.appliedEpochs e d hd

end Kageb
