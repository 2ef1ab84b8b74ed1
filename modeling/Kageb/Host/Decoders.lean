import Kageb.Host.Evidence
import Kageb.Lib.Scans

/-! The two public decoders of a settlement. The observer and the verifier of a bundle walk the same
transaction with rules of their own. On a settlement that the program carried out they agree if its
residual is not zero; a settlement without a residual calls no other program, and only the observer
takes that. -/

namespace Kageb

open Binary Checks Files Maps Tables

/-! ### The decoder of a bundle -/

structure DecodedInstructionEvidenceV1 where
  transaction : String
  position : UInt16
  program : String
  kind : String
  digest : Option String
  deriving DecidableEq

/-- The parts of libraries that a bundle is checked with. -/
structure EvidenceLibrary extends KeyTexts where
  -- `VerifyingKey::verify_strict`
  verifyStrict : Bytes32 → Bytes → Bytes64 → Bool

def hexDigit (nibble : UInt8) : Char :=
  if nibble < 10 then .ofNat (48 + nibble.toNat) else .ofNat (87 + nibble.toNat)

def hexDigest (bytes : Bytes) : String :=
  .ofList (bytes.flatMap fun byte => [hexDigit (byte / 16), hexDigit (byte % 16)])

def hexNibble (byte : UInt8) : Except DevnetEvidenceError UInt8 :=
  if 48 ≤ byte ∧ byte ≤ 57 then .ok (byte - 48)
  else if 97 ≤ byte ∧ byte ≤ 102 then .ok (byte - 97 + 10)
  else if 65 ≤ byte ∧ byte ≤ 70 then .ok (byte - 65 + 10)
  else .error .invalidPublicField

-- `u8::is_ascii_hexdigit`
def isAsciiHexdigit (byte : UInt8) : Bool :=
  48 ≤ byte && byte ≤ 57 || 97 ≤ byte && byte ≤ 102 || 65 ≤ byte && byte ≤ 70

def parseDigest (encoded : String) : Except DevnetEvidenceError Bytes32 := do
  let encoded := encoded.toUTF8.data.toList
  rejectIf (encoded.length ≠ 64 ∨ encoded.all isAsciiHexdigit = false) .invalidPublicField
  let decoded ← (chunksExact 2 encoded).mapM fun pair => do
    let high ← hexNibble (pair.getD 0 0)
    let low ← hexNibble (pair.getD 1 0)
    .ok (high <<< 4 ||| low)
  -- thirty-two pairs fill the array
  okOr (ByteVec.ofBytes? 32 decoded) .invalidPublicField

/-- `u16::try_from` of a position. -/
def positionOf (position : Nat) : Except DevnetEvidenceError UInt16 :=
  if position < 2 ^ 16 then .ok (.ofNat position) else .error .invalidTransaction

section Decode

variable (host : Host) (library : EvidenceLibrary)

def verifyEd25519Instruction (instruction : Instruction) :
    Except DevnetEvidenceError StrictEd25519 := do
  let parsed ← (parseStrictEd25519 instruction).mapError fun _ => .invalidTransaction
  let signature ← okOr (ByteVec.ofBytes? 64 (slice instruction.data 48 112)) .invalidTransaction
  rejectIf (host.validKey parsed.signer = false) .invalidTransaction
  rejectIf (library.verifyStrict parsed.signer parsed.digest.bytes signature = false)
    .invalidTransaction
  .ok parsed

/-- The payload that a compact one stands for, with the fields of the bundle. -/
def DevnetEvidenceContentV1.payload (evidence : DevnetEvidenceContentV1)
    (compact : CompactSettlementPayload) : Except DevnetEvidenceError SettlementPayloadV1 := do
  let epochAccount ← library.parsePubkey evidence.accounts.epoch
  let lockDigest ← parseDigest evidence.commitments.lockDigest
  let baseMint ← library.parsePubkey evidence.accounts.baseMint
  let quoteMint ← library.parsePubkey evidence.accounts.quoteMint
  let poolBaseVault ← library.parsePubkey evidence.accounts.poolBaseVault
  let poolQuoteVault ← library.parsePubkey evidence.accounts.poolQuoteVault
  let venueBaseAccount ← library.parsePubkey evidence.accounts.venueBaseAccount
  let venueQuoteAccount ← library.parsePubkey evidence.accounts.venueQuoteAccount
  let venueAuthority ← library.parsePubkey evidence.accounts.venueAuthority
  .ok
    { epochAccount
      lockDigest
      resultCommitment := compact.resultCommitment
      residualSide := compact.residualSide
      residualLots := compact.residualLots
      baseLotAtoms := evidence.configuration.baseLotAtoms
      quoteAtomsPerLot := evidence.configuration.quoteAtomsPerLot
      baseMint
      quoteMint
      poolBaseVault
      poolQuoteVault
      venueBaseAccount
      venueQuoteAccount
      venueAuthority
      settlementNonce := compact.settlementNonce }

/-- The kind and the digest of the instruction of the program. -/
def decodeCall (transactionName : String) (evidence : DevnetEvidenceContentV1) (data : Bytes) :
    Except DevnetEvidenceError (String × Bytes32) := do
  let instruction ← (KagebInstruction.decode data).mapError fun _ => .invalidTransaction
  match instruction with
  | .lock payload => do
    rejectIf (transactionName ≠ "lock") .invalidTransaction
    .ok ("epoch-lock", payload.digest host.sha256)
  | .settle payload => do
    rejectIf (transactionName ≠ "settlement") .invalidTransaction
    let full ← evidence.payload library payload
    .ok ("aggregate-settlement", full.digest host.sha256)
  | _ => .error .invalidTransaction

/-- What the loop of `decode_kageb_transaction` carries. -/
structure DecodeState where
  decoded : List DecodedInstructionEvidenceV1
  actualProgramDigest : Option Bytes32
  actualSigners : Finset Pubkey

def DecodeState.push (s : DecodeState) (transactionName : String) (position : Nat)
    (program : Pubkey) (kind : String) (digest : Bytes32) :
    Except DevnetEvidenceError DecodeState := do
  let position ← positionOf position
  .ok { s with decoded := s.decoded ++
    [⟨transactionName, position, library.toText program, kind, some (hexDigest digest.bytes)⟩] }

def decodeInstruction (keys : List Pubkey) (transactionName : String)
    (evidence : DevnetEvidenceContentV1) (s : DecodeState) (entry : CompiledInstruction × Nat) :
    Except DevnetEvidenceError DecodeState := do
  let (instruction, position) := entry
  let program ← okOr keys[instruction.programIdIndex.toNat]? .invalidTransaction
  if program = ed25519ProgramId then do
    let parsed ← verifyEd25519Instruction host library ⟨program, [], instruction.data⟩
    rejectIf (parsed.signer ∈ s.actualSigners) .wrongKeyper
    let kind :=
      if transactionName = "lock" then "keyper-lock-approval" else "keyper-settlement-approval"
    DecodeState.push library { s with actualSigners := insert parsed.signer s.actualSigners }
      transactionName position program kind parsed.digest
  else if program = programId then do
    let (kind, digest) ← decodeCall host library transactionName evidence instruction.data
    DecodeState.push library { s with actualProgramDigest := some digest } transactionName position
      program kind digest
  else .error .invalidTransaction

/-- The kind of a transfer, by its mint. -/
def decodeLegKind (evidence : DevnetEvidenceContentV1) (mint : Pubkey) :
    Except DevnetEvidenceError String := do
  let baseMint ← library.parsePubkey evidence.accounts.baseMint
  if mint = baseMint then .ok "aggregate-base-leg"
  else do
    let quoteMint ← library.parsePubkey evidence.accounts.quoteMint
    if mint = quoteMint then .ok "aggregate-quote-leg" else .error .invalidTransaction

/-- One turn of the loop over the calls of a settlement. -/
def decodeLeg (keys : List Pubkey) (transactionName : String) (evidence : DevnetEvidenceContentV1)
    (entry : UiInstruction × Nat) : Except DevnetEvidenceError DecodedInstructionEvidenceV1 :=
  match entry with
  | (.parsed, _) => .error .invalidTransaction
  | (.compiled programIdIndex accounts _, position) => do
    rejectIf (keys[programIdIndex.toNat]? ≠ some tokenProgramId ∨ accounts.length ≠ 4)
      .invalidTransaction
    let mint ← okOr keys[(accounts.getD 1 0).toNat]? .invalidTransaction
    let kind ← decodeLegKind library evidence mint
    let position ← positionOf position
    .ok ⟨transactionName, position, library.toText tokenProgramId, kind, none⟩

/-- The last part of `decode_kageb_transaction`: the calls of the third instruction. -/
def decodeLegs (confirmed : ConfirmedTransaction) (keys : List Pubkey) (count : Nat)
    (transactionName : String) (evidence : DevnetEvidenceContentV1) :
    Except DevnetEvidenceError (List DecodedInstructionEvidenceV1) := do
  let statusMeta ← okOr confirmed.statusMeta .invalidTransaction
  match statusMeta.innerInstructions with
  | .some inner => do
    let group ← okOr (inner.find? fun group => group.index = 2) .invalidTransaction
    (group.instructions.zipIdx count).mapM (decodeLeg library keys transactionName evidence)
  | .none => .error .invalidTransaction
  | .skip => .error .invalidTransaction

def decodeKagebTransaction (confirmed : ConfirmedTransaction) (transactionName : String)
    (evidence : DevnetEvidenceContentV1) :
    Except DevnetEvidenceError (List DecodedInstructionEvidenceV1) := do
  let message ← okOr confirmed.message .invalidTransaction
  let keys := message.staticAccountKeys
  let instructions := message.instructions
  let s ← instructions.zipIdx.foldlM
    (decodeInstruction host library keys transactionName evidence) ⟨[], none, ∅⟩
  let actualProgramDigest ← okOr s.actualProgramDigest .invalidTransaction
  rejectIf (∃ instruction ∈ s.decoded,
    instruction.digest ≠ some (hexDigest actualProgramDigest.bytes)) .invalidTransaction
  let expectedKeypers ← evidence.configuration.keypers.toList.mapM library.parsePubkey
  rejectIf (¬s.actualSigners ⊆ expectedKeypers.toFinset) .wrongKeyper
  if transactionName = "settlement" then do
    let legs ← decodeLegs library confirmed keys instructions.length transactionName evidence
    .ok (s.decoded ++ legs)
  else .ok s.decoded

end Decode

/-! ### Settlements that were carried out -/

/-- A compiled instruction stands for this one. -/
structure CompiledInstruction.StandsFor (keys : List Pubkey) (compiled : CompiledInstruction)
    (i : Instruction) : Prop where
  program : keys[compiled.programIdIndex.toNat]? = some i.programId
  accounts : compiled.accounts.map (fun index => keys[index.toNat]?) =
    i.accounts.map fun m => some m.key
  data : compiled.data = i.data

/-- What the precompile of a node checks of an entry: a key and its strict signature. -/
def EvidenceLibrary.Verifies (host : Host) (library : EvidenceLibrary)
    (key signature message : Bytes) : Prop :=
  ∃ (k : Bytes32) (s : Bytes64), key = k.bytes ∧ signature = s.bytes ∧ host.validKey k = true ∧
    library.verifyStrict k message s = true

instance (host : Host) (library : EvidenceLibrary) (key signature message : Bytes) :
    Decidable (library.Verifies host key signature message) :=
  decidable_of_iff
    (((ByteVec.ofBytes? 32 key).any fun k => (ByteVec.ofBytes? 64 signature).any fun s =>
      host.validKey k && library.verifyStrict k message s) = true) (by
    simp only [Option.any_eq_true, ByteVec.ofBytes?_eq_some, Bool.and_eq_true,
      EvidenceLibrary.Verifies]
    constructor
    · rintro ⟨k, hk, s, hs, hvalid, hstrict⟩
      exact ⟨k, s, hk, hs, hvalid, hstrict⟩
    · rintro ⟨k, s, hk, hs, hvalid, hstrict⟩
      exact ⟨k, hk, s, hs, hvalid, hstrict⟩)

/-- The transaction ran, with its approvals verified, and its instruction of the program settled an
epoch. A node lists the calls of an instruction that made any, and no empty list. -/
structure SettlementExecuted (host : Host) (library : EvidenceLibrary) (t : ConfirmedTransaction)
    (c : Chain) (compact : CompactSettlementPayload) (c' : Chain) : Prop where
  ran : ∃ m tx accounts data, t.message = some m ∧
    List.Forall₂ (CompiledInstruction.StandsFor m.staticAccountKeys) m.instructions
      tx.instructions ∧
    tx.instructions[tx.currentIndex.toNat]? = some ⟨programId, accounts, data⟩ ∧
    Precompile (library.Verifies host) tx ∧
    KagebInstruction.decode data = .ok (.settle compact) ∧
    host.processInstruction tx c programId accounts data = .ok c'
  listed : ∀ statusMeta, t.statusMeta = some statusMeta →
    ∀ group ∈ statusMeta.innerInstructions.toList, group.instructions ≠ []

/-- A bundle names the records of a settled epoch. -/
structure DevnetEvidenceContentV1.Describes (texts : KeyTexts) (evidence : DevnetEvidenceContentV1)
    (epoch : Pubkey) (p : PoolStateV1) (e : EpochStateV1) : Prop where
  epoch : texts.fromStr evidence.accounts.epoch = some epoch
  lockDigest : parseDigest evidence.commitments.lockDigest = .ok e.lockDigest
  baseMint : texts.fromStr evidence.accounts.baseMint = some p.baseMint
  quoteMint : texts.fromStr evidence.accounts.quoteMint = some p.quoteMint
  poolBaseVault : texts.fromStr evidence.accounts.poolBaseVault = some p.poolBaseVault
  poolQuoteVault : texts.fromStr evidence.accounts.poolQuoteVault = some p.poolQuoteVault
  venueBaseAccount : texts.fromStr evidence.accounts.venueBaseAccount = some p.venueBaseAccount
  venueQuoteAccount : texts.fromStr evidence.accounts.venueQuoteAccount = some p.venueQuoteAccount
  venueAuthority : texts.fromStr evidence.accounts.venueAuthority = some p.venueAuthority
  baseLotAtoms : evidence.configuration.baseLotAtoms = e.baseLotAtoms
  quoteAtomsPerLot : evidence.configuration.quoteAtomsPerLot = e.quoteAtomsPerLot
  keypers : evidence.configuration.keypers.toList.map texts.fromStr = p.keypers.toList.map some

/-- The observer looks for the settlement of an epoch of the chain. -/
structure KagebObserverAccounts.Declares (rt : Runtime) (o : KagebObserverAccounts)
    (p : PoolStateV1) (e : EpochStateV1) : Prop where
  accounts : o.toSettleAccounts = rt.settleAccounts o.payer e.pool o.epoch p
  baseLotAtoms : o.baseLotAtoms = e.baseLotAtoms
  quoteAtomsPerLot : o.quoteAtomsPerLot = e.quoteAtomsPerLot

section Entries

variable (texts : KeyTexts) (digest : Bytes32) (baseMint : Pubkey)

/-- The entry of a transfer. -/
def legEntry (entry : Transfer × Nat) : DecodedInstructionEvidenceV1 where
  transaction := "settlement"
  position := .ofNat entry.2
  program := texts.toText tokenProgramId
  kind := if entry.1.mint = baseMint then "aggregate-base-leg" else "aggregate-quote-leg"
  digest := none

/-- Two approvals, the aggregate settlement and one entry for each transfer. -/
def settlementEntries (transfers : List Transfer) : List DecodedInstructionEvidenceV1 :=
  [⟨"settlement", 0, texts.toText ed25519ProgramId, "keyper-settlement-approval",
      some (hexDigest digest.bytes)⟩,
    ⟨"settlement", 1, texts.toText ed25519ProgramId, "keyper-settlement-approval",
      some (hexDigest digest.bytes)⟩,
    ⟨"settlement", 2, texts.toText programId, "aggregate-settlement",
      some (hexDigest digest.bytes)⟩] ++ (transfers.zipIdx 3).map (legEntry texts baseMint)

end Entries

/-! ### What the decoder makes of such a settlement -/

section Decoded

variable {host : Host} {library : EvidenceLibrary} {keys : List Pubkey}
  {evidence : DevnetEvidenceContentV1} {epoch : Pubkey} {p : PoolStateV1} {e : EpochStateV1}

theorem parsePubkey_eq {texts : KeyTexts} {encoded : String} {key : Pubkey}
    (h : texts.fromStr encoded = some key) : texts.parsePubkey encoded = .ok key := by
  rw [KeyTexts.parsePubkey, h]
  rfl

theorem positionOf_eq {position : Nat} (h : position < 2 ^ 16) :
    positionOf position = .ok (.ofNat position) := if_pos h

/-- A bundle fills in what the program rebuilds. -/
theorem payload_eq (h : evidence.Describes library.toKeyTexts epoch p e)
    (compact : CompactSettlementPayload) : evidence.payload library compact =
      .ok (Runtime.rebuildSettlement epoch p e compact) := by
  simp only [DevnetEvidenceContentV1.payload, parsePubkey_eq h.epoch, h.lockDigest,
    parsePubkey_eq h.baseMint, parsePubkey_eq h.quoteMint, parsePubkey_eq h.poolBaseVault,
    parsePubkey_eq h.poolQuoteVault, parsePubkey_eq h.venueBaseAccount,
    parsePubkey_eq h.venueQuoteAccount, parsePubkey_eq h.venueAuthority, h.baseLotAtoms,
    h.quoteAtomsPerLot]
  rfl

theorem decodeCall_eq (h : evidence.Describes library.toKeyTexts epoch p e) {data : Bytes}
    {compact : CompactSettlementPayload}
    (hdecode : KagebInstruction.decode data = .ok (.settle compact)) :
    decodeCall host library "settlement" evidence data = .ok ("aggregate-settlement",
      (Runtime.rebuildSettlement epoch p e compact).digest host.sha256) := by
  simp only [decodeCall, bind_ok, mapError_eq_ok]
  refine ⟨_, hdecode, ?_⟩
  simp only [bind_ok, Unique.exists_iff, rejectIf_eq_ok, not_not, true_and]
  exact ⟨_, payload_eq h compact, rfl⟩

/-- An approval that the precompile has verified is verified again. -/
theorem verifyEd25519Instruction_eq {tx : InstructionsSysvar} {i : Instruction} {signer : Pubkey}
    {digest : Bytes32} (hverified : Precompile (library.Verifies host) tx)
    (hi : i ∈ tx.instructions) (happroves : approves digest signer i = true) :
    verifyEd25519Instruction host library i = .ok ⟨signer, digest⟩ := by
  obtain ⟨k, s, hk, hs, hvalid, hstrict⟩ := hverified.signed hi happroves
  obtain rfl : signer = k := ByteVec.ext hk
  simp only [verifyEd25519Instruction, bind_ok, Unique.exists_iff, mapError_eq_ok, okOr_eq_ok,
    rejectIf_eq_ok, Bool.not_eq_false]
  exact ⟨_, approves_eq_true.mp happroves, s, ByteVec.ofBytes?_eq_some.mpr hs, hvalid, hstrict, rfl⟩

theorem decodeLegKind_eq (h : evidence.Describes library.toKeyTexts epoch p e) {mint : Pubkey}
    (hmint : mint = p.baseMint ∨ mint = p.quoteMint) : decodeLegKind library evidence mint =
      .ok (if mint = p.baseMint then "aggregate-base-leg" else "aggregate-quote-leg") := by
  simp only [decodeLegKind, bind_ok]
  refine ⟨_, parsePubkey_eq h.baseMint, ?_⟩
  split_ifs with hbase
  · rfl
  · refine bind_ok.mpr ⟨_, parsePubkey_eq h.quoteMint, ?_⟩
    rw [if_pos (hmint.resolve_left hbase)]

theorem mapM_decodeLeg (h : evidence.Describes library.toKeyTexts epoch p e) {lib : RpcLibrary}
    {transfers : List Transfer} {instructions : List UiInstruction} {start : Nat}
    (hshown : List.Forall₂ (ShowsLeg lib keys) instructions (transfers.map Transfer.leg))
    (hmints : ∀ t ∈ transfers, t.mint = p.baseMint ∨ t.mint = p.quoteMint)
    (hstop : start + transfers.length ≤ 2 ^ 16) :
    (instructions.zipIdx start).mapM (decodeLeg library keys "settlement" evidence) =
      .ok ((transfers.zipIdx start).map (legEntry library.toKeyTexts p.baseMint)) := by
  induction transfers generalizing instructions start with
  | nil =>
    cases hshown
    rfl
  | cons t transfers ih =>
    obtain ⟨i, rest, ⟨programIdIndex, accounts, data, -, rfl, hprogram, haccounts, -⟩, hrest, rfl⟩ :=
      List.forall₂_cons_right_iff.mp hshown
    rw [List.length_cons] at hstop
    have hlength : accounts.length = 4 := by
      have := congrArg List.length haccounts
      simpa [TokenLeg.accounts] using this
    have hmint : keys[(accounts.getD 1 0).toNat]? = some t.mint := by
      match accounts, hlength with
      | [_, _, _, _], _ => exact (List.cons.inj (List.cons.inj haccounts).2).1
    have hleg : decodeLeg library keys "settlement" evidence
        (.compiled programIdIndex accounts data, start) =
          .ok (legEntry library.toKeyTexts p.baseMint (t, start)) := by
      simp only [decodeLeg, bind_ok, Unique.exists_iff, rejectIf_eq_ok, okOr_eq_ok, not_or, not_not]
      exact ⟨⟨hprogram, hlength⟩, t.mint, hmint, _, decodeLegKind_eq h (hmints t (by simp)), _,
        positionOf_eq (by omega), rfl⟩
    rw [List.zipIdx_cons, List.zipIdx_cons, List.mapM_cons, List.map_cons, hleg,
      ih hrest (fun t ht => hmints t (List.mem_cons_of_mem _ ht)) (by omega)]
    rfl

variable {s : DecodeState} {i : CompiledInstruction} {position : Nat}

theorem decodeInstruction_approval {signer : Pubkey} {digest : Bytes32}
    (hprogram : keys[i.programIdIndex.toNat]? = some ed25519ProgramId)
    (hverify : verifyEd25519Instruction host library ⟨ed25519ProgramId, [], i.data⟩ =
      .ok ⟨signer, digest⟩)
    (hfresh : signer ∉ s.actualSigners) (hposition : position < 2 ^ 16) :
    decodeInstruction host library keys "settlement" evidence s (i, position) =
      .ok ⟨s.decoded ++ [⟨"settlement", .ofNat position, library.toText ed25519ProgramId,
        "keyper-settlement-approval", some (hexDigest digest.bytes)⟩], s.actualProgramDigest,
        insert signer s.actualSigners⟩ := by
  simp only [decodeInstruction, bind_ok, okOr_eq_ok]
  refine ⟨_, hprogram, ?_⟩
  rw [if_pos rfl]
  simp only [bind_ok, Unique.exists_iff, rejectIf_eq_ok, DecodeState.push]
  exact ⟨_, hverify, hfresh, _, positionOf_eq hposition, rfl⟩

theorem decodeInstruction_call (h : evidence.Describes library.toKeyTexts epoch p e)
    {compact : CompactSettlementPayload} (hprogram : keys[i.programIdIndex.toNat]? = some programId)
    (hdecode : KagebInstruction.decode i.data = .ok (.settle compact))
    (hposition : position < 2 ^ 16) {digest : Bytes32}
    (hdigest : (Runtime.rebuildSettlement epoch p e compact).digest host.sha256 = digest) :
    decodeInstruction host library keys "settlement" evidence s (i, position) =
      .ok ⟨s.decoded ++ [⟨"settlement", .ofNat position, library.toText programId,
        "aggregate-settlement", some (hexDigest digest.bytes)⟩], some digest,
        s.actualSigners⟩ := by
  have hne : programId ≠ ed25519ProgramId := by decide
  subst hdigest
  simp only [decodeInstruction, bind_ok, okOr_eq_ok]
  refine ⟨_, hprogram, ?_⟩
  rw [if_neg hne, if_pos rfl]
  simp only [bind_ok, DecodeState.push]
  exact ⟨_, decodeCall_eq h hdecode, _, positionOf_eq hposition, rfl⟩

theorem mapM_keypers (h : evidence.Describes library.toKeyTexts epoch p e) :
    evidence.configuration.keypers.toList.mapM library.parsePubkey = .ok p.keypers.toList := by
  rw [mapM_ok]
  have hparsed := List.forall₂_map_left_iff.mp (List.forall₂_map_right_iff.mp
    (List.forall₂_eq_eq_eq ▸ h.keypers : List.Forall₂ (· = ·) _ _))
  exact hparsed.imp fun _ _ => parsePubkey_eq

end Decoded

section Quorum

variable {tx : InstructionsSysvar} {keypers : Keypers} {digest : Bytes32}

theorem approves_unique {i : Instruction} {k k' : Pubkey} (h : approves digest k i = true)
    (h' : approves digest k' i = true) : k = k' := by
  cases (approves_eq_true.mp h).symm.trans (approves_eq_true.mp h')
  rfl

/-- Two instructions in front are approvals of a keyper each. -/
theorem TwoApprove.pair (h : TwoApprove tx keypers digest) {i₁ i₂ : Instruction}
    (hpreceding : tx.preceding = [i₁, i₂]) :
    ∃ k₁ ∈ keypers.toList, ∃ k₂ ∈ keypers.toList, k₁ ≠ k₂ ∧ approves digest k₁ i₁ = true ∧
      approves digest k₂ i₂ = true := by
  obtain ⟨k₁, hk₁, k₂, hk₂, hne, ⟨i, hi, happroves⟩, j, hj, happroves'⟩ := h
  rw [hpreceding, List.mem_cons, List.mem_singleton] at hi hj
  rcases hi with rfl | rfl <;> rcases hj with rfl | rfl
  · exact absurd (approves_unique happroves happroves') hne
  · exact ⟨k₁, hk₁, k₂, hk₂, hne, happroves, happroves'⟩
  · exact ⟨k₂, hk₂, k₁, hk₁, hne.symm, happroves', happroves⟩
  · exact absurd (approves_unique happroves happroves') hne

end Quorum

section Executed

variable {host : Host} {library : EvidenceLibrary} {lib : RpcLibrary}
  {settlement : ConfirmedTransaction} {o : KagebObserverAccounts} {c c' : Chain}
  {compact : CompactSettlementPayload} {p : PoolStateV1} {e : EpochStateV1}

theorem CompiledInstruction.StandsFor.approval {keys : List Pubkey} {a : CompiledInstruction}
    {i : Instruction} (h : a.StandsFor keys i) (ha : a.IsApproval keys) :
    i = ⟨ed25519ProgramId, [], a.data⟩ := by
  obtain ⟨programId, accounts, data⟩ := i
  have hprogram : programId = ed25519ProgramId :=
    Option.some.inj (h.program.symm.trans ha.program)
  have haccounts : accounts = [] := by
    have := h.accounts
    rw [ha.accounts] at this
    exact List.map_eq_nil_iff.mp this.symm
  have hdata : a.data = data := h.data
  rw [hprogram, haccounts, hdata]

/-- A message of two approvals and a call runs as these, the call last. -/
theorem instructions_of_stands {keys : List Pubkey} {a₁ a₂ k : CompiledInstruction}
    {tx : InstructionsSysvar} {accounts : List AccountMeta} {data : Bytes}
    (hstands : List.Forall₂ (CompiledInstruction.StandsFor keys) [a₁, a₂, k] tx.instructions)
    (ha₁ : a₁.IsApproval keys) (ha₂ : a₂.IsApproval keys)
    (hcall : tx.instructions[tx.currentIndex.toNat]? = some ⟨programId, accounts, data⟩) :
    tx.instructions = [⟨ed25519ProgramId, [], a₁.data⟩, ⟨ed25519ProgramId, [], a₂.data⟩,
        ⟨programId, accounts, data⟩] ∧
      tx.currentIndex.toNat = 2 ∧ k.StandsFor keys ⟨programId, accounts, data⟩ := by
  obtain ⟨i₁, is₁, hi₁, hrest₁, htx⟩ := List.forall₂_cons_left_iff.mp hstands
  obtain ⟨i₂, is₂, hi₂, hrest₂, rfl⟩ := List.forall₂_cons_left_iff.mp hrest₁
  obtain ⟨i₃, is₃, hi₃, hrest₃, rfl⟩ := List.forall₂_cons_left_iff.mp hrest₂
  obtain rfl := List.forall₂_nil_left_iff.mp hrest₃
  obtain rfl := hi₁.approval ha₁
  obtain rfl := hi₂.approval ha₂
  have hne : ed25519ProgramId ≠ programId := by decide
  have hlt := tx.current_lt
  rw [htx] at hcall hlt ⊢
  -- the instruction that runs is no approval, so it is the third
  match hcurrent : tx.currentIndex.toNat, hlt with
  | 0, _ =>
    rw [hcurrent] at hcall
    exact absurd (congrArg Instruction.programId (Option.some.inj hcall)) hne
  | 1, _ =>
    rw [hcurrent] at hcall
    exact absurd (congrArg Instruction.programId (Option.some.inj hcall)) hne
  | 2, _ =>
    rw [hcurrent] at hcall
    obtain rfl : i₃ = ⟨programId, accounts, data⟩ := Option.some.inj hcall
    exact ⟨rfl, rfl, hi₃⟩

/-- Two keypers approve a digest, and both approvals verify. -/
structure PairApproved (host : Host) (library : EvidenceLibrary) (keypers : Keypers)
    (digest : Bytes32) (a₁ a₂ : CompiledInstruction) (k₁ k₂ : Pubkey) : Prop where
  first : k₁ ∈ keypers.toList
  second : k₂ ∈ keypers.toList
  ne : k₁ ≠ k₂
  verified₁ : verifyEd25519Instruction host library ⟨ed25519ProgramId, [], a₁.data⟩ =
    .ok ⟨k₁, digest⟩
  verified₂ : verifyEd25519Instruction host library ⟨ed25519ProgramId, [], a₂.data⟩ =
    .ok ⟨k₂, digest⟩

/-- The approvals of a settlement that was carried out are of the digest that the program
rebuilds. -/
theorem SettlementExecuted.approved (h : SettlementExecuted host library settlement c compact c')
    (lawful : host.toRuntime.Lawful) {m : VersionedMessage} {inner : List UiInnerInstructions}
    {k : CompiledInstruction}
    (hseen : Seen settlement m inner 3 o.settlementKeys o.settlementAccounts k)
    (hepoch : c.EpochAt o.epoch e) (hpool : c.PoolAt e.pool p) :
    KagebInstruction.decode k.data = .ok (.settle compact) ∧
    ∃ a₁ a₂ k₁ k₂, m.instructions = [a₁, a₂, k] ∧ a₁.IsApproval m.staticAccountKeys ∧
      a₂.IsApproval m.staticAccountKeys ∧ PairApproved host library p.keypers
        ((Runtime.rebuildSettlement o.epoch p e compact).digest host.sha256) a₁ a₂ k₁ k₂ := by
  obtain ⟨m', tx, accounts, data, hm', hstands, hcall, hverified, hdecode, hok⟩ := h.ran
  cases hseen.message.symm.trans hm'
  obtain ⟨a₁, a₂, hinstructions, ha₁, ha₂⟩ := hseen.instructions
  rw [hinstructions] at hstands
  obtain ⟨htx, hcurrent, hk⟩ := instructions_of_stands hstands ha₁ ha₂ hcall
  obtain ⟨instruction, hdecode', hstep⟩ := Runtime.processInstruction_ok lawful hok
  cases hdecode.symm.trans hdecode'
  obtain ⟨pool, epoch, p', e', e'', hsettle⟩ := hstep.settleStep
  obtain rfl : o.epoch = epoch := by
    have haccounts : accounts.map (fun m => some m.key) = o.settlementAccounts.map some :=
      hk.accounts.symm.trans hseen.accounts
    have hkeys : accounts.map AccountMeta.key = o.settlementAccounts := by
      refine List.map_injective_iff.mpr (Option.some_injective _) ?_
      rw [List.map_map]
      exact haccounts
    have hnamed := hsettle.named
    rw [keyAt, ← List.getElem?_map, hkeys] at hnamed
    exact Option.some.inj hnamed
  obtain rfl := hsettle.valid.epochAt.unique hepoch
  obtain rfl := hsettle.valid.epochValid.pool_eq
  obtain rfl := hsettle.valid.poolAt.unique hpool
  obtain ⟨count, hcount, hle⟩ := hsettle.accepted.quorum
  rw [hsettle.valid.poolValid.settlementThreshold] at hle
  have hpreceding : tx.preceding =
      [⟨ed25519ProgramId, [], a₁.data⟩, ⟨ed25519ProgramId, [], a₂.data⟩] := by
    rw [InstructionsSysvar.preceding, hcurrent, htx]
    rfl
  obtain ⟨k₁, hk₁, k₂, hk₂, hne, happroves₁, happroves₂⟩ :=
    TwoApprove.pair (exists_two_approvers hcount hle) hpreceding
  refine ⟨hk.data ▸ hdecode, a₁, a₂, k₁, k₂, hinstructions, ha₁, ha₂, hk₁, hk₂, hne, ?_, ?_⟩
  · exact verifyEd25519Instruction_eq hverified (by simp [htx]) happroves₁
  · exact verifyEd25519Instruction_eq hverified (by simp [htx]) happroves₂

/-- The loop of the decoder on two approvals and the settlement that they approve. -/
theorem decodeInstructions_eq {keys : List Pubkey} {evidence : DevnetEvidenceContentV1}
    {epoch : Pubkey} (hevidence : evidence.Describes library.toKeyTexts epoch p e)
    {a₁ a₂ k : CompiledInstruction} {k₁ k₂ : Pubkey} {digest : Bytes32}
    (ha₁ : a₁.IsApproval keys) (ha₂ : a₂.IsApproval keys)
    (hk : keys[k.programIdIndex.toNat]? = some programId)
    (hdecode : KagebInstruction.decode k.data = .ok (.settle compact))
    (hdigest : (Runtime.rebuildSettlement epoch p e compact).digest host.sha256 = digest)
    (happroved : PairApproved host library p.keypers digest a₁ a₂ k₁ k₂) :
    [a₁, a₂, k].zipIdx.foldlM (decodeInstruction host library keys "settlement" evidence)
        ⟨[], none, ∅⟩ =
      .ok ⟨settlementEntries library.toKeyTexts digest p.baseMint [], some digest, {k₂, k₁}⟩ := by
  simp only [List.zipIdx_cons, List.zipIdx_nil, List.foldlM_cons, List.foldlM_nil]
  refine (bind_of_ok (decodeInstruction_approval ha₁.program happroved.verified₁ (by simp)
    (by simp)) _).trans ?_
  refine (bind_of_ok (decodeInstruction_approval ha₂.program happroved.verified₂
    (by simpa using happroved.ne.symm) (by simp)) _).trans ?_
  exact bind_of_ok (decodeInstruction_call hevidence hk hdecode (by simp) hdigest) _

/-- The decoder gets as far as the calls of the settlement. -/
theorem decodeKagebTransaction_eq {m : VersionedMessage} (hmessage : settlement.message = some m)
    {evidence : DevnetEvidenceContentV1} {epoch : Pubkey}
    (hevidence : evidence.Describes library.toKeyTexts epoch p e) {a₁ a₂ k : CompiledInstruction}
    {k₁ k₂ : Pubkey} {digest : Bytes32} (hinstructions : m.instructions = [a₁, a₂, k])
    (ha₁ : a₁.IsApproval m.staticAccountKeys) (ha₂ : a₂.IsApproval m.staticAccountKeys)
    (hk : m.staticAccountKeys[k.programIdIndex.toNat]? = some programId)
    (hdecode : KagebInstruction.decode k.data = .ok (.settle compact))
    (hdigest : (Runtime.rebuildSettlement epoch p e compact).digest host.sha256 = digest)
    (happroved : PairApproved host library p.keypers digest a₁ a₂ k₁ k₂) :
    decodeKagebTransaction host library settlement "settlement" evidence =
      decodeLegs library settlement m.staticAccountKeys 3 "settlement" evidence >>= fun legs =>
        .ok (settlementEntries library.toKeyTexts digest p.baseMint [] ++ legs) := by
  have hsigners : {k₂, k₁} ⊆ p.keypers.toList.toFinset := by
    intro signer hsigner
    rw [Finset.mem_insert, Finset.mem_singleton] at hsigner
    rw [List.mem_toFinset]
    rcases hsigner with rfl | rfl
    · exact happroved.second
    · exact happroved.first
  have hentries : ¬∃ entry ∈ settlementEntries library.toKeyTexts digest p.baseMint [],
      entry.digest ≠ some (hexDigest digest.bytes) := by
    simp [settlementEntries]
  rw [decodeKagebTransaction, hmessage]
  refine (bind_of_ok rfl _).trans ?_
  rw [hinstructions]
  refine (bind_of_ok (decodeInstructions_eq hevidence ha₁ ha₂ hk hdecode hdigest happroved) _).trans
    ((bind_of_ok rfl _).trans ?_)
  refine (rejectIf_bind_of_not hentries).trans ((bind_of_ok (mapM_keypers hevidence) _).trans ?_)
  refine (rejectIf_bind_of_not (not_not.mpr hsigners)).trans ?_
  rfl

/-- The decoder finds no calls where the observer has seen no leg. -/
theorem decodeLegs_none {statusMeta : UiTransactionStatusMeta} {keys : List Pubkey} {count : Nat}
    {evidence : DevnetEvidenceContentV1} (hmeta : settlement.statusMeta = some statusMeta)
    (hinner : statusMeta.innerInstructions.toList = []) :
    decodeLegs library settlement keys count "settlement" evidence = .error .invalidTransaction := by
  rw [decodeLegs, hmeta]
  refine (bind_of_ok rfl _).trans ?_
  cases hlist : statusMeta.innerInstructions with
  | some inner =>
    rw [hlist] at hinner
    obtain rfl : inner = [] := hinner
    rfl
  | none => rfl
  | skip => rfl

theorem decodeLegs_group {statusMeta : UiTransactionStatusMeta} {keys : List Pubkey}
    {evidence : DevnetEvidenceContentV1} {epoch : Pubkey}
    (hevidence : evidence.Describes library.toKeyTexts epoch p e)
    (hmeta : settlement.statusMeta = some statusMeta) {group : UiInnerInstructions}
    (hinner : statusMeta.innerInstructions.toList = [group]) (hindex : group.index = 2)
    {transfers : List Transfer} (hshown : List.Forall₂ (ShowsLeg lib keys) group.instructions
      (transfers.map Transfer.leg))
    (hmints : ∀ t ∈ transfers, t.mint = p.baseMint ∨ t.mint = p.quoteMint)
    (hstop : 3 + transfers.length ≤ 2 ^ 16) :
    decodeLegs library settlement keys 3 "settlement" evidence =
      .ok ((transfers.zipIdx 3).map (legEntry library.toKeyTexts p.baseMint)) := by
  have hsome : statusMeta.innerInstructions = .some [group] := by
    cases hlist : statusMeta.innerInstructions with
    | some inner =>
      rw [hlist] at hinner
      exact congrArg _ hinner
    | none =>
      rw [hlist] at hinner
      cases hinner
    | skip =>
      rw [hlist] at hinner
      cases hinner
  have hfind : [group].find? (fun group => group.index = 2) = some group := by simp [hindex]
  rw [decodeLegs, hmeta]
  refine (bind_of_ok rfl _).trans ?_
  rw [hsome]
  refine (bind_of_ok (congrArg (okOr · _) hfind) _).trans ?_
  exact mapM_decodeLeg hevidence hshown hmints hstop

theorem settlementTransfers_mint {a : SettleAccounts} {side : UInt8} {base quote : UInt64}
    {t : Transfer} (ht : t ∈ settlementTransfers a side base quote) :
    t.mint = a.baseMint ∨ t.mint = a.quoteMint := by
  unfold settlementTransfers at ht
  split_ifs at ht
  · rw [List.mem_cons, List.mem_singleton] at ht
    rcases ht with rfl | rfl
    · exact .inr rfl
    · exact .inl rfl
  · rw [List.mem_cons, List.mem_singleton] at ht
    rcases ht with rfl | rfl
    · exact .inl rfl
    · exact .inr rfl
  · cases ht

theorem settlementTransfers_length (a : SettleAccounts) {side : UInt8} {lots : UInt32}
    (hvalid : validResidual side lots = true) (base quote : UInt64) :
    (settlementTransfers a side base quote).length = if side = 0 then 0 else 2 := by
  rcases validResidual_side hvalid with rfl | rfl | rfl <;> rfl

/-- The calls of a settlement, as the decoder reads them: an entry for each transfer, and an error
where there are none. -/
theorem decodeLegs_eq {statusMeta : UiTransactionStatusMeta} {keys : List Pubkey}
    {evidence : DevnetEvidenceContentV1} {epoch : Pubkey}
    (hevidence : evidence.Describes library.toKeyTexts epoch p e)
    (hmeta : settlement.statusMeta = some statusMeta)
    (hlisted : ∀ group ∈ statusMeta.innerInstructions.toList, group.instructions ≠ [])
    {transfers : List Transfer}
    (hshown : ShowsLegs lib keys 2 statusMeta.innerInstructions.toList (transfers.map Transfer.leg))
    (hmints : ∀ t ∈ transfers, t.mint = p.baseMint ∨ t.mint = p.quoteMint)
    (hstop : transfers.length ≤ 2) :
    decodeLegs library settlement keys 3 "settlement" evidence =
      if transfers = [] then .error .invalidTransaction
      else .ok ((transfers.zipIdx 3).map (legEntry library.toKeyTexts p.baseMint)) := by
  obtain ⟨hinner, hnone⟩ | ⟨group, hinner, hindex, hlegs⟩ := hshown
  · rw [if_pos (List.map_eq_nil_iff.mp hnone)]
    exact decodeLegs_none hmeta hinner
  · have hne : transfers ≠ [] := by
      rintro rfl
      exact hlisted group (hinner ▸ List.mem_singleton_self group)
        (List.forall₂_nil_right_iff.mp hlegs)
    rw [if_neg hne]
    exact decodeLegs_group hevidence hmeta hinner hindex hlegs hmints (by omega)

/-- The observer has accepted a settlement that was carried out. The decoder of a bundle accepts it
too, with two approvals, the aggregate settlement and an entry for each transfer, exactly if the
residual is not zero. -/
theorem decoders_agree_iff (lawful : host.toRuntime.Lawful) {lock : ConfirmedTransaction}
    {trace : PublicTrace}
    (haccepted : PublicTrace.fromConfirmedKageb lib lock settlement o = .ok trace)
    (hexecuted : SettlementExecuted host library settlement c compact c')
    (hepoch : c.EpochAt o.epoch e) (hpool : c.PoolAt e.pool p)
    (hdeclared : o.Declares host.toRuntime p e) {evidence : DevnetEvidenceContentV1}
    (hevidence : evidence.Describes library.toKeyTexts o.epoch p e) :
    ∃ transfers, residualTransfers o.toSettleAccounts e.baseLotAtoms e.quoteAtomsPerLot
        compact.residualSide compact.residualLots = .ok transfers ∧
      (decodeKagebTransaction host library settlement "settlement" evidence =
          .ok (settlementEntries library.toKeyTexts
            ((Runtime.rebuildSettlement o.epoch p e compact).digest host.sha256) p.baseMint
            transfers) ↔
        compact.residualSide ≠ 0) ∧
      (compact.residualSide = 0 →
        decodeKagebTransaction host library settlement "settlement" evidence =
          .error .invalidTransaction) := by
  obtain ⟨-, m, inner, k, compact', residual, legs, hseen, hsettles⟩ :=
    fromConfirmedKageb_ok haccepted
  obtain ⟨hdecode, a₁, a₂, k₁, k₂, hinstructions, ha₁, ha₂, happroved⟩ :=
    hexecuted.approved lawful hseen hepoch hpool
  cases hsettles.payload.symm.trans hdecode
  obtain ⟨statusMeta, hmeta, -, -, rfl⟩ := hseen.succeeded
  -- what the observer demands are the transfers of the program
  obtain ⟨base, quote, hmoves, rfl⟩ := expectedLegs_ok.mp hsettles.expected
  have hshown := hsettles.shown
  rw [hsettles.wire] at hmoves hshown
  rw [hdeclared.baseLotAtoms, hdeclared.quoteAtomsPerLot] at hmoves
  have hvalid := exists_residual.mp ⟨residual, hsettles.proper, hsettles.wire⟩
  have hlength := settlementTransfers_length o.toSettleAccounts hvalid base quote
  refine ⟨_, residualTransfers_ok.mpr ⟨hvalid, base, quote, hmoves, rfl⟩, ?_⟩
  generalize htransfers : settlementTransfers o.toSettleAccounts compact.residualSide base quote =
    transfers at hshown hlength ⊢
  have hmints : ∀ t ∈ transfers, t.mint = p.baseMint ∨ t.mint = p.quoteMint := by
    intro t ht
    rw [← htransfers, hdeclared.accounts] at ht
    exact settlementTransfers_mint ht
  have hlegs := decodeLegs_eq hevidence hmeta (hexecuted.listed statusMeta hmeta) hshown hmints
    (by rw [hlength]; split_ifs <;> omega)
  rw [decodeKagebTransaction_eq hseen.message hevidence hinstructions ha₁ ha₂ hseen.program.program
    hdecode rfl happroved, hlegs]
  by_cases hzero : compact.residualSide = 0
  · rw [if_pos hzero, List.length_eq_zero_iff] at hlength
    rw [if_pos hlength]
    refine ⟨?_, fun _ => rfl⟩
    constructor
    · intro h
      cases h
    · exact fun hne => absurd hzero hne
  · rw [if_neg hzero] at hlength
    rw [if_neg (List.ne_nil_of_length_pos (by omega))]
    exact ⟨⟨fun _ => hzero, fun _ => rfl⟩, fun h => absurd h hzero⟩

end Executed

namespace Sample

/-- Keys in hexadecimal, and the signatures of the sample keypers. -/
def evidenceLibrary : EvidenceLibrary where
  fromStr text := (parseDigest text).toOption
  toText key := hexDigest key.bytes
  verifyStrict key message signature := signature.bytes = sign key.bytes message

def settlementEvidence : DevnetEvidenceContentV1 where
  accounts :=
    { epoch := hexDigest epoch.bytes
      vaultAuthority := hexDigest vaultAuthority.bytes
      baseMint := hexDigest baseMint.bytes
      quoteMint := hexDigest quoteMint.bytes
      poolBaseVault := hexDigest baseVault.bytes
      poolQuoteVault := hexDigest quoteVault.bytes
      venueAuthority := hexDigest venueAuthority.bytes
      venueBaseAccount := hexDigest venueBase.bytes
      venueQuoteAccount := hexDigest venueQuote.bytes }
  configuration :=
    { keypers := #v[hexDigest keypers.first.bytes, hexDigest keypers.second.bytes,
        hexDigest keypers.third.bytes]
      baseLotAtoms := 10
      quoteAtomsPerLot := 100 }
  commitments := { lockDigest := hexDigest lockedEpoch.lockDigest.bytes }
  tokenBalances := ⟨50, 70, 900, 700, 70, 50, 800, 1000⟩

/-- The digest that two keypers sign for a settlement of the sample epoch. -/
def sentDigest (compact : CompactSettlementPayload) : Bytes32 :=
  (Runtime.rebuildSettlement epoch poolState lockedEpoch compact).digest sha256

def sentTx (compact : CompactSettlementPayload) : InstructionsSysvar where
  instructions := [approval keypers.second (sentDigest compact),
    approval keypers.third (sentDigest compact),
    ⟨programId, settleAccounts, (KagebInstruction.settle compact).encode⟩]
  currentIndex := 2
  current_lt := by simp

def sentSettlement (compact : CompactSettlementPayload) (inner : List UiInnerInstructions) :
    ConfirmedTransaction where
  statusMeta := some (succeeded inner)
  message := some (.legacy settlementStaticKeys
    [compiledApproval 14 keypers.second (sentDigest compact),
      compiledApproval 14 keypers.third (sentDigest compact),
      ⟨15, [0, 1, 2, 3, 4, 5, 6, 7, 8, 9, 10, 11, 12, 13],
        (KagebInstruction.settle compact).encode⟩])

/-- As many buyers as sellers. -/
def balanced : CompactSettlementPayload := { compact with residualSide := 0, residualLots := 0 }

/-- The locked epoch and its pool, what the sample settlements do there and what is said of them,
evaluated once. -/
theorem sent_facts :
    ((∀ sent ∈ [compact, balanced], (host.processInstruction (sentTx sent) lockChain programId
        settleAccounts (KagebInstruction.settle sent).encode).toOption.isSome) ∧
      Precompile (evidenceLibrary.Verifies host) (sentTx compact) ∧
      Precompile (evidenceLibrary.Verifies host) (sentTx balanced)) ∧
    ((lockChain epoch).owner = programId ∧ (lockChain epoch).data = lockedEpoch.encode ∧
      (lockChain lockedEpoch.pool).owner = programId ∧
      (lockChain lockedEpoch.pool).data = poolState.encode) ∧
    ((PublicTrace.fromConfirmedKageb rpcLibrary confirmedLock
        (sentSettlement compact settlementInner) observed).toOption.isSome ∧
      (PublicTrace.fromConfirmedKageb rpcLibrary confirmedLock (sentSettlement balanced [])
        observed).toOption.isSome ∧
      errorOf (decodeKagebTransaction host evidenceLibrary (sentSettlement balanced [])
        "settlement" settlementEvidence) = some .invalidTransaction) ∧
    (parseDigest settlementEvidence.commitments.lockDigest).toOption =
      some lockedEpoch.lockDigest ∧
    settlementEvidence.configuration.keypers.toList.map evidenceLibrary.fromStr =
      keypers.toList.map some ∧
    ([settlementEvidence.accounts.epoch, settlementEvidence.accounts.baseMint,
        settlementEvidence.accounts.quoteMint, settlementEvidence.accounts.poolBaseVault,
        settlementEvidence.accounts.poolQuoteVault, settlementEvidence.accounts.venueBaseAccount,
        settlementEvidence.accounts.venueQuoteAccount,
        settlementEvidence.accounts.venueAuthority].map evidenceLibrary.fromStr) =
      [epoch, poolState.baseMint, poolState.quoteMint, poolState.poolBaseVault,
        poolState.poolQuoteVault, poolState.venueBaseAccount, poolState.venueQuoteAccount,
        poolState.venueAuthority].map some := by
  unfold Precompile
  decide +kernel

theorem settlementEvidence_describes :
    settlementEvidence.Describes evidenceLibrary.toKeyTexts epoch poolState lockedEpoch := by
  obtain ⟨-, -, -, hdigest, hkeypers, haccounts⟩ := sent_facts
  simp only [List.map_cons, List.map_nil, List.cons.injEq, and_true] at haccounts
  obtain ⟨hepoch, hbaseMint, hquoteMint, hbaseVault, hquoteVault, hvenueBase, hvenueQuote,
    hauthority⟩ := haccounts
  exact ⟨hepoch, eq_ok_of_toOption hdigest, hbaseMint, hquoteMint, hbaseVault, hquoteVault,
    hvenueBase, hvenueQuote, hauthority, rfl, rfl, hkeypers⟩

theorem sent_executed {sent : CompactSettlementPayload} {inner : List UiInnerInstructions}
    (hrun : (host.processInstruction (sentTx sent) lockChain programId settleAccounts
      (KagebInstruction.settle sent).encode).toOption.isSome)
    (hverified : Precompile (evidenceLibrary.Verifies host) (sentTx sent))
    (hlisted : ∀ group ∈ inner, group.instructions ≠ []) :
    ∃ c', SettlementExecuted host evidenceLibrary (sentSettlement sent inner) lockChain sent c' := by
  refine ⟨_, ⟨_, sentTx sent, settleAccounts, _, rfl, ?_, rfl, hverified,
    KagebInstruction.decode_encode _, eq_ok_of_isSome lockChain hrun⟩, ?_⟩
  · refine .cons ⟨rfl, rfl, rfl⟩ (.cons ⟨rfl, rfl, rfl⟩ (.cons ⟨rfl, ?_, rfl⟩ .nil))
    rfl
  · rintro _ ⟨⟩
    exact hlisted

end Sample

open Sample in
theorem decoders_agree_one_sided : ∃ transfers : List Transfer, transfers.length = 2 ∧
    decodeKagebTransaction host evidenceLibrary (sentSettlement compact settlementInner)
        "settlement" settlementEvidence =
      .ok (settlementEntries evidenceLibrary.toKeyTexts (sentDigest compact) baseMint transfers) := by
  obtain ⟨⟨hruns, hverified, -⟩, ⟨hepoch, hepochData, hpool, hpoolData⟩, ⟨haccepted, -⟩, -⟩ :=
    sent_facts
  obtain ⟨c', hexecuted⟩ := sent_executed (hruns compact (by simp)) hverified
    (by decide : ∀ group ∈ settlementInner, group.instructions ≠ [])
  obtain ⟨transfers, htransfers, hiff, -⟩ := decoders_agree_iff host_lawful
    (eq_ok_of_isSome ⟨[]⟩ haccepted) hexecuted ⟨hepoch, hepochData⟩ ⟨hpool, hpoolData⟩
    ⟨rfl, rfl, rfl⟩ settlementEvidence_describes
  obtain ⟨hvalid, base, quote, -, rfl⟩ := residualTransfers_ok.mp htransfers
  exact ⟨_, settlementTransfers_length _ hvalid base quote, hiff.mpr (by decide)⟩

open Sample in
/-- A settlement without a residual is carried out and accepted by the observer, and the decoder
refuses it. -/
theorem balanced_settlement_refused :
    (∃ c', SettlementExecuted host evidenceLibrary (sentSettlement balanced []) lockChain balanced
      c') ∧
    (∃ trace, PublicTrace.fromConfirmedKageb rpcLibrary confirmedLock (sentSettlement balanced [])
      observed = .ok trace) ∧
    settlementEvidence.Describes evidenceLibrary.toKeyTexts epoch poolState lockedEpoch ∧
    decodeKagebTransaction host evidenceLibrary (sentSettlement balanced []) "settlement"
      settlementEvidence = .error .invalidTransaction := by
  obtain ⟨⟨hruns, -, hverified⟩, -, ⟨-, haccepted, hrefused⟩, -⟩ := sent_facts
  exact ⟨sent_executed (hruns balanced (by simp)) hverified (by simp),
    ⟨_, eq_ok_of_isSome ⟨[]⟩ haccepted⟩, settlementEvidence_describes,
    eq_error_of_errorOf hrefused⟩

end Kageb
