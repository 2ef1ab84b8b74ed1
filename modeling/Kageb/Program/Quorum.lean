import Kageb.Program.Invariant
import Kageb.Program.Layout

/-! The quorum of keypers: what the counting loop counts, and what a successful lock or settlement
says about signatures. -/

namespace Kageb

open Binary Checks Runs

/-- The instruction is a strict approval of `digest` by `keyper`. -/
def approves (digest : Bytes32) (keyper : Pubkey) (instruction : Instruction) : Bool :=
  match parseStrictEd25519 instruction with
  | .ok parsed => parsed.digest = digest && parsed.signer = keyper
  | .error _ => false

theorem approves_eq_true {digest : Bytes32} {keyper : Pubkey} {instruction : Instruction} :
    approves digest keyper instruction = true ↔
      parseStrictEd25519 instruction = .ok { signer := keyper, digest } := by
  unfold approves
  cases parseStrictEd25519 instruction with
  | error e => simp
  | ok parsed =>
    obtain ⟨signer, digest'⟩ := parsed
    simp [and_comm]

/-- The configured keypers that approve `digest` in a list of instructions. -/
def approvers (instructions : List Instruction) (keypers : Keypers) (digest : Bytes32) :
    Finset Pubkey :=
  keypers.toList.toFinset.filter fun keyper => ∃ i ∈ instructions, approves digest keyper i = true

/-- The instructions in front of the running one. -/
def InstructionsSysvar.preceding (tx : InstructionsSysvar) : List Instruction :=
  tx.instructions.take tx.currentIndex.toNat

/-! ### The loop -/

/-- The places of `[bool; 3]` that a list of instructions sets: a key that is configured twice
counts where it stands first. -/
def Matched.add (m : Matched) (instructions : List Instruction) (keypers : Keypers)
    (digest : Bytes32) : Matched where
  first := m.first || instructions.any (approves digest keypers.first)
  second := m.second ||
    (keypers.second ≠ keypers.first && instructions.any (approves digest keypers.second))
  third := m.third || (keypers.third ≠ keypers.first && keypers.third ≠ keypers.second &&
    instructions.any (approves digest keypers.third))

theorem Matched.add_nil (m : Matched) (keypers : Keypers) (digest : Bytes32) :
    m.add [] keypers digest = m := by
  simp [Matched.add]

theorem Matched.add_cons (m : Matched) (i : Instruction) (is : List Instruction)
    (keypers : Keypers) (digest : Bytes32) :
    m.add (i :: is) keypers digest = (m.add [i] keypers digest).add is keypers digest := by
  simp [Matched.add, Bool.or_assoc, Bool.and_or_distrib_left]

/-- A strict approval by `signer` sets the place where `signer` stands first. -/
theorem Matched.add_signer (m : Matched) {i : Instruction} (keypers : Keypers) {digest : Bytes32}
    {signer : Pubkey} (h : ∀ k, approves digest k i = decide (signer = k)) :
    m.add [i] keypers digest =
      if signer = keypers.first then m.set 0
      else if signer = keypers.second then m.set 1
      else if signer = keypers.third then m.set 2
      else m := by
  simp only [Matched.add, List.any_cons, List.any_nil, Bool.or_false, h]
  by_cases h1 : signer = keypers.first
  · subst h1
    have hdiff : ∀ k : Pubkey, (decide (k ≠ keypers.first) && decide (keypers.first = k)) = false := by
      intro k
      by_cases hk : k = keypers.first
      · simp [hk]
      · simp [Ne.symm hk]
    have hdiff' : (decide (keypers.third ≠ keypers.first) &&
        decide (keypers.third ≠ keypers.second) && decide (keypers.first = keypers.third)) =
          false := by
      rw [Bool.and_assoc, Bool.and_left_comm, hdiff, Bool.and_false]
    simp only [hdiff, hdiff', decide_true, Bool.or_true, Bool.or_false, if_true, Matched.set]
  · by_cases h2 : signer = keypers.second
    · subst h2
      have hdiff : (decide (keypers.third ≠ keypers.first) &&
          decide (keypers.third ≠ keypers.second) && decide (keypers.second = keypers.third)) =
            false := by
        by_cases hk : keypers.third = keypers.second
        · simp [hk]
        · simp [Ne.symm hk]
      simp only [hdiff, h1, ne_eq, not_false_eq_true, decide_true, decide_false, Bool.and_self,
        Bool.or_true, Bool.or_false, if_true, if_false, Matched.set]
    · by_cases h3 : signer = keypers.third
      · subst h3
        simp [h1, h2, Matched.set]
      · simp [h1, h2, h3]

theorem noteApproval_eq (keypers : Keypers) (digest : Bytes32) (m : Matched) (i : Instruction) :
    noteApproval keypers digest m i = m.add [i] keypers digest := by
  unfold noteApproval
  cases hparse : parseStrictEd25519 i with
  | error e => simp [Matched.add, approves, hparse]
  | ok parsed =>
    by_cases hdigest : parsed.digest = digest
    case neg => simp [Matched.add, approves, hparse, hdigest]
    have happroves : ∀ k, approves digest k i = decide (parsed.signer = k) := by
      intro k
      simp [approves, hparse, hdigest]
    rw [m.add_signer keypers happroves]
    simp only [hdigest, ne_eq, not_true_eq_false, if_false, Keypers.toList, List.findIdx?_cons,
      List.findIdx?_nil]
    by_cases h1 : parsed.signer = keypers.first
    · simp [h1]
    · by_cases h2 : parsed.signer = keypers.second
      · simp [h1, Ne.symm h1, h2.symm]
      · by_cases h3 : parsed.signer = keypers.third
        · simp [h1, Ne.symm h1, h2, Ne.symm h2, h3.symm]
        · simp [h1, Ne.symm h1, h2, Ne.symm h2, h3, Ne.symm h3]

theorem foldl_noteApproval (is : List Instruction) (keypers : Keypers) (digest : Bytes32)
    (m : Matched) : is.foldl (noteApproval keypers digest) m = m.add is keypers digest := by
  induction is generalizing m with
  | nil => exact (m.add_nil keypers digest).symm
  | cons i is ih => rw [List.foldl_cons, ih, noteApproval_eq, ← Matched.add_cons]

theorem mem_approvers {is : List Instruction} {keypers : Keypers} {digest : Bytes32}
    {keyper : Pubkey} : keyper ∈ approvers is keypers digest ↔
      keyper ∈ keypers.toList ∧ ∃ i ∈ is, approves digest keyper i = true := by
  simp [approvers]

/-- The three places count each approving key once. -/
theorem card_approvers (is : List Instruction) (keypers : Keypers) (digest : Bytes32) :
    (approvers is keypers digest).card =
      [is.any (approves digest keypers.first),
        decide (keypers.second ≠ keypers.first) && is.any (approves digest keypers.second),
        decide (keypers.third ≠ keypers.first) && decide (keypers.third ≠ keypers.second) &&
          is.any (approves digest keypers.third)].count true := by
  have hany : ∀ k, (∃ i ∈ is, approves digest k i = true) ↔ is.any (approves digest k) = true := by
    intro k
    simp
  unfold approvers
  simp only [hany]
  obtain ⟨a, b, d⟩ := keypers
  generalize hf : (fun k => is.any (approves digest k)) = f
  have hf' : ∀ k, is.any (approves digest k) = f k := fun k => congrFun hf k
  simp only [hf', Keypers.toList, List.toFinset_cons, List.toFinset_nil,
    insert_empty_eq]
  by_cases hba : b = a
  · subst hba
    by_cases hdb : d = b
    · subst hdb
      cases hd : f d <;> simp [Finset.filter_singleton, hd]
    · cases hb : f b <;> cases hd : f d <;>
        simp [Finset.filter_insert, Finset.filter_singleton, hb, hd, hdb, Ne.symm hdb]
  · by_cases hda : d = a
    · subst hda
      cases hb : f b <;> cases hd : f d <;>
        simp [Finset.filter_insert, Finset.filter_singleton, hb, hd, hba]
    · by_cases hdb : d = b
      · subst hdb
        cases ha : f a <;> cases hd : f d <;>
          simp [Finset.filter_insert, Finset.filter_singleton, ha, hd, hba, Ne.symm hba]
      · cases ha : f a <;> cases hb : f b <;> cases hd : f d <;>
          simp [Finset.filter_insert, Finset.filter_singleton, ha, hb, hd, hba, Ne.symm hba, hda,
            Ne.symm hda, hdb, Ne.symm hdb]

theorem countMatchingKeypers_eq (is : List Instruction) (keypers : Keypers) (digest : Bytes32) :
    countMatchingKeypers is keypers digest = UInt8.ofNat (approvers is keypers digest).card := by
  rw [countMatchingKeypers, foldl_noteApproval, card_approvers]
  simp only [Matched.count, Matched.add, Matched.none, Bool.false_or]

theorem card_approvers_le (is : List Instruction) (keypers : Keypers) (digest : Bytes32) :
    (approvers is keypers digest).card ≤ 3 := by
  calc (approvers is keypers digest).card
      ≤ keypers.toList.toFinset.card := Finset.card_filter_le _ _
    _ ≤ keypers.toList.length := List.toFinset_card_le _

/-- The loop over the sysvar is the loop over the instructions in front. -/
theorem countPrecedingKeypers_eq (tx : InstructionsSysvar) (keypers : Keypers)
    (digest : Bytes32) : countPrecedingKeypers tx keypers digest =
      .ok (countMatchingKeypers tx.preceding keypers digest) := by
  have hloop : ∀ n, n ≤ tx.instructions.length →
      (List.range n).foldlM (fun matched index => do
        let instruction ← tx.loadInstructionAtChecked index
        .ok (noteApproval keypers digest matched instruction)) Matched.none =
      (.ok ((tx.instructions.take n).foldl (noteApproval keypers digest) Matched.none) :
        Except ProgramError Matched) := by
    intro n
    induction n with
    | zero => exact fun _ => rfl
    | succ n ih =>
      intro hn
      have hget : tx.instructions[n]? = some tx.instructions[n] := List.getElem?_eq_getElem (by omega)
      rw [List.range_succ, List.foldlM_append, ih (by omega), List.take_add_one, hget,
        Option.toList_some, List.foldl_append]
      simp [InstructionsSysvar.loadInstructionAtChecked, hget, okOr, Bind.bind, Except.bind,
        Pure.pure, Except.pure]
  unfold countPrecedingKeypers
  rw [hloop _ tx.current_lt.le]
  rfl

/-- Only the approvals of configured keypers matter, and only which of them there are. -/
theorem approvers_congr {is js : List Instruction} {keypers : Keypers} {digest : Bytes32}
    (h : ∀ i, (∃ k ∈ keypers.toList, approves digest k i = true) → (i ∈ is ↔ i ∈ js)) :
    approvers is keypers digest = approvers js keypers digest := by
  ext keyper
  rw [mem_approvers, mem_approvers]
  refine and_congr_right fun hk => ⟨?_, ?_⟩
  · rintro ⟨i, hi, happroves⟩
    exact ⟨i, (h i ⟨keyper, hk, happroves⟩).mp hi, happroves⟩
  · rintro ⟨i, hi, happroves⟩
    exact ⟨i, (h i ⟨keyper, hk, happroves⟩).mpr hi, happroves⟩

/-! ### Signatures -/

def wordAt (data : Bytes) (offset : Nat) : Nat := leValue (slice data offset (offset + 2))

/-- The bytes that an entry of an offset table names: those of the instruction itself at the index
`u16::MAX`, else those of the instruction at that index. -/
def InstructionsSysvar.range (tx : InstructionsSysvar) (i : Instruction)
    (index offset size : Nat) : Bytes :=
  let data :=
    if index = 0xffff then i.data else (tx.instructions[index]?.map (·.data)).getD []
  slice data offset (offset + size)

/-- What the Ed25519 verifier guarantees of a transaction that runs: the key, the signature and the
message that each entry of an offset table names verify. -/
def Precompile (verify : Bytes → Bytes → Bytes → Prop) (tx : InstructionsSysvar) : Prop :=
  ∀ i ∈ tx.instructions, i.programId = ed25519ProgramId →
    ∀ entry < (i.data[0]?.getD 0).toNat,
      verify
        (tx.range i (wordAt i.data (14 * entry + 8)) (wordAt i.data (14 * entry + 6)) 32)
        (tx.range i (wordAt i.data (14 * entry + 4)) (wordAt i.data (14 * entry + 2)) 64)
        (tx.range i (wordAt i.data (14 * entry + 14)) (wordAt i.data (14 * entry + 10))
          (wordAt i.data (14 * entry + 12)))

theorem requireU16_ok {data : Bytes} {offset : Nat} {value : UInt16}
    (h : requireU16 data offset value = .ok ()) : wordAt data offset = value.toNat := by
  simp only [requireU16, readU16, bind_ok, Unique.exists_iff, rejectIf_eq_ok, not_not, not_lt,
    Except.ok.injEq] at h
  obtain ⟨word, ⟨hlen, hword⟩, hvalue⟩ := h
  have hslice : (slice data offset (offset + 2)).length = 2 := by simp [slice]; omega
  have hlt : leValue (slice data offset (offset + 2)) < 2 ^ 16 := by
    have := leValue_lt (slice data offset (offset + 2))
    rw [hslice] at this
    exact this
  rw [wordAt, ← hvalue, ← hword, UInt16.toNat_ofNat_of_lt' hlt]

/-- The key, the signature and the message of a strict approval all lie in the instruction. -/
structure StrictLayout (i : Instruction) (keyper : Pubkey) (digest : Bytes32) : Prop where
  programId : i.programId = ed25519ProgramId
  count : i.data[0]? = some 1
  signatureOffset : wordAt i.data 2 = 48
  signatureIndex : wordAt i.data 4 = 0xffff
  keyOffset : wordAt i.data 6 = 16
  keyIndex : wordAt i.data 8 = 0xffff
  messageOffset : wordAt i.data 10 = 112
  messageSize : wordAt i.data 12 = 32
  messageIndex : wordAt i.data 14 = 0xffff
  key : slice i.data 16 48 = keyper.bytes
  message : slice i.data 112 144 = digest.bytes

theorem approves_layout {i : Instruction} {keyper : Pubkey} {digest : Bytes32}
    (h : approves digest keyper i = true) : StrictLayout i keyper digest := by
  have hparse := approves_eq_true.mp h
  simp only [parseStrictEd25519, bind_ok, Unique.exists_iff, rejectIf_eq_ok, not_or, not_not,
    okOr_eq_ok, ByteVec.ofBytes?_eq_some, Except.ok.injEq, StrictEd25519.mk.injEq] at hparse
  obtain ⟨⟨hprogram, -, -, hcount, -⟩, h2, h4, h6, h8, h10, h12, h14, signer, hsigner, digest',
    hdigest, rfl, rfl⟩ := hparse
  exact ⟨hprogram, hcount, requireU16_ok h2, requireU16_ok h4, requireU16_ok h6, requireU16_ok h8,
    requireU16_ok h10, requireU16_ok h12, requireU16_ok h14, hsigner, hdigest⟩

/-- A strict approval in a transaction that runs carries a signature of its keyper. -/
theorem Precompile.signed {verify : Bytes → Bytes → Bytes → Prop} {tx : InstructionsSysvar}
    (h : Precompile verify tx) {i : Instruction} (hi : i ∈ tx.instructions) {keyper : Pubkey}
    {digest : Bytes32} (happroves : approves digest keyper i = true) :
    verify keyper.bytes (slice i.data 48 112) digest.bytes := by
  have hlayout := approves_layout happroves
  have hentry := h i hi hlayout.programId 0 (by simp [hlayout.count])
  simp only [Nat.mul_zero, Nat.zero_add, InstructionsSysvar.range, hlayout.keyIndex,
    hlayout.keyOffset, hlayout.signatureIndex, hlayout.signatureOffset, hlayout.messageIndex,
    hlayout.messageOffset, hlayout.messageSize, if_true] at hentry
  rw [← hlayout.key, ← hlayout.message]
  exact hentry

/-- Two different keypers of the pool signed `digest` in front of the running instruction. -/
def TwoSigned (verify : Bytes → Bytes → Bytes → Prop) (tx : InstructionsSysvar)
    (keypers : Keypers) (digest : Bytes32) : Prop :=
  ∃ k₁ ∈ keypers.toList, ∃ k₂ ∈ keypers.toList, k₁ ≠ k₂ ∧
    ∃ i₁ ∈ tx.preceding, ∃ i₂ ∈ tx.preceding,
      verify k₁.bytes (slice i₁.data 48 112) digest.bytes ∧
      verify k₂.bytes (slice i₂.data 48 112) digest.bytes

/-- A count of two comes from two different keypers. -/
theorem exists_two_approvers {tx : InstructionsSysvar} {keypers : Keypers} {digest : Bytes32}
    {count : UInt8} (hcount : countPrecedingKeypers tx keypers digest = .ok count)
    (htwo : 2 ≤ count) :
    ∃ k₁ ∈ keypers.toList, ∃ k₂ ∈ keypers.toList, k₁ ≠ k₂ ∧
      (∃ i ∈ tx.preceding, approves digest k₁ i = true) ∧
      ∃ i ∈ tx.preceding, approves digest k₂ i = true := by
  rw [countPrecedingKeypers_eq, countMatchingKeypers_eq] at hcount
  cases hcount
  have hle := card_approvers_le tx.preceding keypers digest
  have hcard : 1 < (approvers tx.preceding keypers digest).card := by
    have h := UInt8.le_iff_toNat_le.mp htwo
    rw [UInt8.toNat_ofNat_of_lt' (lt_of_le_of_lt hle (by decide))] at h
    exact h
  obtain ⟨k₁, hk₁, k₂, hk₂, hne⟩ := Finset.one_lt_card.mp hcard
  obtain ⟨hmem₁, happroves₁⟩ := mem_approvers.mp hk₁
  obtain ⟨hmem₂, happroves₂⟩ := mem_approvers.mp hk₂
  exact ⟨k₁, hmem₁, k₂, hmem₂, hne, happroves₁, happroves₂⟩

theorem twoSigned_of_count {verify : Bytes → Bytes → Bytes → Prop} {tx : InstructionsSysvar}
    (hverified : Precompile verify tx) {keypers : Keypers} {digest : Bytes32} {count : UInt8}
    (hcount : countPrecedingKeypers tx keypers digest = .ok count) (htwo : 2 ≤ count) :
    TwoSigned verify tx keypers digest := by
  obtain ⟨k₁, hmem₁, k₂, hmem₂, hne, ⟨i₁, hi₁, happroves₁⟩, i₂, hi₂, happroves₂⟩ :=
    exists_two_approvers hcount htwo
  exact ⟨k₁, hmem₁, k₂, hmem₂, hne, i₁, hi₁, i₂, hi₂,
    hverified.signed (List.mem_of_mem_take hi₁) happroves₁,
    hverified.signed (List.mem_of_mem_take hi₂) happroves₂⟩

/-! ### Approved steps -/

/-- A successful lock or settlement of `epoch`, and the message whose digest its keypers approve. -/
inductive Runtime.Accepts (rt : Runtime) (tx : InstructionsSysvar) (c : Chain)
    (accounts : List AccountMeta) (data : Bytes) (c' : Chain) (epoch : Pubkey) :
    EpochTerminalState → Bytes → Prop
  | lock {payload : LockPayloadV1}
      (ok : rt.processInstruction tx c programId accounts data = .ok c')
      (decoded : KagebInstruction.decode data = .ok (.lock payload))
      (named : keyAt accounts 2 = some epoch) :
      Accepts rt tx c accounts data c' epoch .locked payload.message
  | settle {compact : CompactSettlementPayload} {p : PoolStateV1} {e : EpochStateV1}
      (ok : rt.processInstruction tx c programId accounts data = .ok c')
      (decoded : KagebInstruction.decode data = .ok (.settle compact))
      (named : keyAt accounts 2 = some epoch) (epochAt : c.EpochAt epoch e)
      (poolAt : c.PoolAt e.pool p) :
      Accepts rt tx c accounts data c' epoch .settled
        (Runtime.rebuildSettlement epoch p e compact).message

/-- The digest that an epoch stores for its lock or for its settlement. -/
def EpochStateV1.storedDigest (e : EpochStateV1) : EpochTerminalState → Bytes32
  | .settled => e.settlementDigest
  | _ => e.lockDigest

section Accepted

variable {rt : Runtime} {tx : InstructionsSysvar} {c c' : Chain} {accounts : List AccountMeta}
  {data : Bytes} {epoch : Pubkey} {state : EpochTerminalState} {message : Bytes}

/-- A lock has the signatures of two keypers over the digest that it stores. -/
theorem Runtime.Step.lock_twoSigned {verify : Bytes → Bytes → Bytes → Prop}
    (hverified : Precompile verify tx) {payload : LockPayloadV1}
    (h : rt.Step tx c accounts (.lock payload) c') (hnamed : keyAt accounts 2 = some epoch) :
    ∃ e p, c'.EpochAt epoch e ∧ c'.PoolAt e.pool p ∧ e.terminalState = .locked ∧
      e.lockDigest = payload.digest rt.sha256 ∧ TwoSigned verify tx p.keypers e.lockDigest := by
  have hkept := fun {k p} (hk : c.PoolAt k p) => h.pool_kept hk
  cases h with
  | @lock _ pool _ p e named valid accepted =>
    cases hnamed.symm.trans named
    obtain ⟨count, hcount, hle⟩ := accepted.quorum
    rw [valid.poolValid.lockThreshold] at hle
    refine ⟨_, p, .write _ valid.epochAt.1, ?_, rfl, rfl, twoSigned_of_count hverified hcount hle⟩
    have hpool : (e.withLock payload (payload.digest rt.sha256)).pool = pool :=
      valid.epochValid.pool_eq
    rw [hpool]
    exact hkept valid.poolAt

theorem Runtime.Accepts.twoSigned (lawful : rt.Lawful) {verify : Bytes → Bytes → Bytes → Prop}
    (hverified : Precompile verify tx)
    (h : rt.Accepts tx c accounts data c' epoch state message) :
    ∃ e p, c'.EpochAt epoch e ∧ c'.PoolAt e.pool p ∧ e.terminalState = state ∧
      e.storedDigest state = rt.sha256 message ∧
      TwoSigned verify tx p.keypers (e.storedDigest state) := by
  cases h with
  | @lock payload ok decoded named =>
    obtain ⟨instruction, hdecode, hstep⟩ := Runtime.processInstruction_ok lawful ok
    cases decoded.symm.trans hdecode
    exact hstep.lock_twoSigned hverified named
  | @settle compact p₀ e₀ ok decoded named epochAt poolAt =>
    obtain ⟨instruction, hdecode, hstep⟩ := Runtime.processInstruction_ok lawful ok
    cases decoded.symm.trans hdecode
    have hkept := fun {k p} (hk : c.PoolAt k p) => hstep.pool_kept hk
    cases hstep with
    | @settle _ pool _ p e moved named' valid tokens signer accepted residual =>
      cases named.symm.trans named'
      cases epochAt.unique valid.epochAt
      rw [valid.epochValid.pool_eq] at poolAt
      cases poolAt.unique valid.poolAt
      obtain ⟨count, hcount, hle⟩ := accepted.quorum
      rw [valid.poolValid.settlementThreshold] at hle
      have hepoch := residual.programOwned tokens valid.epochAt.1
      refine ⟨_, p₀, .write _ (hepoch.1.trans valid.epochAt.1), ?_, rfl, rfl,
        twoSigned_of_count hverified hcount hle⟩
      have hpool : (e₀.withSettlement compact
          ((Runtime.rebuildSettlement epoch p₀ e₀ compact).digest rt.sha256)).pool = pool :=
        valid.epochValid.pool_eq
      rw [hpool]
      exact hkept valid.poolAt

/-- An epoch that a step leaves locked was so before, or the step is its lock. -/
theorem Runtime.Step.locked_cases {instruction : KagebInstruction}
    (h : rt.Step tx c accounts instruction c') {k : Pubkey} {e : EpochStateV1}
    (hk : c'.EpochAt k e) (hlocked : e.terminalState = .locked) :
    c.EpochAt k e ∨ ∃ payload, instruction = .lock payload ∧ keyAt accounts 2 = some k := by
  obtain ⟨key, hnamed, -, hframe⟩ := h.target
  by_cases hkey : k = key
  swap
  · exact Or.inl (hk.congr (hframe k hkey (Or.inr hk.1)).symm)
  subst hkey
  -- every other instruction leaves the account it names in another state
  cases h with
  | @initializePool args pool p made named created =>
    cases hnamed.symm.trans named
    have hat : (made.write k p.encode).PoolAt k p := ⟨by simpa using created.owner, by simp⟩
    exact (hat.not_epochAt hk).elim
  | @createEpoch args pool epoch p e₀ made named ne poolAt poolValid created valid fresh =>
    cases hnamed.symm.trans named
    cases hk.unique (.write e₀ created.owner)
    exact absurd (hlocked.symm.trans fresh.terminalState) (by decide)
  | @lock payload => exact Or.inr ⟨payload, rfl, hnamed⟩
  | @settle compact pool epoch p e₀ moved named valid tokens signer accepted residual =>
    cases hnamed.symm.trans named
    have hepoch := residual.programOwned tokens valid.epochAt.1
    cases hk.unique (.write _ (hepoch.1.trans valid.epochAt.1))
    cases hlocked
  | @expire pool epoch p e₀ named valid =>
    cases hnamed.symm.trans named
    cases hk.unique (.write _ valid.epochAt.1)
    cases hlocked
  | @abort pool epoch p e₀ named valid =>
    cases hnamed.symm.trans named
    cases hk.unique (.write _ valid.epochAt.1)
    cases hlocked

/-- What is approved names the epoch and the step. -/
theorem Runtime.Accepts.message_eq (lawful : rt.Lawful)
    (h : rt.Accepts tx c accounts data c' epoch state message) :
    (state = .locked ∧ ∃ payload : LockPayloadV1, payload.epochAccount = epoch ∧
      message = payload.message) ∨
    (state = .settled ∧ ∃ payload : SettlementPayloadV1, payload.epochAccount = epoch ∧
      message = payload.message) := by
  cases h with
  | @lock payload ok decoded named =>
    obtain ⟨instruction, hdecode, hstep⟩ := Runtime.processInstruction_ok lawful ok
    cases decoded.symm.trans hdecode
    cases hstep with
    | lock named' valid accepted =>
      cases named.symm.trans named'
      exact Or.inl ⟨rfl, payload, accepted.epochAccount, rfl⟩
  | settle => exact Or.inr ⟨rfl, _, rfl, rfl⟩

end Accepted

/-- Every locked epoch was locked by a call with the signatures of two keypers of its pool. -/
def Chain.LocksSigned (verify : Bytes → Bytes → Bytes → Prop) (es : List Event) (c : Chain) :
    Prop :=
  ∀ k e, c.EpochAt k e → e.terminalState = .locked → ∃ p, c.PoolAt e.pool p ∧
    ∃ tx accounts data, .invoke tx accounts data ∈ es ∧ TwoSigned verify tx p.keypers e.lockDigest

theorem Runtime.ChainStep.locksSigned {rt : Runtime} (lawful : rt.Lawful)
    {verify : Bytes → Bytes → Bytes → Prop} {c c' : Chain} {es : List Event} {event : Event}
    (hverified : ∀ tx accounts data, event = .invoke tx accounts data → Precompile verify tx)
    (hc : c.LocksSigned verify es) (h : rt.ChainStep c event c') :
    c'.LocksSigned verify (es ++ [event]) := by
  have hobeys := h.obeys lawful
  have hold : ∀ {k e}, c.EpochAt k e → e.terminalState = .locked → ∃ p, c'.PoolAt e.pool p ∧
      ∃ tx accounts data, .invoke tx accounts data ∈ es ++ [event] ∧
        TwoSigned verify tx p.keypers e.lockDigest := by
    intro k e hk hlocked
    obtain ⟨p, hp, tx, accounts, data, hmem, hsigned⟩ := hc k e hk hlocked
    exact ⟨p, hobeys.pools _ p hp, tx, accounts, data, List.mem_append_left _ hmem, hsigned⟩
  intro k e hk hlocked
  cases h with
  | other hother => exact hold (hother.epochAt_iff.mp hk) hlocked
  | invoke tx accounts data =>
    rcases Runtime.execute_cases lawful tx c accounts data with heq | ⟨instruction, -, hstep⟩
    · rw [heq] at hk
      exact hold hk hlocked
    · rcases hstep.locked_cases hk hlocked with hk' | ⟨payload, rfl, hnamed⟩
      · exact hold hk' hlocked
      · obtain ⟨e', p, he', hp, -, -, hsigned⟩ :=
          hstep.lock_twoSigned (hverified tx accounts data rfl) hnamed
        cases hk.unique he'
        exact ⟨p, hp, tx, accounts, data, by simp, hsigned⟩

theorem Runtime.locksSigned_of_run {rt : Runtime} (lawful : rt.Lawful)
    {verify : Bytes → Bytes → Bytes → Prop} {c₀ c : Chain} {es : List Event}
    (genesis : c₀.Genesis) (run : Run rt.ChainStep c₀ es c)
    (hverified : ∀ tx accounts data, .invoke tx accounts data ∈ es → Precompile verify tx) :
    c.LocksSigned verify es := by
  refine @Run.invariant_labels _ _ _ (fun es c =>
    (∀ tx accounts data, .invoke tx accounts data ∈ es → Precompile verify tx) →
      c.LocksSigned verify es) ?_ _ _ [] _ run ?_ hverified
  · intro es c event c' hc hstep hes
    refine hstep.locksSigned lawful (fun tx accounts data heq => hes tx accounts data ?_)
      (hc fun tx accounts data hmem => hes tx accounts data (List.mem_append_left _ hmem))
    simp [heq]
  · exact fun _ k e hk => absurd hk.1 (genesis k)

theorem Runtime.Accepts.message_ne {rt : Runtime} (lawful : rt.Lawful)
    {tx₁ tx₂ : InstructionsSysvar} {c₁ c₁' c₂ c₂' : Chain} {accounts₁ accounts₂ : List AccountMeta}
    {data₁ data₂ : Bytes} {epoch₁ epoch₂ : Pubkey} {state₁ state₂ : EpochTerminalState}
    {message₁ message₂ : Bytes}
    (h₁ : rt.Accepts tx₁ c₁ accounts₁ data₁ c₁' epoch₁ state₁ message₁)
    (h₂ : rt.Accepts tx₂ c₂ accounts₂ data₂ c₂' epoch₂ state₂ message₂)
    (hne : (epoch₁, state₁) ≠ (epoch₂, state₂)) : message₁ ≠ message₂ := by
  rcases h₁.message_eq lawful with ⟨rfl, p, hp, rfl⟩ | ⟨rfl, p, hp, rfl⟩ <;>
    rcases h₂.message_eq lawful with ⟨rfl, q, hq, rfl⟩ | ⟨rfl, q, hq, rfl⟩
  · intro heq
    cases LockPayloadV1.message_injective heq
    exact hne (by rw [← hp, ← hq])
  · exact lock_message_ne_settlement p q
  · exact (lock_message_ne_settlement q p).symm
  · intro heq
    cases SettlementPayloadV1.message_injective heq
    exact hne (by rw [← hp, ← hq])

/-- The loop counts the distinct configured keypers that approve the digest strictly in front of
the running instruction. A successful lock or settlement has signatures of two of them over the
digest that it stores, and approvals of one step count for no other epoch or step. -/
theorem keyper_quorum {rt : Runtime} (lawful : rt.Lawful)
    (verify : Bytes → Bytes → Bytes → Prop) :
    (∀ tx keypers digest,
      (approvers tx.preceding keypers digest).card ≤ 3 ∧
      countPrecedingKeypers tx keypers digest =
        .ok (UInt8.ofNat (approvers tx.preceding keypers digest).card) ∧
      countPrecedingKeypers tx keypers digest =
        .ok (countMatchingKeypers tx.preceding keypers digest) ∧
      ∀ tx' extra, tx'.preceding.Perm (tx.preceding ++ extra) →
        (∀ i ∈ extra, i ∈ tx.preceding ∨
          ∀ k ∈ keypers.toList, parseStrictEd25519 i ≠ .ok { signer := k, digest }) →
        countPrecedingKeypers tx' keypers digest = countPrecedingKeypers tx keypers digest) ∧
    (∀ tx c accounts data c' epoch state message, Precompile verify tx →
      rt.Accepts tx c accounts data c' epoch state message →
      ∃ e p, c'.EpochAt epoch e ∧ c'.PoolAt e.pool p ∧ e.terminalState = state ∧
        e.storedDigest state = rt.sha256 message ∧
        TwoSigned verify tx p.keypers (e.storedDigest state)) ∧
    (∀ tx₁ c₁ accounts₁ data₁ c₁' epoch₁ state₁ message₁
      tx₂ c₂ accounts₂ data₂ c₂' epoch₂ state₂ message₂,
      rt.Accepts tx₁ c₁ accounts₁ data₁ c₁' epoch₁ state₁ message₁ →
      rt.Accepts tx₂ c₂ accounts₂ data₂ c₂' epoch₂ state₂ message₂ →
      (epoch₁, state₁) ≠ (epoch₂, state₂) → Set.InjOn rt.sha256 {message₁, message₂} →
      rt.sha256 message₁ ≠ rt.sha256 message₂ ∧
        ∀ i k k', approves (rt.sha256 message₁) k i = true →
          approves (rt.sha256 message₂) k' i = false) := by
  refine ⟨fun tx keypers digest => ⟨card_approvers_le _ _ _, ?_, countPrecedingKeypers_eq _ _ _,
    ?_⟩, ?_, ?_⟩
  · rw [countPrecedingKeypers_eq, countMatchingKeypers_eq]
  · intro tx' extra hperm hextra
    have hsame : approvers tx'.preceding keypers digest = approvers tx.preceding keypers digest := by
      refine approvers_congr fun i hi => ⟨fun hmem => ?_, fun hmem => ?_⟩
      · obtain ⟨k, hk, happroves⟩ := hi
        rcases List.mem_append.mp (hperm.mem_iff.mp hmem) with hold | hnew
        · exact hold
        · rcases hextra i hnew with hold | hother
          · exact hold
          · exact absurd (approves_eq_true.mp happroves) (hother k hk)
      · exact hperm.mem_iff.mpr (List.mem_append_left _ hmem)
    rw [countPrecedingKeypers_eq, countPrecedingKeypers_eq, countMatchingKeypers_eq,
      countMatchingKeypers_eq, hsame]
  · intro tx c accounts data c' epoch state message hverified haccepts
    exact haccepts.twoSigned lawful hverified
  · intro tx₁ c₁ accounts₁ data₁ c₁' epoch₁ state₁ message₁ tx₂ c₂ accounts₂ data₂ c₂' epoch₂
      state₂ message₂ h₁ h₂ hne hinj
    have hdigest : rt.sha256 message₁ ≠ rt.sha256 message₂ := by
      intro heq
      exact h₁.message_ne lawful h₂ hne (hinj (by simp) (by simp) heq)
    refine ⟨hdigest, fun i k k' happroves => ?_⟩
    rw [← Bool.not_eq_true, approves_eq_true, approves_eq_true.mp happroves]
    intro heq
    simp only [Except.ok.injEq, StrictEd25519.mk.injEq] at heq
    exact hdigest heq.2

namespace Sample

theorem signed_facts :
    Precompile verify lockTx ∧
    ((rt.processInstruction lockTx epochChain programId lockAccounts lockCall.encode).isOk = true ∧
      (rt.processInstruction settleTx lockChain programId settleAccounts
        settleCall.encode).isOk = true) ∧
    lockChain.EpochAt epoch lockedEpoch ∧ lockChain.PoolAt lockedEpoch.pool poolState ∧
    settlementPayload = Runtime.rebuildSettlement epoch poolState lockedEpoch compact ∧
    rt.sha256 lockPayload.message ≠ rt.sha256 settlementPayload.message ∧
    approves (sha256 lockPayload.message) keypers.first
      (approval keypers.first (sha256 lockPayload.message)) = true := by
  unfold Precompile Chain.EpochAt Chain.PoolAt
  decide +kernel

theorem lockTx_verified : Precompile verify lockTx := signed_facts.1

theorem lock_accepted : rt.Accepts lockTx epochChain lockAccounts lockCall.encode lockChain epoch
    .locked lockPayload.message :=
  .lock (rt.execute_ok signed_facts.2.1.1) (KagebInstruction.decode_encode lockCall) rfl

theorem settle_accepted : rt.Accepts settleTx lockChain settleAccounts settleCall.encode
    settleChain epoch .settled settlementPayload.message := by
  obtain ⟨-, ⟨-, hsettled⟩, hepoch, hpool, hpayload, -⟩ := signed_facts
  rw [hpayload]
  exact .settle (rt.execute_ok hsettled) (KagebInstruction.decode_encode settleCall) rfl hepoch hpool

end Sample

/-- The lock of the sample market is signed by two keypers, and what they signed approves nothing
of its settlement. -/
theorem keyper_quorum_lock :
    (∃ e p, Sample.lockChain.EpochAt Sample.epoch e ∧ Sample.lockChain.PoolAt e.pool p ∧
      TwoSigned Sample.verify Sample.lockTx p.keypers e.lockDigest) ∧
    Sample.sha256 Sample.lockPayload.message ≠ Sample.sha256 Sample.settlementPayload.message ∧
    approves (Sample.sha256 Sample.lockPayload.message) Sample.keypers.first
      (Sample.approval Sample.keypers.first (Sample.sha256 Sample.lockPayload.message)) = true ∧
    approves (Sample.sha256 Sample.settlementPayload.message) Sample.keypers.first
      (Sample.approval Sample.keypers.first (Sample.sha256 Sample.lockPayload.message)) = false := by
  obtain ⟨-, hsigned, hreuse⟩ := keyper_quorum Sample.hashes.runtime_lawful Sample.verify
  obtain ⟨e, p, hepoch, hpool, -, -, htwo⟩ :=
    hsigned _ _ _ _ _ _ _ _ Sample.lockTx_verified Sample.lock_accepted
  obtain ⟨-, -, -, -, -, hmessages, happroves⟩ := Sample.signed_facts
  have hinj : Set.InjOn Sample.rt.sha256
      {Sample.lockPayload.message, Sample.settlementPayload.message} := by
    rintro m (rfl | rfl) m' (rfl | rfl) heq
    · rfl
    · exact absurd heq hmessages
    · exact absurd heq.symm hmessages
    · rfl
  obtain ⟨hdigests, hother⟩ := hreuse _ _ _ _ _ _ _ _ _ _ _ _ _ _ _ _ Sample.lock_accepted
    Sample.settle_accepted (fun h => nomatch congrArg Prod.snd h) hinj
  exact ⟨⟨e, p, hepoch, hpool, htwo⟩, hdigests, happroves, hother _ _ _ happroves⟩

end Kageb
