import Kageb.Program.Acceptance
import Kageb.Program.Invariant

/-! What happens to an epoch whose deadline has passed: it can always be ended, and it can no longer
be locked or settled. -/

namespace Kageb

open Binary Checks Runs

def terminalInstruction (caller pool epoch : Pubkey) (instruction : KagebInstruction) :
    Instruction where
  programId := programId
  accounts :=
    [.newReadonly caller true, .newReadonly pool false, .new epoch false,
      .newReadonly clockId false]
  data := instruction.encode

def expireInstruction (caller pool epoch : Pubkey) : Instruction :=
  terminalInstruction caller pool epoch .expire

def abortInstruction (caller pool epoch : Pubkey) : Instruction :=
  terminalInstruction caller pool epoch .abort

/-- The clock sysvar shows `clock`; neither it nor an account of the program is a program itself. -/
structure Runtime.Shows (rt : Runtime) (c : Chain) (clock : Clock) : Prop where
  records : ∀ k, (c k).owner = programId → (c k).executable = false
  owner : (c clockId).owner ≠ programId
  plain : (c clockId).executable = false
  reads : rt.deserializeClock (c clockId).data = some clock

/-! ### Ending an epoch -/

section Terminal

variable {rt : Runtime} {tx : InstructionsSysvar} {c : Chain} {caller epoch : Pubkey}
  {e : EpochStateV1} {clock : Clock}

theorem Runtime.run_terminal {pool : Pubkey} (abort : Bool) :
    rt.run tx c (terminalInstruction caller pool epoch (if abort then .abort else .expire)) =
      rt.expireOrAbort c (terminalInstruction caller pool epoch .expire).accounts abort := by
  unfold Runtime.run Runtime.processInstruction
  cases abort <;>
  · rw [rejectIf_bind_of_not (by simp [terminalInstruction])]
    simp only [terminalInstruction, KagebInstruction.decode_encode]
    rfl

/-- The first check that the caller can fail. -/
theorem Runtime.expireOrAbort_executable {pool : Pubkey} {abort : Bool}
    (h : (c caller).executable = true) :
    rt.expireOrAbort c (terminalInstruction caller pool epoch .expire).accounts abort =
      .error KagebError.invalidAccounts := by
  have hflags : requireAccountFlags (c.info ⟨caller, true, false⟩) true false false =
      .error KagebError.invalidAccounts := by
    refine (rejectIf_bind_of_not (by simp [Chain.info])).trans ?_
    exact rejectIf_eq_error.mpr ⟨.inr (by simp [Chain.info, h]), rfl⟩
  exact bind_error.mpr (.inl hflags)

/-- What the source reads as the deadline, the state it asks for and the state it writes. -/
def terminalGate (e : EpochStateV1) (abort : Bool) :
    EpochTerminalState × Int64 × EpochTerminalState :=
  if abort then (.locked, e.abortDeadline, .aborted) else (.open, e.lockDeadline, .expired)

/-- A sound epoch past its deadline is ended by any caller that is no program. -/
theorem Runtime.EpochSound.run_terminal {p : PoolStateV1} (hsound : rt.EpochSound c epoch e p)
    (hepoch : c.EpochAt epoch e) (hshows : rt.Shows c clock)
    (hcaller : [caller, e.pool, epoch, clockId].Nodup) (hplain : (c caller).executable = false)
    {abort : Bool} (hstate : e.terminalState = (terminalGate e abort).1)
    (htime : (terminalGate e abort).2.1 < clock.unixTimestamp) :
    rt.expireOrAbort c (terminalInstruction caller e.pool epoch .expire).accounts abort =
      .ok (c.write epoch { e with terminalState := (terminalGate e abort).2.2 }.encode) := by
  have hpool := hshows.records _ hsound.poolAt.1
  have hrecord := hshows.records _ hepoch.1
  simp only [terminalInstruction, AccountMeta.new, AccountMeta.newReadonly, Runtime.expireOrAbort,
    List.map_cons, List.map_nil, bind_ok, Unique.exists_iff]
  refine ⟨requireAccountFlags_eq _ _ hplain, requireAccountFlags_eq _ _ hpool,
    requireAccountFlags_eq _ _ hrecord, requireAccountFlags_eq _ _ hshows.plain,
    requireDistinct_eq hcaller,
    requireProgramAccount_eq hsound.poolAt.1 hsound.poolAt.2 p.encode_length hpool,
    requireProgramAccount_eq hepoch.1 hepoch.2 e.encode_length hrecord, ?_, p,
    PoolStateV1.decode_eq_ok.mpr hsound.poolAt.2,
    Runtime.validatePoolState_ok.mpr hsound.poolValid, e,
    EpochStateV1.decode_eq_ok.mpr hepoch.2,
    Runtime.validateEpochState_ok.mpr hsound.epochValid, clock,
    clockFromAccountInfo_eq hshows.reads, ?_⟩
  · simp [Chain.info]
  · cases abort with
    | true =>
      simp only [terminalGate, if_true] at hstate htime ⊢
      exact ⟨by simp [hstate], by simpa using htime, rfl⟩
    | false =>
      simp only [terminalGate, Bool.false_eq_true, if_false] at hstate htime ⊢
      exact ⟨by simp [hstate], by simpa using htime, rfl⟩

/-- The accounts of a sound epoch are its own, its pool and the clock. -/
theorem Runtime.EpochSound.nodup {p : PoolStateV1} (hsound : rt.EpochSound c epoch e p)
    (hepoch : c.EpochAt epoch e) (hshows : rt.Shows c clock)
    (hcaller : caller ∉ [e.pool, epoch, clockId]) : [caller, e.pool, epoch, clockId].Nodup := by
  have hpool : e.pool ≠ epoch := fun heq =>
    hsound.poolAt.not_epochAt (heq ▸ hepoch : c.EpochAt e.pool e)
  have hclock : ∀ {k}, (c k).owner = programId → k ≠ clockId := fun howner heq =>
    hshows.owner (heq ▸ howner)
  rw [List.nodup_cons]
  refine ⟨hcaller, ?_⟩
  simp [hpool, hclock hsound.poolAt.1, hclock hepoch.1]

/-- Past its deadline an epoch is ended, by exactly the callers that are no programs. -/
theorem Runtime.EpochSound.terminal_iff {p : PoolStateV1} (hsound : rt.EpochSound c epoch e p)
    (hepoch : c.EpochAt epoch e) (hshows : rt.Shows c clock)
    (hcaller : caller ∉ [e.pool, epoch, clockId]) {abort : Bool}
    (hstate : e.terminalState = (terminalGate e abort).1)
    (htime : (terminalGate e abort).2.1 < clock.unixTimestamp) :
    (∃ c', rt.run tx c
        (terminalInstruction caller e.pool epoch (if abort then .abort else .expire)) = .ok c' ∧
      c'.EpochAt epoch { e with terminalState := (terminalGate e abort).2.2 }) ↔
      (c caller).executable = false := by
  rw [Runtime.run_terminal]
  constructor
  · rintro ⟨c', hrun, -⟩
    by_contra hexecutable
    rw [Runtime.expireOrAbort_executable (Bool.not_eq_false _ ▸ hexecutable)] at hrun
    cases hrun
  · intro hplain
    refine ⟨_, hsound.run_terminal hepoch hshows (hsound.nodup hepoch hshows hcaller) hplain hstate
      htime, .write _ hepoch.1⟩

end Terminal

/-! ### Runs along a clock -/

/-- A step of the chain along which the clock does not go back. -/
def Runtime.TimedStep (rt : Runtime) (c : Chain) (event : Event) (c' : Chain) : Prop :=
  rt.ChainStep c event c' ∧ ∃ before after, rt.deserializeClock (c clockId).data = some before ∧
    rt.deserializeClock (c' clockId).data = some after ∧
    before.unixTimestamp ≤ after.unixTimestamp

/-- Some call of the instruction on the epoch succeeds. -/
def Runtime.Possible (rt : Runtime) (c : Chain) (epoch : Pubkey) (instruction : KagebInstruction) :
    Prop :=
  ∃ tx accounts c', keyAt accounts 2 = some epoch ∧
    rt.processInstruction tx c programId accounts instruction.encode = .ok c'

/-- The times at which an instruction on an epoch can succeed. -/
def KagebInstruction.window : KagebInstruction → Option (EpochStateV1 → Int64 → Prop)
  | lock _ => some fun e t => t < e.lockDeadline
  | expire => some fun e t => e.lockDeadline < t
  | settle _ => some fun e t => t ≤ e.abortDeadline
  | abort => some fun e t => e.abortDeadline < t
  | _ => none

section Timed

variable {rt : Runtime} {c c' : Chain} {es : List Event} {epoch : Pubkey}

theorem Runtime.timed_clock (run : Run rt.TimedStep c es c') {before : Clock}
    (hbefore : rt.deserializeClock (c clockId).data = some before) :
    ∃ after, rt.deserializeClock (c' clockId).data = some after ∧
      before.unixTimestamp ≤ after.unixTimestamp := by
  induction run generalizing before with
  | nil => exact ⟨before, hbefore, Int64.le_refl _⟩
  | cons hstep _ ih =>
    obtain ⟨-, first, second, hfirst, hsecond, hle⟩ := hstep
    cases hbefore.symm.trans hfirst
    obtain ⟨after, hafter, hle'⟩ := ih hsecond
    exact ⟨after, hafter, Int64.le_trans hle hle'⟩

/-- Along a timed run the record of an epoch keeps its deadlines and the clock goes on. -/
theorem Runtime.timed_epoch (lawful : rt.Lawful) (run : Run rt.TimedStep c es c')
    {e e' : EpochStateV1} (he : c.EpochAt epoch e) (he' : c'.EpochAt epoch e') {before : Clock}
    (hbefore : rt.deserializeClock (c clockId).data = some before) {after : Clock}
    (hafter : rt.deserializeClock (c' clockId).data = some after) :
    e'.lockDeadline = e.lockDeadline ∧ e'.abortDeadline = e.abortDeadline ∧
      before.unixTimestamp ≤ after.unixTimestamp := by
  obtain ⟨-, hepochs⟩ := Runtime.run_follows lawful (run.map id fun h => h.1)
  obtain ⟨e'', he'', hfollows⟩ := hepochs epoch e he
  cases he'.unique he''
  obtain ⟨after', hafter', hle⟩ := Runtime.timed_clock run hbefore
  cases hafter.symm.trans hafter'
  exact ⟨hfollows.sameConfiguration.lockDeadline, hfollows.sameConfiguration.abortDeadline, hle⟩

theorem Runtime.Possible.step (lawful : rt.Lawful) {instruction : KagebInstruction}
    (h : rt.Possible c epoch instruction) :
    ∃ tx accounts c', keyAt accounts 2 = some epoch ∧ rt.Step tx c accounts instruction c' := by
  obtain ⟨tx, accounts, c', hkey, hok⟩ := h
  obtain ⟨instruction', hdecode, hstep⟩ := Runtime.processInstruction_ok lawful hok
  rw [KagebInstruction.decode_encode] at hdecode
  cases hdecode
  exact ⟨tx, accounts, c', hkey, hstep⟩

/-- An instruction on an epoch succeeds only on its side of the deadline. -/
theorem Runtime.Possible.timely (lawful : rt.Lawful) {instruction : KagebInstruction}
    {window : EpochStateV1 → Int64 → Prop} (hwindow : instruction.window = some window)
    (h : rt.Possible c epoch instruction) :
    ∃ e clock, c.EpochAt epoch e ∧ rt.deserializeClock (c clockId).data = some clock ∧
      window e clock.unixTimestamp := by
  obtain ⟨tx, accounts, c', hkey, hstep⟩ := h.step lawful
  cases hstep with
  | initializePool => cases hwindow
  | createEpoch => cases hwindow
  | lock named valid accepted =>
    cases hwindow
    cases hkey.symm.trans named
    obtain ⟨clock, hclock, htime⟩ := accepted.clock
    exact ⟨_, clock, valid.epochAt, hclock, htime⟩
  | settle named valid tokens signer accepted residual =>
    cases hwindow
    cases hkey.symm.trans named
    obtain ⟨clock, hclock, htime⟩ := accepted.clock
    exact ⟨_, clock, valid.epochAt, hclock, htime⟩
  | expire named valid terminalState hclock =>
    cases hwindow
    cases hkey.symm.trans named
    obtain ⟨clock, hclock, htime⟩ := hclock
    exact ⟨_, clock, valid.epochAt, hclock, htime⟩
  | abort named valid terminalState hclock =>
    cases hwindow
    cases hkey.symm.trans named
    obtain ⟨clock, hclock, htime⟩ := hclock
    exact ⟨_, clock, valid.epochAt, hclock, htime⟩

end Timed

/-- In every reachable state an open epoch past its lock deadline can be expired, and a locked one
past its abort deadline aborted, by any caller that is no program; and once that is possible, the
epoch can no longer be locked, or settled. -/
theorem deadlines_decide {rt : Runtime} (lawful : rt.Lawful) {c₀ c : Chain} {es : List Event}
    (genesis : c₀.Genesis) (run : Run rt.ChainStep c₀ es c) {clock : Clock}
    (shows : rt.Shows c clock) :
    (∀ tx epoch e caller, c.EpochAt epoch e → caller ∉ [e.pool, epoch, clockId] →
      (e.terminalState = .open → e.lockDeadline < clock.unixTimestamp →
        ((∃ c', rt.run tx c (expireInstruction caller e.pool epoch) = .ok c' ∧
          c'.EpochAt epoch { e with terminalState := .expired }) ↔
            (c caller).executable = false)) ∧
      (e.terminalState = .locked → e.abortDeadline < clock.unixTimestamp →
        ((∃ c', rt.run tx c (abortInstruction caller e.pool epoch) = .ok c' ∧
          c'.EpochAt epoch { e with terminalState := .aborted }) ↔
            (c caller).executable = false))) ∧
    ∀ fs c', Run rt.TimedStep c fs c' → ∀ epoch,
      (rt.Possible c epoch .expire → ∀ payload, ¬rt.Possible c' epoch (.lock payload)) ∧
      (rt.Possible c epoch .abort → ∀ compact, ¬rt.Possible c' epoch (.settle compact)) := by
  refine ⟨fun tx epoch e caller hepoch hcaller => ?_, fun fs c' hrun epoch => ⟨?_, ?_⟩⟩
  · obtain ⟨p, hsound⟩ := Runtime.sound_of_run lawful genesis run epoch e hepoch
    exact ⟨fun hstate htime => @Runtime.EpochSound.terminal_iff rt tx c caller epoch e clock p hsound
        hepoch shows hcaller false hstate htime,
      fun hstate htime => @Runtime.EpochSound.terminal_iff rt tx c caller epoch e clock p hsound
        hepoch shows hcaller true hstate htime⟩
  · intro hexpire payload hlock
    obtain ⟨e, before, he, hbefore, hlate⟩ := hexpire.timely lawful rfl
    obtain ⟨e', after, he', hafter, hearly⟩ := hlock.timely lawful rfl
    obtain ⟨hdeadline, -, hle⟩ := Runtime.timed_epoch lawful hrun he he' hbefore hafter
    rw [hdeadline] at hearly
    exact Int64.lt_irrefl (Int64.lt_trans (Int64.lt_of_lt_of_le hlate hle) hearly)
  · intro habort compact hsettle
    obtain ⟨e, before, he, hbefore, hlate⟩ := habort.timely lawful rfl
    obtain ⟨e', after, he', hafter, hearly⟩ := hsettle.timely lawful rfl
    obtain ⟨-, hdeadline, hle⟩ := Runtime.timed_epoch lawful hrun he he' hbefore hafter
    rw [hdeadline] at hearly
    exact Int64.lt_irrefl (Int64.lt_of_lt_of_le hlate (Int64.le_trans hle hearly))

namespace Sample

/-- The address of a program, which can sign as well. -/
def program : Pubkey := key 99

/-- The chain with another clock, and with a program at an address. -/
def later (c : Chain) (clock : Bytes) (address : Pubkey) : Chain := fun k =>
  if k = clockId then { c k with data := clock }
  else if k = address then { c k with executable := true }
  else c k

theorem later_owner (c : Chain) (clock : Bytes) (address k : Pubkey) :
    (later c clock address k).owner = (c k).owner := by
  unfold later
  split_ifs <;> rfl

theorem later_interference {c : Chain} {clock : Bytes} {address : Pubkey}
    (hclock : (c clockId).owner ≠ programId) (haddress : (c address).owner ≠ programId) :
    c.Interference (later c clock address) := by
  refine ⟨fun k hk => ?_, fun k hk hk' => absurd ((later_owner ..).symm.trans hk') hk⟩
  have hne : k ≠ clockId := fun heq => hclock (heq ▸ hk)
  have hne' : k ≠ address := fun heq => haddress (heq ▸ hk)
  rw [later, if_neg hne, if_neg hne']
  exact .refl _

/-- The open epoch, after its lock deadline. -/
def lateChain : Chain := later epochChain (clockData 11) program

theorem lateChain_facts :
    ((epochChain clockId).owner ≠ programId ∧ (epochChain program).owner ≠ programId) ∧
    lateChain.EpochAt epoch openEpoch ∧
    ((lateChain pool).executable = false ∧ (lateChain epoch).executable = false) ∧
    (lateChain clockId).executable = false ∧
    rt.deserializeClock (lateChain clockId).data = some ⟨1, 11⟩ ∧
    (∀ caller ∈ [payer, program], caller ∉ [pool, epoch, clockId]) ∧
    (lateChain payer).executable = false ∧ (lateChain program).executable = true := by
  unfold Chain.EpochAt
  decide +kernel

theorem lateChain_interference : epochChain.Interference lateChain :=
  later_interference lateChain_facts.1.1 lateChain_facts.1.2

theorem late_run : Run rt.ChainStep chain
    [.invoke poolTx poolAccounts poolCall.encode, .invoke epochTx epochAccounts epochCall.encode,
      .other] lateChain :=
  .cons (.invoke ..) (.cons (.invoke ..) (.cons (.other lateChain_interference) (.nil _)))

theorem lateChain_epochAt : lateChain.EpochAt epoch openEpoch := lateChain_facts.2.1

/-- Only the pool and the epoch belong to the program. -/
theorem epochChain_owned {k : Pubkey} (h : (epochChain k).owner = programId) :
    k = pool ∨ k = epoch := by
  by_contra hk
  rw [not_or] at hk
  have hepoch := ((@Runtime.ChainStep.invoke rt poolChain epochTx epochAccounts
    epochCall.encode).obeys hashes.runtime_lawful).others _ _ _ _ rfl
      (KagebInstruction.decode_encode epochCall)
  have hpool := ((@Runtime.ChainStep.invoke rt chain poolTx poolAccounts
    poolCall.encode).obeys hashes.runtime_lawful).others _ _ _ _ rfl
      (KagebInstruction.decode_encode poolCall)
  have howner : (poolChain k).owner = programId :=
    (hepoch.1 k (fun heq => hk.2 (Option.some.inj heq).symm) (.inr h)).1.symm.trans h
  have hold := (hpool.1 k (fun heq => hk.1 (Option.some.inj heq).symm) (.inr howner)).1
  exact chain_genesis k (hold.symm.trans howner)

def lateClock : Clock := ⟨1, 11⟩

theorem lateChain_shows : rt.Shows lateChain lateClock := by
  obtain ⟨howner, -, hrecords, hplain, hreads, -⟩ := lateChain_facts
  refine ⟨fun k hk => ?_, ?_, hplain, hreads⟩
  · rcases epochChain_owned ((later_owner ..).symm.trans hk) with rfl | rfl
    · exact hrecords.1
    · exact hrecords.2
  · exact fun h => howner.1 ((later_owner ..).symm.trans h)

end Sample

theorem deadlines_decide_sample :
    (∃ c', Sample.rt.run Sample.epochTx Sample.lateChain
        (expireInstruction Sample.payer Sample.pool Sample.epoch) = .ok c' ∧
      c'.EpochAt Sample.epoch { Sample.openEpoch with terminalState := .expired }) ∧
    ∀ fs c', Run Sample.rt.TimedStep Sample.lateChain fs c' →
      ∀ payload, ¬Sample.rt.Possible c' Sample.epoch (.lock payload) := by
  obtain ⟨hends, hlater⟩ := deadlines_decide Sample.hashes.runtime_lawful Sample.chain_genesis
    Sample.late_run Sample.lateChain_shows
  obtain ⟨-, -, -, -, -, houtside, hpayer, -⟩ := Sample.lateChain_facts
  have hexpire := ((hends Sample.epochTx Sample.epoch Sample.openEpoch Sample.payer
    Sample.lateChain_epochAt (houtside _ (by simp))).1 rfl (by decide)).mpr hpayer
  refine ⟨hexpire, fun fs c' hrun => ((hlater fs c' hrun Sample.epoch).1 ?_)⟩
  obtain ⟨c', hrun, -⟩ := hexpire
  exact ⟨_, _, c', rfl, hrun⟩

/-- A signer that is a program is turned away, though the epoch is past its deadline. -/
theorem executable_signer_rejected :
    Sample.chain.Genesis ∧ (∃ es, Run Sample.rt.ChainStep Sample.chain es Sample.lateChain) ∧
    Sample.rt.Shows Sample.lateChain Sample.lateClock ∧
    Sample.lateChain.EpochAt Sample.epoch Sample.openEpoch ∧
    Sample.openEpoch.lockDeadline < Sample.lateClock.unixTimestamp ∧
    Sample.program ∉ [Sample.pool, Sample.epoch, clockId] ∧
    Sample.rt.run Sample.epochTx Sample.lateChain
      (expireInstruction Sample.program Sample.pool Sample.epoch) =
        .error KagebError.invalidAccounts := by
  obtain ⟨-, -, -, -, -, houtside, -, hprogram⟩ := Sample.lateChain_facts
  refine ⟨Sample.chain_genesis, ⟨_, Sample.late_run⟩, Sample.lateChain_shows,
    Sample.lateChain_epochAt, by decide, houtside _ (by simp), ?_⟩
  exact (Runtime.run_terminal false).trans (Runtime.expireOrAbort_executable hprogram)

end Kageb
