import Kageb.Host.Finality
import Kageb.Host.Settlement
import Kageb.Program.Tokens

/-! Solvency: the vaults of a pool hold at least what the accounts add up to. A settlement moves in
the vaults what its batch moves in the accounts, so this holds over any number of epochs in which
nothing else takes from the vaults and whoever is registered has paid in. -/

namespace Kageb

open Binary Checks Files Maps Runs

namespace Asset

def vault : Asset → PoolStateV1 → Pubkey
  | base => PoolStateV1.poolBaseVault
  | quote => PoolStateV1.poolQuoteVault

/-- The atoms of an asset in one account. -/
def account (a : Asset) (records : AccountRecords) (q : Bytes32) : Nat :=
  valueAt (fun r => (a.of r.balance).toNat) records q

/-- All the atoms of an asset in the accounts. -/
def owed (a : Asset) (records : AccountRecords) : Nat := ∑ q ∈ domain records, a.account records q

theorem account_of_some (a : Asset) {records : AccountRecords} {q : Bytes32} {r : AccountRecord}
    (h : records[q]? = some r) : a.account records q = (a.of r.balance).toNat :=
  valueAt_of_some _ h

theorem owed_insert (a : Asset) {records : AccountRecords} {q : Bytes32} {r : AccountRecord}
    (h : q ∉ records) : a.owed (records.insert q r) = (a.of r.balance).toNat + a.owed records :=
  total_insert _ h

/-- What the settlement of an epoch adds to a vault. -/
def change : Asset → EpochStateV1 → Int
  | base => EpochStateV1.baseChange
  | quote => EpochStateV1.quoteChange

end Asset

def Solvent (c : Chain) (p : PoolStateV1) (accounts : AccountState) : Prop :=
  ∀ a : Asset, a.owed accounts.records ≤ c.tokenAmount (a.vault p)

/-- A batch with the lot and the price of the epoch. -/
def BatchConfig.IsOf (config : BatchConfig) (e : EpochStateV1) : Prop :=
  config.baseLotAtoms = e.baseLotAtoms ∧ config.quoteAtomsPerLot = e.quoteAtomsPerLot

theorem tokenAmount_lt (c : Chain) (k : Pubkey) : c.tokenAmount k < 2 ^ 64 := by
  have hlt := leValue_lt (slice (c k).data 64 72)
  have hlength : (slice (c k).data 64 72).length ≤ 8 := List.length_take_le ..
  calc c.tokenAmount k < 256 ^ (slice (c k).data 64 72).length := hlt
    _ ≤ 256 ^ 8 := Nat.pow_le_pow_right (by omega) hlength
    _ = 2 ^ 64 := by norm_num

/-! ### The residual -/

/-- The residual on the wire is the signed number of lots. -/
theorem Netting.residual_wire (n : Netting) :
    n.residual.2 = sideSign (residualWire n.residual.1).1 * (residualWire n.residual.1).2.toNat := by
  unfold Netting.residual
  split_ifs
  · simp [residualWire, sideSign]
  · have hside : sideSign 2 = -1 := by decide
    simp [residualWire, hside]
  · simp [residualWire]

theorem Netting.residual_le (n : Netting) :
    (residualWire n.residual.1).2.toNat ≤ n.buys.toNat + n.sells.toNat := by
  unfold Netting.residual
  split_ifs with hbuys hsells
  · rw [show (residualWire (.buy (n.buys - n.sells))).2 = n.buys - n.sells from rfl,
      UInt32.toNat_sub_of_le _ _ (UInt32.le_of_lt hbuys)]
    omega
  · rw [show (residualWire (.sell (n.sells - n.buys))).2 = n.sells - n.buys from rfl,
      UInt32.toNat_sub_of_le _ _ (UInt32.le_of_lt hsells)]
    omega
  · simp [residualWire]

theorem countP_sides (orders : List FundedOrder) :
    orders.countP (·.side = .buy) + orders.countP (·.side = .sell) = orders.length := by
  induction orders with
  | nil => rfl
  | cons order orders ih =>
    rw [List.countP_cons, List.countP_cons, List.length_cons]
    cases hside : order.side <;> simp <;> omega

section Batch

variable {config : BatchConfig} {before : Map ParticipantId PoolBalance}
  {orders : List FundedOrder} {r : BatchResult}

/-- There are no more lots left over than orders. -/
theorem Netted.lots_le (h : Netted config before orders r) :
    (residualWire r.residual).2.toNat ≤ orders.length := by
  obtain ⟨n, hn, -, hresidual, -⟩ := h.filled
  have hbuys := hn.buys
  have hsells := hn.sells
  have hle := n.residual_le
  rw [← hresidual] at hle
  rw [← countP_sides orders]
  simp only [UInt32.toNat_zero, Nat.zero_add] at hbuys hsells
  omega

/-- What a batch moves is what the settlement of its residual moves. -/
theorem Netted.delta_eq (h : Netted config before orders r) {e : EpochStateV1}
    (hconfig : config.IsOf e) (hresidual : (e.residualSide, e.residualLots) = residualWire r.residual)
    (a : Asset) : a.delta r.vaultDelta = a.change e := by
  obtain ⟨n, -, -, hr, hdelta⟩ := h.filled
  have hwire := n.residual_wire
  rw [← hr, ← hresidual] at hwire
  rw [hdelta, hwire]
  cases a with
  | base =>
    simp only [Asset.delta, Asset.change, EpochStateV1.baseChange, ← hconfig.1, Nat.cast_mul]
    ring
  | quote =>
    simp only [Asset.delta, Asset.change, EpochStateV1.quoteChange, ← hconfig.2, Nat.cast_mul]
    ring

end Batch

/-! ### The accounts -/

/-- The members of a current batch hold no more than all accounts together. -/
theorem AccountState.Current.held_le {accounts : AccountState} {r : BatchResult}
    (h : accounts.Current r) (a : Asset) : a.held r.beforeBalances ≤ a.owed accounts.records := by
  have heach : ∀ q ∈ domain r.beforeBalances, q ∈ accounts.records ∧
      valueAt (fun b => (a.of b).toNat) r.beforeBalances q = a.account accounts.records q := by
    intro q hq
    obtain ⟨b, hb⟩ := Option.isSome_iff_exists.mp
      (Std.ExtTreeMap.mem_iff_isSome_getElem?.mp (mem_domain.mp hq))
    obtain ⟨record, hrecord, rfl⟩ := h q b hb
    refine ⟨?_, ?_⟩
    · rw [Std.ExtTreeMap.mem_iff_isSome_getElem?, hrecord]
      rfl
    · rw [valueAt_of_some _ hb, a.account_of_some hrecord]
  calc a.held r.beforeBalances
      = ∑ q ∈ domain r.beforeBalances, a.account accounts.records q :=
        Finset.sum_congr rfl fun q hq => (heach q hq).2
    _ ≤ a.owed accounts.records :=
        Finset.sum_le_sum_of_subset fun q hq => mem_domain.mpr (heach q hq).1

theorem BatchResult.change_of_not_mem {batch : NettedBatch} {side : PoolBalance → UInt64}
    {q : Bytes32} (hq : q ∉ batch.result.balances) : batch.result.change side q = 0 := by
  have hbefore : q ∉ batch.result.beforeBalances := fun h => hq ((batch.mem_balances q).mpr h)
  rw [change, Std.ExtTreeMap.getElem?_eq_none hq, Std.ExtTreeMap.getElem?_eq_none hbefore]
  rfl

/-- The account of a participant changes by what the batch gives it. -/
theorem account_commit {host : Host} {epochId : Bytes32} {batch : NettedBatch}
    {accounts : AccountState} (hcurrent : accounts.Current batch.result) (a : Asset) {q : Bytes32}
    (hq : q ∈ accounts.records) :
    (a.account (accounts.commit host epochId batch.result).records q : Int) =
      a.account accounts.records q + batch.result.change a.of q := by
  obtain ⟨record, hrecord⟩ :=
    Option.isSome_iff_exists.mp (Std.ExtTreeMap.mem_iff_isSome_getElem?.mp hq)
  have hsettled : (accounts.commit host epochId batch.result).records[q]? =
      some ((batch.result.balances[q]?.map (record.settle epochId)).getD record) := by
    simp only [AccountState.commit, AccountRecords.getElem?_settle, hrecord, Option.map_some]
  rw [a.account_of_some hsettled, a.account_of_some hrecord]
  by_cases hin : q ∈ batch.result.balances
  · obtain ⟨b, hb⟩ :=
      Option.isSome_iff_exists.mp (Std.ExtTreeMap.mem_iff_isSome_getElem?.mp hin)
    have hbefore := @Commit.member ⟨epochId, batch, []⟩ accounts hcurrent q hin record hrecord
    have hresult : batch.result.beforeBalances[q]? = some record.balance := hbefore
    simp only [BatchResult.change, hb, hresult, Option.map_some, Option.getD_some,
      AccountRecord.settle]
    omega
  · rw [BatchResult.change_of_not_mem hin, Std.ExtTreeMap.getElem?_eq_none hin]
    simp

/-- A commit changes what is owed by what its batch moves. -/
theorem owed_commit {host : Host} {epochId : Bytes32} {batch : NettedBatch}
    {accounts : AccountState} (hcurrent : accounts.Current batch.result)
    (hknown : ∀ q ∈ batch.result.balances, q ∈ accounts.records) (a : Asset) :
    (a.owed (accounts.commit host epochId batch.result).records : Int) =
      a.owed accounts.records + a.delta batch.result.vaultDelta := by
  have hdomain : domain (accounts.commit host epochId batch.result).records =
      domain accounts.records := by
    ext q
    simp only [mem_domain, AccountState.commit, Std.ExtTreeMap.mem_iff_isSome_getElem?,
      AccountRecords.getElem?_settle, Option.isSome_map]
  have hmembers : domain batch.result.beforeBalances = domain batch.result.balances := by
    ext q
    rw [mem_domain, mem_domain, batch.mem_balances]
  have hsubset : domain batch.result.balances ⊆ domain accounts.records := fun q hq =>
    mem_domain.mpr (hknown q (mem_domain.mp hq))
  obtain ⟨config, before, orders, hbatch⟩ := batch.netted
  have hheld := (netBatch_ok hbatch).held a
  rw [← (netBatch_ok hbatch).beforeBalances] at hheld
  calc (a.owed (accounts.commit host epochId batch.result).records : Int)
      = ∑ q ∈ domain accounts.records,
          ((a.account accounts.records q : Int) + batch.result.change a.of q) := by
        rw [Asset.owed, hdomain, Nat.cast_sum]
        exact Finset.sum_congr rfl fun q hq => account_commit hcurrent a (mem_domain.mp hq)
    _ = a.owed accounts.records + ∑ q ∈ domain accounts.records, batch.result.change a.of q := by
        rw [Finset.sum_add_distrib, Asset.owed, Nat.cast_sum]
    _ = a.owed accounts.records + ∑ q ∈ domain batch.result.balances,
          batch.result.change a.of q := by
        rw [Finset.sum_subset hsubset fun q _ hq =>
          BatchResult.change_of_not_mem fun hin => hq (mem_domain.mpr hin)]
    _ = a.owed accounts.records +
          ((a.held batch.result.balances : Int) - a.held batch.result.beforeBalances) := by
        rw [Asset.held, Asset.held, total, total, hmembers, Nat.cast_sum, Nat.cast_sum,
          ← Finset.sum_sub_distrib]
        rfl
    _ = a.owed accounts.records + a.delta batch.result.vaultDelta := by omega

/-- The accounts add up to what was registered and what the settlements moved. -/
def Tallied (b : OperatorBooks) : Prop :=
  ∀ a : Asset, (a.owed b.accounts.records : Int) =
    (b.registrations.map fun x => ((a.of x.2).toNat : Int)).sum +
      (b.commits.map fun c => a.delta c.result.vaultDelta).sum

theorem Change.tallied {host : Host} {b b' : OperatorBooks} (h : Change host b b')
    (hb : Tallied b) : Tallied b' := by
  intro a
  have hold := hb a
  cases h with
  | idle | reserve | use | release => exact hold
  | register hfresh =>
    simp only [a.owed_insert hfresh, List.map_cons, List.sum_cons]
    omega
  | commit c hfresh hknown hcurrent hcovered =>
    have hcommit : (a.owed (b.accounts.commit host c.epochId c.result).records : Int) =
        a.owed b.accounts.records + a.delta c.result.vaultDelta := owed_commit hcurrent hknown a
    simp only [List.map_cons, List.sum_cons]
    omega

theorem tallied_of_lawful {host : Host} (hhash : ∀ m, host.sha256 m ≠ zero32) {log : BooksLog host}
    (h : Lawful BooksLaw log) : Tallied (booksAfter log) := by
  induction log with
  | nil => exact fun a => rfl
  | cons event log ih => exact (change_of_lawful hhash h).tallied (ih h.2)

/-! ### One epoch -/

theorem Solvent.lots_le {c : Chain} {p : PoolStateV1} {accounts : AccountState}
    (h : Solvent c p accounts) {config : BatchConfig} {before : Map ParticipantId PoolBalance}
    {orders : List FundedOrder} {r : BatchResult} (hbatch : netBatch config before orders = .ok r)
    (hcurrent : accounts.Current r) (a : Asset) :
    (a.perLot config).toNat * (residualWire r.residual).2.toNat ≤ c.tokenAmount (a.vault p) := by
  have hnetted := netBatch_ok hbatch
  calc (a.perLot config).toNat * (residualWire r.residual).2.toNat
      ≤ (a.perLot config).toNat * orders.length := Nat.mul_le_mul_left _ hnetted.lots_le
    _ = orders.length * (a.perLot config).toNat := Nat.mul_comm ..
    _ ≤ a.held before := netBatch_holds hbatch a
    _ = a.held r.beforeBalances := by rw [hnetted.beforeBalances]
    _ ≤ a.owed accounts.records := hcurrent.held_le a
    _ ≤ c.tokenAmount (a.vault p) := h a

theorem checkedMul_of_lt {a b : UInt64} (h : a.toNat * b.toNat < 2 ^ 64) :
    ∃ product, checkedMul a b = some product ∧ product.toNat = a.toNat * b.toNat := by
  refine ⟨a * b, by rw [checkedMul, if_pos h], ?_⟩
  rw [UInt64.toNat_mul, Nat.mod_eq_of_lt h]

/-- A call of the program that settles an epoch of the pool for the residual of a batch with the
lot and the price of the epoch. -/
inductive Runtime.SettlesBatch (rt : Runtime) (pool : Pubkey) (c : Chain) :
    Bytes32 → BatchResult → Chain → Prop
  | intro {tx : InstructionsSysvar} {accounts : List AccountMeta} {data : Bytes}
      {compact : CompactSettlementPayload} {epoch : Pubkey} {e : EpochStateV1}
      {config : BatchConfig} {before : Map ParticipantId PoolBalance} {orders : List FundedOrder}
      {r : BatchResult} {c' : Chain}
      (decoded : KagebInstruction.decode data = .ok (.settle compact))
      (named : keyAt accounts 2 = some epoch) (epochAt : c.EpochAt epoch e) (pool_eq : e.pool = pool)
      (netted : netBatch config before orders = .ok r) (isOf : config.IsOf e)
      (residual : (compact.residualSide, compact.residualLots) = residualWire r.residual)
      (settled : rt.processInstruction tx c programId accounts data = .ok c') :
      SettlesBatch rt pool c e.epochId r c'

/-- What such a call does to the vaults and to the epoch. -/
structure Runtime.BatchSettled (rt : Runtime) (pool : Pubkey) (p : PoolStateV1) (c : Chain)
    (epochId : Bytes32) (r : BatchResult) (c' : Chain) : Prop where
  vaults : ∀ a : Asset, (c'.tokenAmount (a.vault p) : Int) =
    c.tokenAmount (a.vault p) + a.delta r.vaultDelta
  locked : ∃ e, c.EpochAt (rt.epochAddress pool epochId).1 e ∧ e.terminalState = .locked
  settled : ∃ e, c'.EpochAt (rt.epochAddress pool epochId).1 e ∧ e.terminalState = .settled
  step : ∃ event, rt.ChainStep c event c'

theorem Runtime.SettlesBatch.batchSettled {rt : Runtime} (lawful : rt.Lawful) {pool : Pubkey}
    {p : PoolStateV1} {c c' : Chain} {epochId : Bytes32} {r : BatchResult} (hpool : c.PoolAt pool p)
    (h : rt.SettlesBatch pool c epochId r c') : rt.BatchSettled pool p c epochId r c' := by
  cases h with
  | @intro tx accounts data compact epoch e config before orders r c' decoded named epochAt pool_eq
      netted isOf residual settled =>
    obtain ⟨instruction, hdecode, hstep⟩ := Runtime.processInstruction_ok lawful settled
    cases decoded.symm.trans hdecode
    obtain ⟨pool', epoch', p', e₀, e', hsettle⟩ := hstep.settleStep
    cases named.symm.trans hsettle.named
    cases epochAt.unique hsettle.valid.epochAt
    have hpool' : pool' = pool := hsettle.valid.epochValid.pool_eq.symm.trans pool_eq
    subst hpool'
    cases hpool.unique hsettle.valid.poolAt
    have haddress : (rt.epochAddress pool' e.epochId).1 = epoch := by
      rw [hsettle.valid.epochValid.address]
    have hchange : ∀ a : Asset, a.delta r.vaultDelta = a.change e' := by
      rw [hsettle.record]
      exact (netBatch_ok netted).delta_eq (e := e.withSettlement compact _) isOf residual
    refine ⟨fun a => ?_, ⟨e, haddress ▸ epochAt, hsettle.accepted.terminalState⟩,
      ⟨e', haddress ▸ hsettle.epochAt, by rw [hsettle.record]; rfl⟩, .invoke tx accounts data, ?_⟩
    · rw [hchange a]
      cases a with
      | base => exact hsettle.settles.baseVault
      | quote => exact hsettle.settles.quoteVault
    · have hexecute : rt.execute tx c accounts data = c' := by
        simp only [Runtime.execute, settled]
      rw [← hexecute]
      exact .invoke c tx accounts data

/-- What the accounts hold after an epoch, the vaults hold too. -/
theorem Solvent.epoch {rt : Runtime} (lawful : rt.Lawful) {host : Host} {pool : Pubkey}
    {p : PoolStateV1} {c c' : Chain} {accounts accounts' : AccountState} {epochId : Bytes32}
    {r : BatchResult} (h : Solvent c p accounts) (hpool : c.PoolAt pool p)
    (hsettle : rt.SettlesBatch pool c epochId r c') (hfresh : epochId ∉ accounts.appliedEpochs)
    (happly : applyIn host epochId r accounts = .ok accounts') : Solvent c' p accounts' := by
  have hvaults := (hsettle.batchSettled lawful hpool).vaults
  obtain ⟨config, before, orders, hbatch⟩ : ∃ config before orders,
      netBatch config before orders = .ok r := by
    cases hsettle with
    | intro _ _ _ _ netted => exact ⟨_, _, _, netted⟩
  obtain ⟨hknown, ⟨happlied, -⟩ | ⟨-, hcurrent, rfl⟩⟩ := applyIn_ok.mp happly
  · refine absurd ?_ hfresh
    rw [Std.ExtTreeMap.mem_iff_isSome_getElem?, happlied.digest]
    rfl
  · intro a
    have howed := @owed_commit host epochId ⟨r, config, before, orders, hbatch⟩ accounts hcurrent
      hknown a
    have hvault := hvaults a
    have hold := h a
    simp only at howed
    omega

/-! ### Any number of epochs -/

/-- The chain and the books of the operator, what was paid in for registrations to come, and the
settlements that the accounts do not have yet. -/
structure Custody (host : Host) where
  chain : Chain
  books : BooksState host
  credit : Asset → Nat
  pending : List (Bytes32 × BatchResult)

section Custody

variable {host : Host} (rt : Runtime) (pool : Pubkey) (p : PoolStateV1)

/-- The vaults change by deposits and by settlements only, a registration uses what was paid in,
and a finalization commits a batch that was settled. -/
inductive CustodyStep (m : Custody host) : Custody host → Prop
  -- whatever happens on the chain, nothing leaves the vaults; what comes in may be a deposit
  | deposit {event : Event} {c' : Chain} (amount : Asset → Nat) : rt.ChainStep m.chain event c' →
      (∀ a : Asset, m.chain.tokenAmount (a.vault p) + amount a ≤ c'.tokenAmount (a.vault p)) →
      CustodyStep m { m with chain := c', credit := fun a => m.credit a + amount a }
  | settle {epochId : Bytes32} {r : BatchResult} {c' : Chain} :
      rt.SettlesBatch pool m.chain epochId r c' →
      CustodyStep m { m with chain := c', pending := (epochId, r) :: m.pending }
  -- calls on the journals, in any interleaving, that commit and register nothing
  | calls {s : BooksState host} : Reaches m.books s →
      commits s.world.log = commits m.books.world.log →
      registrations s.world.log = registrations m.books.world.log →
      CustodyStep m { m with books := s }
  | register {s : BooksState host} {q : Bytes32} {balance : PoolBalance} : Reaches m.books s →
      commits s.world.log = commits m.books.world.log →
      registrations s.world.log = (q, balance) :: registrations m.books.world.log →
      (∀ a : Asset, (a.of balance).toNat ≤ m.credit a) →
      CustodyStep m { m with books := s, credit := fun a => m.credit a - (a.of balance).toNat }
  | finalize {s : BooksState host} {c : Commit} {rest : List (Bytes32 × BatchResult)} :
      Reaches m.books s → commits s.world.log = c :: commits m.books.world.log →
      registrations s.world.log = registrations m.books.world.log →
      m.pending.Perm ((c.epochId, c.result) :: rest) →
      CustodyStep m { m with books := s, pending := rest }

/-- The epochs that were settled for the accounts, whether they have the settlement yet or not. -/
def Custody.epochs (m : Custody host) : List Bytes32 :=
  m.pending.map Prod.fst ++ (commits m.books.world.log).map Commit.epochId

/-- The vaults hold what the accounts will hold with every settlement, and the credit. -/
structure Backed (m : Custody host) : Prop where
  reaches : Reaches (BooksState.initial host) m.books
  poolAt : m.chain.PoolAt pool p
  vaults : ∀ a : Asset, (a.owed (accountsIn m.books).records : Int) + m.credit a +
    (m.pending.map fun x => a.delta x.2.vaultDelta).sum ≤ m.chain.tokenAmount (a.vault p)
  settled : ∀ x ∈ m.epochs,
    ∃ e, m.chain.EpochAt (rt.epochAddress pool x).1 e ∧ e.terminalState = .settled
  distinct : m.epochs.Nodup

variable {rt} {pool} {p}

/-- What the chain has settled stays settled. -/
theorem Backed.chain (lawful : rt.Lawful) {m : Custody host} (h : Backed rt pool p m)
    {event : Event} {c' : Chain} (hstep : rt.ChainStep m.chain event c') :
    c'.PoolAt pool p ∧ ∀ x ∈ m.epochs,
      ∃ e, c'.EpochAt (rt.epochAddress pool x).1 e ∧ e.terminalState = .settled := by
  obtain ⟨hpools, hepochs⟩ := Runtime.run_follows lawful (.cons hstep (.nil c'))
  refine ⟨hpools _ _ h.poolAt, fun x hx => ?_⟩
  obtain ⟨e, he, hsettled⟩ := h.settled x hx
  obtain ⟨e', he', hfollows⟩ := hepochs _ _ he
  exact ⟨e', he', by rw [hfollows.eq_of_final (Or.inl hsettled)]; exact hsettled⟩

theorem tallied_in (hhash : ∀ m, host.sha256 m ≠ zero32) {s : BooksState host}
    (hs : Reaches (BooksState.initial host) s) (a : Asset) :
    (a.owed (accountsIn s).records : Int) =
      ((registrations s.world.log).map fun x => ((a.of x.2).toNat : Int)).sum +
        ((commits s.world.log).map fun c => a.delta c.result.vaultDelta).sum := by
  rw [accountsIn_eq hhash hs]
  exact tallied_of_lawful hhash (books_valid hhash hs).lawful a

theorem CustodyStep.backed (lawful : rt.Lawful) (hhash : ∀ m, host.sha256 m ≠ zero32)
    {m m' : Custody host} (h : CustodyStep rt pool p m m') (hm : Backed rt pool p m) :
    Backed rt pool p m' := by
  cases h with
  | @deposit event c' amount hstep hvaults =>
    obtain ⟨hpool, hsettled⟩ := hm.chain lawful hstep
    refine ⟨hm.reaches, hpool, fun a => ?_, hsettled, hm.distinct⟩
    have hold := hm.vaults a
    have hmore := hvaults a
    simp only [Nat.cast_add]
    omega
  | @settle epochId r c' hsettle =>
    have hbatch := hsettle.batchSettled lawful hm.poolAt
    obtain ⟨event, hstep⟩ := hbatch.step
    obtain ⟨hpool, hsettled⟩ := hm.chain lawful hstep
    refine ⟨hm.reaches, hpool, fun a => ?_, ?_, ?_⟩
    · have hold := hm.vaults a
      have hvault := hbatch.vaults a
      simp only [List.map_cons, List.sum_cons]
      omega
    · intro x hx
      rcases List.mem_cons.mp hx with rfl | hx
      · exact hbatch.settled
      · exact hsettled x hx
    · -- an epoch is locked when it is settled, and those of before are settled already
      refine List.nodup_cons.mpr ⟨fun hmem => ?_, hm.distinct⟩
      obtain ⟨e, he, hlocked⟩ := hbatch.locked
      obtain ⟨e', he', hfinal⟩ := hm.settled epochId hmem
      cases he.unique he'
      cases hlocked.symm.trans hfinal
  | @calls s hs hcommits hregistrations =>
    have hreaches := hm.reaches.trans hs
    refine ⟨hreaches, hm.poolAt, fun a => ?_, ?_, ?_⟩
    · have hold := hm.vaults a
      have htally := tallied_in hhash hreaches a
      rw [hcommits, hregistrations, ← tallied_in hhash hm.reaches a] at htally
      simp only
      omega
    · simpa only [Custody.epochs, hcommits] using hm.settled
    · simpa only [Custody.epochs, hcommits] using hm.distinct
  | @register s q balance hs hcommits hregistrations hcredit =>
    have hreaches := hm.reaches.trans hs
    refine ⟨hreaches, hm.poolAt, fun a => ?_, ?_, ?_⟩
    · have hold := hm.vaults a
      have htally := tallied_in hhash hreaches a
      have htally' := tallied_in hhash hm.reaches a
      simp only [hcommits, hregistrations, List.map_cons, List.sum_cons] at htally
      have hpaid := hcredit a
      simp only [Nat.cast_sub hpaid]
      omega
    · simpa only [Custody.epochs, hcommits] using hm.settled
    · simpa only [Custody.epochs, hcommits] using hm.distinct
  | @finalize s c rest hs hcommits hregistrations hpending =>
    have hreaches := hm.reaches.trans hs
    -- the epoch moves from those that are pending to those that are committed
    have hepochs : m.epochs.Perm
        (Custody.epochs { m with books := s, pending := rest }) := by
      simp only [Custody.epochs, hcommits, List.map_cons]
      refine ((hpending.map Prod.fst).append_right _).trans ?_
      rw [List.map_cons, List.cons_append]
      exact List.perm_middle.symm
    refine ⟨hreaches, hm.poolAt, fun a => ?_, fun x hx => ?_, hepochs.nodup_iff.mp hm.distinct⟩
    · have hold := hm.vaults a
      have htally := tallied_in hhash hreaches a
      have htally' := tallied_in hhash hm.reaches a
      simp only [hcommits, hregistrations, List.map_cons, List.sum_cons] at htally
      simp only [(hpending.map fun x => a.delta x.2.vaultDelta).sum_eq, List.map_cons,
        List.sum_cons] at hold
      simp only
      omega
    · exact hm.settled x (hepochs.mem_iff.mpr hx)

theorem Backed.reaches_backed (lawful : rt.Lawful) (hhash : ∀ m, host.sha256 m ≠ zero32)
    {m m' : Custody host} (hm : Backed rt pool p m)
    (h : Relation.ReflTransGen (CustodyStep rt pool p) m m') : Backed rt pool p m' := by
  induction h with
  | refl => exact hm
  | tail _ hstep ih => exact hstep.backed lawful hhash ih

/-- An epoch: its settlement, and then the commit of its batch. -/
theorem epoch_run {c₀ c₁ : Chain} {s t : BooksState host} {credit : Asset → Nat} {c : Commit}
    (hsettle : rt.SettlesBatch pool c₀ c.epochId c.result c₁) (hs : Reaches s t)
    (hcommits : commits t.world.log = c :: commits s.world.log)
    (hregistrations : registrations t.world.log = registrations s.world.log) :
    Relation.ReflTransGen (CustodyStep rt pool p) ⟨c₀, s, credit, []⟩ ⟨c₁, t, credit, []⟩ :=
  .tail (.single (.settle hsettle)) (.finalize hs hcommits hregistrations (.refl _))

/-- A settlement that is pending can be applied: its epoch is new to the accounts. -/
theorem Backed.pending_fresh (hhash : ∀ m, host.sha256 m ≠ zero32) {m : Custody host}
    (h : Backed rt pool p m) {x : Bytes32 × BatchResult} (hx : x ∈ m.pending) :
    x.1 ∉ (accountsIn m.books).appliedEpochs := by
  intro happlied
  rw [accountsIn_eq hhash h.reaches, Std.ExtTreeMap.mem_iff_isSome_getElem?,
    Option.isSome_iff_exists] at happlied
  obtain ⟨d, hd⟩ := happlied
  have hbalanced := balanced_of_lawful hhash (books_valid hhash h.reaches).lawful
  obtain ⟨c, hc, heq, -⟩ := (hbalanced.applied x.1 d).mp hd
  have hdisjoint := (List.nodup_append.mp h.distinct).2.2
  exact hdisjoint x.1 (List.mem_map.mpr ⟨x, hx, rfl⟩) c.epochId (List.mem_map.mpr ⟨c, hc, rfl⟩)
    heq.symm

end Custody

/-- A pool that is solvent before an epoch can pay its residual and is solvent after it, and so
after any number of epochs. -/
theorem host_solvency {rt : Runtime} (lawful : rt.Lawful) {host : Host}
    (hhash : ∀ m, host.sha256 m ≠ zero32) (pool : Pubkey) (p : PoolStateV1) :
    (∀ c accounts config before orders r, Solvent c p accounts →
      netBatch config before orders = .ok r → accounts.Current r →
      -- neither product overflows, and the pool has what it pays
      (∃ base quote,
        checkedMul config.baseLotAtoms (residualWire r.residual).2.toUInt64 = some base ∧
        checkedMul config.quoteAtomsPerLot (residualWire r.residual).2.toUInt64 = some quote ∧
        ((residualWire r.residual).1 = 1 → quote.toNat ≤ c.tokenAmount p.poolQuoteVault) ∧
        ((residualWire r.residual).1 = 2 → base.toNat ≤ c.tokenAmount p.poolBaseVault)) ∧
      ∀ epochId c' accounts', c.PoolAt pool p → rt.SettlesBatch pool c epochId r c' →
        epochId ∉ accounts.appliedEpochs → applyIn host epochId r accounts = .ok accounts' →
        Solvent c' p accounts') ∧
    ∀ m m' : Custody host, Backed rt pool p m →
      Relation.ReflTransGen (CustodyStep rt pool p) m m' →
      Backed rt pool p m' ∧ (m'.pending = [] → Solvent m'.chain p (accountsIn m'.books)) ∧
        ∀ x ∈ m'.pending, x.1 ∉ (accountsIn m'.books).appliedEpochs := by
  refine ⟨fun c accounts config before orders r hsolvent hbatch hcurrent => ⟨?_, ?_⟩, ?_⟩
  · have hlots : (residualWire r.residual).2.toUInt64.toNat = (residualWire r.residual).2.toNat :=
      UInt32.toNat_toUInt64 _
    have hbase := hsolvent.lots_le hbatch hcurrent .base
    have hquote := hsolvent.lots_le hbatch hcurrent .quote
    rw [← hlots] at hbase hquote
    obtain ⟨base, hproduct, heq⟩ :=
      checkedMul_of_lt (lt_of_le_of_lt hbase (tokenAmount_lt c _))
    obtain ⟨quote, hproduct', heq'⟩ :=
      checkedMul_of_lt (lt_of_le_of_lt hquote (tokenAmount_lt c _))
    exact ⟨base, quote, hproduct, hproduct', fun _ => heq' ▸ hquote, fun _ => heq ▸ hbase⟩
  · intro epochId c' accounts' hpool hsettle hfresh happly
    exact hsolvent.epoch lawful hpool hsettle hfresh happly
  · intro m m' hm hrun
    have hbacked := hm.reaches_backed lawful hhash hrun
    refine ⟨hbacked, fun hnone a => ?_, fun x hx => hbacked.pending_fresh hhash hx⟩
    have hvault := hbacked.vaults a
    rw [hnone, List.map_nil, List.sum_nil] at hvault
    omega

namespace Sample

theorem ten_ne : (10 : UInt64) ≠ 0 := by decide

def tenLots : BatchConfig := ⟨10, 100, ten_ne, hundred_ne⟩

def buyersNetting : Except LedgerError BatchResult :=
  netBatch tenLots (Map.ofList [(alice, ⟨10, 400⟩), (bob, ⟨10, 400⟩)])
    [order alice .buy, order bob .buy]

theorem buyersNetting_ok : buyersNetting = .ok (buyersNetting.toOption.getD noResult) :=
  eq_ok_of_isSome _ (by decide)

/-- Two buyers, whose lots come from the venue. -/
def buyers : NettedBatch := ⟨buyersNetting.toOption.getD noResult, _, _, _, buyersNetting_ok⟩

def buyersCommit : Commit := ⟨epochId, buyers, [key 91, key 92]⟩

def reserveBuy (nonce p : Bytes32) (hnonce : nonce ≠ zero32) (hp : p ≠ zero32) : BooksOp host :=
  .reserve ⟨nonce, epochId, p, 10, 100, .reserved, hnonce, epochId_ne, hp, ten_ne, hundred_ne⟩ rfl
    ⟨10, 400⟩

def buyersBooks : BooksState host :=
  (BooksState.initial host).soloAll
    [.openAccounts, .openReservations, .register alice ⟨key 71, Eq.refl true⟩ ⟨10, 400⟩,
      .register bob ⟨key 72, Eq.refl true⟩ ⟨10, 400⟩,
      reserveBuy (key 91) alice key_91_ne alice_ne,
      reserveBuy (key 92) bob key_92_ne bob_ne]

def settledBooks : BooksState host := buyersBooks.solo (finalize buyersCommit)

def custody : Custody host := ⟨lockChain, buyersBooks, fun _ => 0, []⟩

def settledCustody : Custody host := ⟨settleChain, settledBooks, fun _ => 0, []⟩

theorem buyersBooks_reaches : Reaches (BooksState.initial host) buyersBooks ∧ buyersBooks.Free :=
  State.Free.reaches_soloAll (s := BooksState.initial host) (fun _ => rfl) _

theorem settledBooks_reaches : Reaches buyersBooks settledBooks :=
  (buyersBooks_reaches.2.reaches_solo (finalize buyersCommit)).1

/-- The sample chain and the sample accounts before and after the settlement, evaluated once. -/
theorem buyers_facts :
    (((commits buyersBooks.world.log).map fun c => (c.epochId, c.result, c.nonces)) = [] ∧
      ((commits settledBooks.world.log).map fun c => (c.epochId, c.result, c.nonces)) =
        [(buyersCommit.epochId, buyersCommit.result, buyersCommit.nonces)] ∧
      registrations settledBooks.world.log = registrations buyersBooks.world.log) ∧
    ((lockChain pool).owner = programId ∧ (lockChain pool).data = poolState.encode ∧
      (lockChain epoch).owner = programId ∧ (lockChain epoch).data = lockedEpoch.encode) ∧
    (∀ a ∈ [Asset.base, Asset.quote], (a.owed (accountsIn custody.books).records : Int) +
      custody.credit a + (custody.pending.map fun x => a.delta x.2.vaultDelta).sum ≤
        custody.chain.tokenAmount (a.vault poolState)) ∧
    (KagebInstruction.decode settleCall.encode = .ok settleCall ∧
      (compact.residualSide, compact.residualLots) = residualWire buyers.result.residual ∧
      (rt.processInstruction settleTx lockChain programId settleAccounts
        settleCall.encode).isOk = true) ∧
    ((applyIn host epochId buyers.result (accountsIn custody.books)).toOption.isSome ∧
      (accountsIn custody.books).appliedEpochs[epochId]? = none) ∧
    residualWire buyers.result.residual = (1, 2) ∧
    Asset.base.owed (accountsIn settledCustody.books).records = 40 := by
  decide +kernel

theorem buyersBooks_commits : commits buyersBooks.world.log = [] :=
  List.map_injective_iff.mpr commitKey_injective buyers_facts.1.1

theorem settledBooks_commits : commits settledBooks.world.log = [buyersCommit] :=
  List.map_injective_iff.mpr commitKey_injective buyers_facts.1.2.1

theorem custody_backed : Backed rt pool poolState custody where
  reaches := buyersBooks_reaches.1
  poolAt := ⟨buyers_facts.2.1.1, buyers_facts.2.1.2.1⟩
  vaults a := buyers_facts.2.2.1 a (by cases a <;> decide)
  settled x hx := by simp [Custody.epochs, custody, buyersBooks_commits] at hx
  distinct := by simp [Custody.epochs, custody, buyersBooks_commits]

theorem buyers_settle : rt.SettlesBatch pool lockChain epochId buyers.result settleChain := by
  obtain ⟨-, ⟨-, -, hepoch⟩, -, ⟨hdecode, hresidual, hok⟩, -⟩ := buyers_facts
  exact @Runtime.SettlesBatch.intro rt pool lockChain settleTx settleAccounts settleCall.encode
    compact epoch lockedEpoch tenLots _ _ buyers.result settleChain hdecode rfl hepoch rfl
    buyersNetting_ok ⟨rfl, rfl⟩ hresidual (rt.execute_ok hok)

theorem custody_run :
    Relation.ReflTransGen (CustodyStep rt pool poolState) custody settledCustody := by
  have hcommits : commits settledBooks.world.log =
      buyersCommit :: commits buyersBooks.world.log := by
    rw [settledBooks_commits, buyersBooks_commits]
  exact epoch_run buyers_settle settledBooks_reaches hcommits buyers_facts.1.2.2

theorem buyers_current : (accountsIn custody.books).Current buyers.result := by
  obtain ⟨-, -, -, -, ⟨hisSome, hnone⟩, -⟩ := buyers_facts
  have happly : applyIn host epochId buyers.result (accountsIn custody.books) = .ok _ :=
    eq_ok_of_isSome .empty hisSome
  obtain ⟨-, ⟨happlied, -⟩ | ⟨-, hcurrent, -⟩⟩ := applyIn_ok.mp happly
  · cases hnone.symm.trans happlied.digest
  · exact hcurrent

end Sample

/-- Two buyers with ten lots each: the pool can pay for two lots more, and is solvent when they
have them. -/
theorem host_solvency_buyers :
    (∃ base quote, checkedMul 10 (2 : UInt32).toUInt64 = some base ∧
      checkedMul 100 (2 : UInt32).toUInt64 = some quote ∧
      quote.toNat ≤ Sample.custody.chain.tokenAmount Sample.quoteVault) ∧
    Asset.base.owed (accountsIn Sample.settledCustody.books).records = 40 ∧
    Solvent Sample.settledCustody.chain Sample.poolState (accountsIn Sample.settledCustody.books) := by
  obtain ⟨hepoch, hrun⟩ := @host_solvency Sample.rt Sample.hashes.runtime_lawful Sample.host
    Sample.sha256_ne Sample.pool Sample.poolState
  obtain ⟨-, -, -, -, -, hwire, howed⟩ := Sample.buyers_facts
  refine ⟨?_, howed, (hrun _ _ Sample.custody_backed Sample.custody_run).2.1 rfl⟩
  have hsolvent : Solvent Sample.custody.chain Sample.poolState (accountsIn Sample.custody.books) :=
    (hrun _ _ Sample.custody_backed .refl).2.1 rfl
  obtain ⟨⟨base, quote, hbase, hquote, hpays, -⟩, -⟩ :=
    hepoch _ _ _ _ _ _ hsolvent Sample.buyersNetting_ok Sample.buyers_current
  have hresidual : residualWire (Sample.buyersNetting.toOption.getD Sample.noResult).residual =
      (1, 2) := hwire
  rw [hresidual] at hbase hquote hpays
  exact ⟨base, quote, hbase, hquote, hpays rfl⟩

end Kageb
