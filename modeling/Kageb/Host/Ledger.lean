import Kageb.Host.Domain
import Kageb.Lib.Maps

/-! Netting: every order of a batch is filled against the balance of its participant, and what
buys and sells do not cancel is the residual. -/

namespace Kageb

open Binary Checks Maps

abbrev ParticipantId := Bytes32

inductive LedgerError where
  | invalidConfig
  | invalidLimit
  | emptyBatch
  | unknownParticipant (participantId : ParticipantId)
  | duplicateParticipant (participantId : ParticipantId)
  | insufficientReservation (participantId : ParticipantId)
  | limitViolated (participantId : ParticipantId)
  | arithmeticOverflow
  | conservationFailed
  deriving DecidableEq

def checkedAdd (a b : UInt64) : Option UInt64 :=
  if a.toNat + b.toNat < 2 ^ 64 then some (a + b) else none

def checkedSub (a b : UInt64) : Option UInt64 := if b ≤ a then some (a - b) else none

-- `checked_add(1)` of a 32-bit counter
def checkedSucc (a : UInt32) : Option UInt32 := if a.toNat + 1 < 2 ^ 32 then some (a + 1) else none

/-- The result of a checked operation on 128-bit signed words. -/
def checkedInt (value : Int) : Option Int :=
  if -2 ^ 127 ≤ value ∧ value < 2 ^ 127 then some value else none

structure BatchConfig where
  baseLotAtoms : UInt64
  quoteAtomsPerLot : UInt64
  baseLotAtoms_ne : baseLotAtoms ≠ 0
  quoteAtomsPerLot_ne : quoteAtomsPerLot ≠ 0

def BatchConfig.new (baseLotAtoms quoteAtomsPerLot : UInt64) : Except LedgerError BatchConfig :=
  if h : baseLotAtoms = 0 ∨ quoteAtomsPerLot = 0 then .error .invalidConfig
  else .ok ⟨baseLotAtoms, quoteAtomsPerLot, fun hb => h (.inl hb), fun hq => h (.inr hq)⟩

theorem BatchConfig.new_ok {baseLotAtoms quoteAtomsPerLot : UInt64} {config : BatchConfig}
    (h : BatchConfig.new baseLotAtoms quoteAtomsPerLot = .ok config) :
    config.baseLotAtoms = baseLotAtoms ∧ config.quoteAtomsPerLot = quoteAtomsPerLot := by
  unfold BatchConfig.new at h
  split at h
  · cases h
  · cases h
    exact ⟨rfl, rfl⟩

structure PoolBalance where
  baseAtoms : UInt64
  quoteAtoms : UInt64
  deriving DecidableEq

@[ext] structure FundedOrder where
  participantId : ParticipantId
  side : Side
  limitPrice : UInt64
  limitPrice_ne : limitPrice ≠ 0

instance : DecidableEq FundedOrder := fun a b =>
  decidable_of_iff
    (a.participantId = b.participantId ∧ a.side = b.side ∧ a.limitPrice = b.limitPrice)
    FundedOrder.ext_iff.symm

def FundedOrder.new (participantId : ParticipantId) (side : Side) (limitPrice : UInt64) :
    Except LedgerError FundedOrder :=
  if h : limitPrice = 0 then .error .invalidLimit else .ok ⟨participantId, side, limitPrice, h⟩

inductive Residual where
  | none
  | buy (lots : UInt32)
  | sell (lots : UInt32)
  deriving DecidableEq

/-- Two 128-bit signed words. -/
structure VaultDelta where
  baseAtoms : Int
  quoteAtoms : Int
  deriving DecidableEq

@[ext] structure BatchResult where
  beforeBalances : Map ParticipantId PoolBalance
  balances : Map ParticipantId PoolBalance
  residual : Residual
  vaultDelta : VaultDelta
  deriving DecidableEq

def totals (balances : Map ParticipantId PoolBalance) : Option (Int × Int) :=
  balances.toList.foldlM (fun total entry => do
    let base ← checkedInt (total.1 + entry.2.baseAtoms.toNat)
    let quote ← checkedInt (total.2 + entry.2.quoteAtoms.toNat)
    some (base, quote)) (0, 0)

def BatchResult.conserves (r : BatchResult) (before : Map ParticipantId PoolBalance) : Bool :=
  match totals before, totals r.balances with
  | some (beforeBase, beforeQuote), some (afterBase, afterQuote) =>
    checkedInt (beforeBase + r.vaultDelta.baseAtoms) = some afterBase &&
      checkedInt (beforeQuote + r.vaultDelta.quoteAtoms) = some afterQuote
  | _, _ => false

/-- The balances and the counts of filled orders while a batch is netted. -/
structure Netting where
  balances : Map ParticipantId PoolBalance
  buys : UInt32
  sells : UInt32

def rejectDuplicates (seen : Finset ParticipantId) : List FundedOrder → Except LedgerError Unit
  | [] => .ok ()
  | order :: orders => do
    rejectIf (order.participantId ∈ seen) (.duplicateParticipant order.participantId)
    rejectDuplicates (insert order.participantId seen) orders

def fillOrder (config : BatchConfig) (n : Netting) (order : FundedOrder) :
    Except LedgerError Netting := do
  let balance ← okOr n.balances[order.participantId]? (.unknownParticipant order.participantId)
  rejectIf (balance.baseAtoms < config.baseLotAtoms ∨ balance.quoteAtoms < config.quoteAtomsPerLot)
    (.insufficientReservation order.participantId)
  match order.side with
  | .buy => do
    rejectIf (config.quoteAtomsPerLot > order.limitPrice) (.limitViolated order.participantId)
    let baseAtoms ← okOr (checkedAdd balance.baseAtoms config.baseLotAtoms) .arithmeticOverflow
    let quoteAtoms ← okOr (checkedSub balance.quoteAtoms config.quoteAtomsPerLot)
      .arithmeticOverflow
    let buys ← okOr (checkedSucc n.buys) .arithmeticOverflow
    .ok { n with balances := n.balances.insert order.participantId ⟨baseAtoms, quoteAtoms⟩, buys }
  | .sell => do
    rejectIf (config.quoteAtomsPerLot < order.limitPrice) (.limitViolated order.participantId)
    let baseAtoms ← okOr (checkedSub balance.baseAtoms config.baseLotAtoms) .arithmeticOverflow
    let quoteAtoms ← okOr (checkedAdd balance.quoteAtoms config.quoteAtomsPerLot)
      .arithmeticOverflow
    let sells ← okOr (checkedSucc n.sells) .arithmeticOverflow
    .ok { n with balances := n.balances.insert order.participantId ⟨baseAtoms, quoteAtoms⟩, sells }

def Netting.residual (n : Netting) : Residual × Int :=
  if n.sells < n.buys then (.buy (n.buys - n.sells), (n.buys - n.sells).toNat)
  else if n.buys < n.sells then (.sell (n.sells - n.buys), -(n.sells - n.buys).toNat)
  else (.none, 0)

theorem word_sub_ne_zero {a b : UInt32} (h : b < a) : a - b ≠ 0 := by
  intro heq
  have hsame : a = b := by grind
  exact UInt32.lt_irrefl b (hsame ▸ h)

theorem one_le_word {a : UInt32} : 1 ≤ a ↔ a ≠ 0 := by
  rw [UInt32.le_iff_toNat_le, Ne, ← UInt32.toNat_inj]
  exact Nat.one_le_iff_ne_zero

def netBatch (config : BatchConfig) (before : Map ParticipantId PoolBalance)
    (orders : List FundedOrder) : Except LedgerError BatchResult := do
  rejectIf (orders = []) .emptyBatch
  rejectDuplicates ∅ orders
  let n ← orders.foldlM (fillOrder config) ⟨before, 0, 0⟩
  let (residual, signedLots) := n.residual
  let baseAtoms ← okOr (checkedInt (signedLots * config.baseLotAtoms.toNat)) .arithmeticOverflow
  let quoteAtoms ← okOr ((checkedInt (signedLots * config.quoteAtomsPerLot.toNat)).bind
    fun product => checkedInt (-product)) .arithmeticOverflow
  let result : BatchResult := ⟨before, n.balances, residual, ⟨baseAtoms, quoteAtoms⟩⟩
  rejectIf (result.conserves before = false) .conservationFailed
  .ok result

/-! ### What a netted batch holds -/

theorem rejectDuplicates_ok {orders : List FundedOrder} {seen : Finset ParticipantId} :
    rejectDuplicates seen orders = .ok () ↔
      (orders.map FundedOrder.participantId).Nodup ∧
        ∀ order ∈ orders, order.participantId ∉ seen := by
  induction orders generalizing seen with
  | nil => simp [rejectDuplicates]
  | cons order orders ih =>
    rw [rejectDuplicates, rejectIf_bind_ok, ih]
    simp only [List.map_cons, List.nodup_cons, List.mem_map, List.forall_mem_cons,
      Finset.mem_insert, not_or, not_exists, not_and]
    constructor
    · rintro ⟨hnew, hnodup, hrest⟩
      exact ⟨⟨fun o ho => (hrest o ho).1, hnodup⟩, hnew, fun o ho => (hrest o ho).2⟩
    · rintro ⟨⟨hhead, hnodup⟩, hnew, hrest⟩
      exact ⟨hnew, hnodup, fun o ho => ⟨hhead o ho, hrest o ho⟩⟩

/-- The balance after an order for one lot. -/
def FundedOrder.fill (config : BatchConfig) (order : FundedOrder) (balance : PoolBalance) :
    PoolBalance :=
  match order.side with
  | .buy => ⟨balance.baseAtoms + config.baseLotAtoms, balance.quoteAtoms - config.quoteAtomsPerLot⟩
  | .sell => ⟨balance.baseAtoms - config.baseLotAtoms, balance.quoteAtoms + config.quoteAtomsPerLot⟩

theorem checkedAdd_eq_some {a b c : UInt64} (h : checkedAdd a b = some c) : c = a + b := by
  unfold checkedAdd at h
  split_ifs at h
  exact (Option.some.inj h).symm

theorem checkedSub_eq_some {a b c : UInt64} (h : checkedSub a b = some c) : c = a - b := by
  unfold checkedSub at h
  split_ifs at h
  exact (Option.some.inj h).symm

theorem checkedSucc_eq_some {a b : UInt32} (h : checkedSucc a = some b) :
    b.toNat = a.toNat + 1 := by
  unfold checkedSucc at h
  split_ifs at h with hlt
  rw [← Option.some.inj h, UInt32.toNat_add]
  exact Nat.mod_eq_of_lt hlt

/-- A filled order changes the balance of its participant and one of the counts. -/
structure Filled (config : BatchConfig) (order : FundedOrder) (n n' : Netting) : Prop where
  balance : ∃ b, n.balances[order.participantId]? = some b ∧
    n'.balances = n.balances.insert order.participantId (order.fill config b)
  buys : n'.buys.toNat = n.buys.toNat + if order.side = .buy then 1 else 0
  sells : n'.sells.toNat = n.sells.toNat + if order.side = .sell then 1 else 0

theorem fillOrder_ok {config : BatchConfig} {order : FundedOrder} {n n' : Netting}
    (h : fillOrder config n order = .ok n') : Filled config order n n' := by
  simp only [fillOrder, bind_ok, okOr_eq_ok, Unique.exists_iff, rejectIf_eq_ok] at h
  obtain ⟨balance, hbalance, -, h⟩ := h
  split at h
  · rename_i hside
    simp only [bind_ok, okOr_eq_ok, Unique.exists_iff] at h
    obtain ⟨-, base, hbase, quote, hquote, buys, hbuys, hn⟩ := h
    cases hn
    refine ⟨⟨balance, hbalance, ?_⟩, by simpa [hside] using checkedSucc_eq_some hbuys, ?_⟩
    · simp only [FundedOrder.fill, hside, checkedAdd_eq_some hbase, checkedSub_eq_some hquote]
    · simp [hside]
  · rename_i hside
    simp only [bind_ok, okOr_eq_ok, Unique.exists_iff] at h
    obtain ⟨-, base, hbase, quote, hquote, sells, hsells, hn⟩ := h
    cases hn
    refine ⟨⟨balance, hbalance, ?_⟩, ?_, by simpa [hside] using checkedSucc_eq_some hsells⟩
    · simp only [FundedOrder.fill, hside, checkedSub_eq_some hbase, checkedAdd_eq_some hquote]
    · simp [hside]

/-- Orders of distinct participants change the balance of each of them once, and no other. -/
structure AllFilled (config : BatchConfig) (orders : List FundedOrder) (n n' : Netting) :
    Prop where
  filled : ∀ order ∈ orders, ∃ b, n.balances[order.participantId]? = some b ∧
    n'.balances[order.participantId]? = some (order.fill config b)
  others : ∀ p, (∀ order ∈ orders, order.participantId ≠ p) → n'.balances[p]? = n.balances[p]?
  buys : n'.buys.toNat = n.buys.toNat + orders.countP (·.side = .buy)
  sells : n'.sells.toNat = n.sells.toNat + orders.countP (·.side = .sell)

theorem fillOrders_ok {config : BatchConfig} {orders : List FundedOrder} {n n' : Netting}
    (hdistinct : (orders.map FundedOrder.participantId).Nodup)
    (h : orders.foldlM (fillOrder config) n = .ok n') : AllFilled config orders n n' := by
  induction orders generalizing n with
  | nil =>
    cases h
    exact ⟨by simp, by simp, by simp, by simp⟩
  | cons order orders ih =>
    rw [List.foldlM_cons] at h
    obtain ⟨mid, hmid, hrest⟩ := bind_ok.mp h
    rw [List.map_cons, List.nodup_cons, List.mem_map] at hdistinct
    have hhead := fillOrder_ok hmid
    have htail := ih hdistinct.2 hrest
    have hnot : ∀ o ∈ orders, o.participantId ≠ order.participantId := fun o ho heq =>
      hdistinct.1 ⟨o, ho, heq⟩
    obtain ⟨b, hb, hbalances⟩ := hhead.balance
    have hmidOf : ∀ p, order.participantId ≠ p → mid.balances[p]? = n.balances[p]? := by
      intro p hp
      rw [hbalances, Map.getElem?_insert, if_neg hp]
    refine ⟨?_, ?_, ?_, ?_⟩
    · intro o ho
      rcases List.mem_cons.mp ho with rfl | ho
      · refine ⟨b, hb, ?_⟩
        rw [htail.others _ hnot, hbalances, Map.getElem?_insert, if_pos rfl]
      · obtain ⟨b', hb', hfill⟩ := htail.filled o ho
        exact ⟨b', (hmidOf _ (hnot o ho).symm).symm.trans hb', hfill⟩
    · intro p hp
      rw [List.forall_mem_cons] at hp
      exact (htail.others p hp.2).trans (hmidOf p hp.1)
    · rw [htail.buys, hhead.buys, List.countP_cons]
      simp only [decide_eq_true_eq]
      omega
    · rw [htail.sells, hhead.sells, List.countP_cons]
      simp only [decide_eq_true_eq]
      omega

/-- What is known of the result of a netted batch. -/
structure Netted (config : BatchConfig) (before : Map ParticipantId PoolBalance)
    (orders : List FundedOrder) (r : BatchResult) : Prop where
  nonempty : orders ≠ []
  distinct : (orders.map FundedOrder.participantId).Nodup
  beforeBalances : r.beforeBalances = before
  filled : ∃ n, AllFilled config orders ⟨before, 0, 0⟩ n ∧ r.balances = n.balances ∧
    r.residual = n.residual.1 ∧
    r.vaultDelta = ⟨n.residual.2 * config.baseLotAtoms.toNat,
      -(n.residual.2 * config.quoteAtomsPerLot.toNat)⟩
  conserved : r.conserves before = true

theorem checkedInt_eq_some {a b : Int} (h : checkedInt a = some b) : b = a := by
  unfold checkedInt at h
  split_ifs at h
  exact (Option.some.inj h).symm

theorem netBatch_ok {config : BatchConfig} {before : Map ParticipantId PoolBalance}
    {orders : List FundedOrder} {r : BatchResult} (h : netBatch config before orders = .ok r) :
    Netted config before orders r := by
  simp only [netBatch, bind_ok, Unique.exists_iff, rejectIf_eq_ok, okOr_eq_ok,
    Option.bind_eq_some_iff] at h
  obtain ⟨hne, hdistinct, n, hn, base, hbase, quote, ⟨product, hproduct, hquote⟩, hconserves, hr⟩ :=
    h
  obtain ⟨hdistinct, -⟩ := rejectDuplicates_ok.mp hdistinct
  cases hr
  refine ⟨hne, hdistinct, rfl, ⟨n, fillOrders_ok hdistinct hn, rfl, rfl, ?_⟩, by simpa using hconserves⟩
  rw [checkedInt_eq_some hbase, checkedInt_eq_some hquote, checkedInt_eq_some hproduct]

theorem Netting.ext_counts {n n' : Netting} (hbuys : n.buys.toNat = n'.buys.toNat)
    (hsells : n.sells.toNat = n'.sells.toNat) : n.residual = n'.residual := by
  unfold Netting.residual
  rw [UInt32.toNat_inj.mp hbuys, UInt32.toNat_inj.mp hsells]

theorem AllFilled.mem_or_others {config : BatchConfig} {orders : List FundedOrder}
    {n n' : Netting} (h : AllFilled config orders n n') (p : ParticipantId) :
    (∃ order ∈ orders, order.participantId = p ∧ ∃ b, n.balances[p]? = some b ∧
      n'.balances[p]? = some (order.fill config b)) ∨
    (∀ order ∈ orders, order.participantId ≠ p) ∧ n'.balances[p]? = n.balances[p]? := by
  by_cases hp : ∃ order ∈ orders, order.participantId = p
  · obtain ⟨order, horder, rfl⟩ := hp
    exact Or.inl ⟨order, horder, rfl, h.filled order horder⟩
  · have hnone : ∀ order ∈ orders, order.participantId ≠ p := fun o ho heq => hp ⟨o, ho, heq⟩
    exact Or.inr ⟨hnone, h.others p hnone⟩

/-- The order of a batch does not matter. -/
theorem Netted.perm {config : BatchConfig} {before : Map ParticipantId PoolBalance}
    {orders orders' : List FundedOrder} {r r' : BatchResult} (h : Netted config before orders r)
    (h' : Netted config before orders' r') (hperm : orders.Perm orders') : r = r' := by
  obtain ⟨n, hn, hbalances, hresidual, hdelta⟩ := h.filled
  obtain ⟨n', hn', hbalances', hresidual', hdelta'⟩ := h'.filled
  have hcounts : n.residual = n'.residual := by
    apply Netting.ext_counts
    · rw [hn.buys, hn'.buys, hperm.countP_eq]
    · rw [hn.sells, hn'.sells, hperm.countP_eq]
  have hsame : n.balances = n'.balances := by
    apply Std.ExtTreeMap.ext_getElem?
    intro p
    rcases hn.mem_or_others p with ⟨order, horder, rfl, b, hb, hfill⟩ | ⟨hnone, hkept⟩
    · obtain ⟨b', hb', hfill'⟩ := hn'.filled order (hperm.mem_iff.mp horder)
      cases hb.symm.trans hb'
      rw [hfill, hfill']
    · rw [hkept, hn'.others p fun order horder => hnone order (hperm.mem_iff.mpr horder)]
  apply BatchResult.ext
  · rw [h.beforeBalances, h'.beforeBalances]
  · rw [hbalances, hbalances', hsame]
  · rw [hresidual, hresidual', hcounts]
  · rw [hdelta, hdelta', hcounts]

/-- Filling keeps the participants: it neither adds nor drops a balance. -/
theorem AllFilled.mem_balances {config : BatchConfig} {orders : List FundedOrder}
    {n n' : Netting} (h : AllFilled config orders n n') (p : ParticipantId) :
    p ∈ n'.balances ↔ p ∈ n.balances := by
  rw [Std.ExtTreeMap.mem_iff_isSome_getElem?, Std.ExtTreeMap.mem_iff_isSome_getElem?]
  rcases h.mem_or_others p with ⟨order, -, rfl, b, hb, hfill⟩ | ⟨-, hkept⟩
  · rw [hfill, hb]
    rfl
  · rw [hkept]

theorem Netted.mem_balances {config : BatchConfig} {before : Map ParticipantId PoolBalance}
    {orders : List FundedOrder} {r : BatchResult} (h : Netted config before orders r)
    (p : ParticipantId) : p ∈ r.balances ↔ p ∈ before := by
  obtain ⟨n, hn, hbalances, -, -⟩ := h.filled
  rw [hbalances, hn.mem_balances]

/-! ### What a member of a batch gains and pays -/

/-- The lots that an order adds to its participant. -/
def Side.lots : Side → Int
  | buy => 1
  | sell => -1

/-- The balance holds both sides of a lot, and there is room for the side that comes in. -/
structure FundedOrder.Fits (config : BatchConfig) (order : FundedOrder) (b : PoolBalance) :
    Prop where
  base : config.baseLotAtoms.toNat ≤ b.baseAtoms.toNat
  quote : config.quoteAtomsPerLot.toNat ≤ b.quoteAtoms.toNat
  bought : order.side = .buy → b.baseAtoms.toNat + config.baseLotAtoms.toNat < 2 ^ 64
  sold : order.side = .sell → b.quoteAtoms.toNat + config.quoteAtomsPerLot.toNat < 2 ^ 64

theorem checkedAdd_lt {a b c : UInt64} (h : checkedAdd a b = some c) :
    a.toNat + b.toNat < 2 ^ 64 := by
  unfold checkedAdd at h
  split_ifs at h with hlt
  exact hlt

theorem fillOrder_fits {config : BatchConfig} {order : FundedOrder} {n n' : Netting}
    (h : fillOrder config n order = .ok n') {b : PoolBalance}
    (hb : n.balances[order.participantId]? = some b) : order.Fits config b := by
  simp only [fillOrder, bind_ok, okOr_eq_ok, Unique.exists_iff, rejectIf_eq_ok, not_or] at h
  obtain ⟨balance, hbalance, ⟨hbase, hquote⟩, h⟩ := h
  cases hbalance.symm.trans hb
  simp only [UInt64.lt_iff_toNat_lt, not_lt] at hbase hquote
  split at h
  · rename_i hside
    simp only [bind_ok, okOr_eq_ok, Unique.exists_iff] at h
    obtain ⟨-, base, hadd, -⟩ := h
    exact ⟨hbase, hquote, fun _ => checkedAdd_lt hadd, by simp [hside]⟩
  · rename_i hside
    simp only [bind_ok, okOr_eq_ok, Unique.exists_iff] at h
    obtain ⟨-, base, -, quote, hadd, -⟩ := h
    exact ⟨hbase, hquote, by simp [hside], fun _ => checkedAdd_lt hadd⟩

theorem fillOrders_fits {config : BatchConfig} {orders : List FundedOrder} {n n' : Netting}
    (hdistinct : (orders.map FundedOrder.participantId).Nodup)
    (h : orders.foldlM (fillOrder config) n = .ok n') :
    ∀ order ∈ orders, ∀ b, n.balances[order.participantId]? = some b → order.Fits config b := by
  induction orders generalizing n with
  | nil => simp
  | cons order orders ih =>
    rw [List.foldlM_cons] at h
    obtain ⟨mid, hmid, hrest⟩ := bind_ok.mp h
    rw [List.map_cons, List.nodup_cons, List.mem_map] at hdistinct
    intro o ho b hb
    rcases List.mem_cons.mp ho with rfl | ho
    · exact fillOrder_fits hmid hb
    · have hne : order.participantId ≠ o.participantId := fun heq =>
        hdistinct.1 ⟨o, ho, heq.symm⟩
      obtain ⟨filled, -, hbalances⟩ := (fillOrder_ok hmid).balance
      refine ih hdistinct.2 hrest o ho b ?_
      rw [hbalances, Map.getElem?_insert, if_neg hne, hb]

theorem netBatch_fits {config : BatchConfig} {before : Map ParticipantId PoolBalance}
    {orders : List FundedOrder} {r : BatchResult} (h : netBatch config before orders = .ok r) :
    ∀ order ∈ orders, ∀ b, before[order.participantId]? = some b → order.Fits config b := by
  simp only [netBatch, bind_ok, Unique.exists_iff] at h
  obtain ⟨-, hdistinct, n, hn, -⟩ := h
  exact fillOrders_fits (rejectDuplicates_ok.mp hdistinct).1 hn

theorem FundedOrder.Fits.fill_base {config : BatchConfig} {order : FundedOrder} {b : PoolBalance}
    (h : order.Fits config b) : ((order.fill config b).baseAtoms.toNat : Int) =
      b.baseAtoms.toNat + order.side.lots * config.baseLotAtoms.toNat := by
  cases hside : order.side with
  | buy =>
    have hroom := h.bought hside
    simp only [fill, hside, Side.lots, UInt64.toNat_add, Nat.mod_eq_of_lt hroom]
    omega
  | sell =>
    have hle := h.base
    simp only [fill, hside, Side.lots, UInt64.toNat_sub_of_le _ _ (UInt64.le_iff_toNat_le.mpr hle)]
    omega

theorem FundedOrder.Fits.fill_quote {config : BatchConfig} {order : FundedOrder} {b : PoolBalance}
    (h : order.Fits config b) : ((order.fill config b).quoteAtoms.toNat : Int) =
      b.quoteAtoms.toNat - order.side.lots * config.quoteAtomsPerLot.toNat := by
  cases hside : order.side with
  | buy =>
    have hle := h.quote
    simp only [fill, hside, Side.lots, UInt64.toNat_sub_of_le _ _ (UInt64.le_iff_toNat_le.mpr hle)]
    omega
  | sell =>
    have hroom := h.sold hside
    simp only [fill, hside, Side.lots, UInt64.toNat_add, Nat.mod_eq_of_lt hroom]
    omega

/-- A filled order leaves something. -/
theorem FundedOrder.Fits.fill_ne {config : BatchConfig} {order : FundedOrder} {b : PoolBalance}
    (h : order.Fits config b) :
    ¬((order.fill config b).baseAtoms = 0 ∧ (order.fill config b).quoteAtoms = 0) := by
  rintro ⟨hbase, hquote⟩
  have hlot : config.baseLotAtoms.toNat ≠ 0 := fun h0 =>
    config.baseLotAtoms_ne (UInt64.toNat_inj.mp h0)
  have hprice : config.quoteAtomsPerLot.toNat ≠ 0 := fun h0 =>
    config.quoteAtomsPerLot_ne (UInt64.toNat_inj.mp h0)
  have hfilled := h.fill_base
  have hpaid := h.fill_quote
  rw [hbase] at hfilled
  rw [hquote] at hpaid
  cases hside : order.side <;> simp [hside, Side.lots] at hfilled hpaid <;> omega

/-! ### What a batch moves -/

/-- The side of a balance, a batch or a residual that is counted. -/
inductive Asset where
  | base
  | quote
  deriving DecidableEq

namespace Asset

def of : Asset → PoolBalance → UInt64
  | base => PoolBalance.baseAtoms
  | quote => PoolBalance.quoteAtoms

def perLot : Asset → BatchConfig → UInt64
  | base => BatchConfig.baseLotAtoms
  | quote => BatchConfig.quoteAtomsPerLot

def delta : Asset → VaultDelta → Int
  | base => VaultDelta.baseAtoms
  | quote => VaultDelta.quoteAtoms

/-- All the atoms of an asset in some balances. -/
def held (a : Asset) (balances : Map ParticipantId PoolBalance) : Nat :=
  total (fun b => (a.of b).toNat) balances

end Asset

theorem foldlM_checked {α : Type} {f g : α → Int} {l : List α} {t t' : Int × Int}
    (h : l.foldlM (fun total x => do
      let base ← checkedInt (total.1 + f x)
      let quote ← checkedInt (total.2 + g x)
      some (base, quote)) t = some t') :
    t'.1 = t.1 + (l.map f).sum ∧ t'.2 = t.2 + (l.map g).sum := by
  induction l generalizing t with
  | nil =>
    cases h
    simp
  | cons x l ih =>
    simp only [List.foldlM_cons, Option.bind_eq_bind, Option.bind_eq_some_iff] at h
    obtain ⟨mid, ⟨base, hbase, quote, hquote, hmid⟩, hrest⟩ := h
    cases hmid
    obtain ⟨h1, h2⟩ := ih hrest
    rw [checkedInt_eq_some hbase] at h1
    rw [checkedInt_eq_some hquote] at h2
    simp only [List.map_cons, List.sum_cons]
    omega

theorem totals_eq {balances : Map ParticipantId PoolBalance} {sums : Int × Int}
    (h : totals balances = some sums) :
    sums = ((Asset.base.held balances : Int), (Asset.quote.held balances : Int)) := by
  obtain ⟨hbase, hquote⟩ := foldlM_checked h
  have hcast : ∀ side : PoolBalance → UInt64,
      (balances.toList.map fun entry => ((side entry.2).toNat : Int)).sum =
        (total (fun b => (side b).toNat) balances : Nat) := fun side => by
    rw [← sum_toList, Nat.cast_list_sum, List.map_map]
    rfl
  rw [hcast PoolBalance.baseAtoms, zero_add] at hbase
  rw [hcast PoolBalance.quoteAtoms, zero_add] at hquote
  exact Prod.ext hbase hquote

/-- A batch changes what its members hold together by what it moves in the vaults. -/
theorem Netted.held {config : BatchConfig} {before : Map ParticipantId PoolBalance}
    {orders : List FundedOrder} {r : BatchResult} (h : Netted config before orders r) (a : Asset) :
    (a.held r.balances : Int) = a.held before + a.delta r.vaultDelta := by
  have hconserved := h.conserved
  unfold BatchResult.conserves at hconserved
  split at hconserved
  · rename_i hbefore hafter
    simp only [Bool.and_eq_true, decide_eq_true_eq] at hconserved
    cases totals_eq hbefore
    cases totals_eq hafter
    cases a with
    | base => exact checkedInt_eq_some hconserved.1
    | quote => exact checkedInt_eq_some hconserved.2
  · cases hconserved

/-- Every member holds both sides of a lot. -/
theorem netBatch_holds {config : BatchConfig} {before : Map ParticipantId PoolBalance}
    {orders : List FundedOrder} {r : BatchResult} (h : netBatch config before orders = .ok r)
    (a : Asset) : orders.length * (a.perLot config).toNat ≤ a.held before := by
  have hnetted := netBatch_ok h
  obtain ⟨n, hn, -⟩ := hnetted.filled
  let participants := (orders.map FundedOrder.participantId).toFinset
  have hcard : participants.card = orders.length := by
    rw [List.toFinset_card_of_nodup hnetted.distinct, List.length_map]
  have heach : ∀ q ∈ participants,
      q ∈ before ∧ (a.perLot config).toNat ≤ valueAt (fun b => (a.of b).toNat) before q := by
    intro q hq
    obtain ⟨order, horder, rfl⟩ := List.mem_map.mp (List.mem_toFinset.mp hq)
    obtain ⟨b, hb, -⟩ := hn.filled order horder
    have hfits := netBatch_fits h order horder b hb
    refine ⟨?_, ?_⟩
    · rw [Std.ExtTreeMap.mem_iff_isSome_getElem?, show before[order.participantId]? = some b from hb]
      rfl
    · rw [valueAt_of_some _ hb]
      cases a with
      | base => exact hfits.base
      | quote => exact hfits.quote
  calc orders.length * (a.perLot config).toNat
      = participants.card • (a.perLot config).toNat := by rw [hcard, smul_eq_mul]
    _ ≤ ∑ q ∈ participants, valueAt (fun b => (a.of b).toNat) before q :=
        Finset.card_nsmul_le_sum _ _ _ fun q hq => (heach q hq).2
    _ ≤ a.held before :=
        Finset.sum_le_sum_of_subset fun q hq => mem_domain.mpr (heach q hq).1

end Kageb
