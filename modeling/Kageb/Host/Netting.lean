import Kageb.Host.Ledger

/-! When a batch nets, and to what: netting succeeds exactly for distinct funded participants whose
limits allow the price and whose credits fit, in any order, and moves one lot for each of them. -/

namespace Kageb

open Binary Checks Maps

/-! ### Where netting can stop -/

/-- The balance holds both sides of a lot. -/
structure BatchConfig.Funds (config : BatchConfig) (b : PoolBalance) : Prop where
  base : config.baseLotAtoms ≤ b.baseAtoms
  quote : config.quoteAtomsPerLot ≤ b.quoteAtoms

/-- The lot costs more than a buyer pays, or brings less than a seller takes. -/
def FundedOrder.LimitViolated (config : BatchConfig) (order : FundedOrder) : Prop :=
  order.side = .buy ∧ order.limitPrice < config.quoteAtomsPerLot ∨
    order.side = .sell ∧ config.quoteAtomsPerLot < order.limitPrice

/-- The side that comes in does not fit in 64 bits. -/
def FundedOrder.CreditOverflows (config : BatchConfig) (order : FundedOrder) (b : PoolBalance) :
    Prop :=
  order.side = .buy ∧ 2 ^ 64 ≤ b.baseAtoms.toNat + config.baseLotAtoms.toNat ∨
    order.side = .sell ∧ 2 ^ 64 ≤ b.quoteAtoms.toNat + config.quoteAtomsPerLot.toNat

/-- What can stop the order of a funded participant. -/
inductive FundedOrder.Fails (config : BatchConfig) (order : FundedOrder) (b : PoolBalance) :
    LedgerError → Prop
  | limit (violated : order.LimitViolated config) :
      Fails config order b (.limitViolated order.participantId)
  | overflow (overflows : order.CreditOverflows config b) :
      Fails config order b .arithmeticOverflow

theorem checkedAdd_eq_none {a b : UInt64} (h : checkedAdd a b = none) :
    2 ^ 64 ≤ a.toNat + b.toNat := by
  unfold checkedAdd at h
  split_ifs at h with hlt
  exact not_lt.mp hlt

theorem checkedSub_ne_none {a b : UInt64} (h : b ≤ a) : checkedSub a b ≠ none := by
  simp [checkedSub, h]

theorem checkedSucc_ne_none {a : UInt32} (h : a.toNat + 1 < 2 ^ 32) : checkedSucc a ≠ none := by
  rw [checkedSucc, if_pos h]
  exact Option.some_ne_none _

section Netting

variable {config : BatchConfig} {before : Map ParticipantId PoolBalance}
  {orders : List FundedOrder} {n n' : Netting}

theorem fillOrder_error {order : FundedOrder} {b : PoolBalance} {e : LedgerError}
    (hb : n.balances[order.participantId]? = some b) (hfunds : config.Funds b)
    (hcount : n.buys.toNat + n.sells.toNat + 1 < 2 ^ 32)
    (h : fillOrder config n order = .error e) : order.Fails config b e := by
  rw [fillOrder, hb] at h
  replace h := (rejectIf_bind_of_not ?_).symm.trans h
  · split at h
    · rename_i hside
      simp only [bind_error, rejectIf_eq_error, okOr_eq_error, okOr_eq_ok, rejectIf_eq_ok,
        checkedSub_ne_none hfunds.quote, checkedSucc_ne_none (a := n.buys) (by omega), false_and,
        and_false, or_false, exists_false, reduceCtorEq] at h
      obtain ⟨hlimit, rfl⟩ | ⟨-, -, hoverflow, rfl⟩ := h
      · exact .limit (.inl ⟨hside, hlimit⟩)
      · exact .overflow (.inl ⟨hside, checkedAdd_eq_none hoverflow⟩)
    · rename_i hside
      simp only [bind_error, rejectIf_eq_error, okOr_eq_error, okOr_eq_ok, rejectIf_eq_ok,
        checkedSub_ne_none hfunds.base, checkedSucc_ne_none (a := n.sells) (by omega), false_and,
        and_false, false_or, or_false, exists_false, reduceCtorEq] at h
      obtain ⟨hlimit, rfl⟩ | ⟨-, -, -, -, hoverflow, rfl⟩ := h
      · exact .limit (.inr ⟨hside, hlimit⟩)
      · exact .overflow (.inr ⟨hside, checkedAdd_eq_none hoverflow⟩)
  · rw [not_or, UInt64.not_lt, UInt64.not_lt]
    exact ⟨hfunds.base, hfunds.quote⟩

/-- Orders of distinct funded participants stop at one of them, if at all. -/
theorem fillOrders_error {e : LedgerError}
    (hdistinct : (orders.map FundedOrder.participantId).Nodup)
    (hfunds : ∀ order ∈ orders, ∃ b, n.balances[order.participantId]? = some b ∧ config.Funds b)
    (hcount : n.buys.toNat + n.sells.toNat + orders.length < 2 ^ 32)
    (h : orders.foldlM (fillOrder config) n = .error e) :
    ∃ order ∈ orders, ∃ b, n.balances[order.participantId]? = some b ∧ order.Fails config b e := by
  induction orders generalizing n with
  | nil => cases h
  | cons order orders ih =>
    rw [List.foldlM_cons] at h
    rw [List.map_cons, List.nodup_cons, List.mem_map] at hdistinct
    rw [List.length_cons] at hcount
    rcases bind_error.mp h with hhead | ⟨mid, hmid, hrest⟩
    · obtain ⟨b, hb, hfunded⟩ := hfunds order List.mem_cons_self
      exact ⟨order, List.mem_cons_self, b, hb, fillOrder_error hb hfunded (by omega) hhead⟩
    · have hfilled := fillOrder_ok hmid
      -- the balances of the other participants are as before
      have hkept : ∀ o ∈ orders, mid.balances[o.participantId]? = n.balances[o.participantId]? := by
        intro o ho
        obtain ⟨b, -, hbalances⟩ := hfilled.balance
        rw [hbalances, Map.getElem?_insert, if_neg fun heq => hdistinct.1 ⟨o, ho, heq.symm⟩]
      have hcounts : mid.buys.toNat + mid.sells.toNat = n.buys.toNat + n.sells.toNat + 1 := by
        rw [hfilled.buys, hfilled.sells]
        cases order.side <;> simp <;> omega
      obtain ⟨o, ho, b, hb, hfails⟩ := ih hdistinct.2
        (fun o ho => by
          rw [hkept o ho]
          exact hfunds o (List.mem_cons_of_mem _ ho))
        (by omega) hrest
      exact ⟨o, List.mem_cons_of_mem _ ho, b, (hkept o ho).symm.trans hb, hfails⟩

/-! ### What is netted is conserved -/

/-- What an order adds to the side of its participant's balance. -/
def Asset.gain (a : Asset) (config : BatchConfig) (side : Side) : Int :=
  match a with
  | base => side.lots * config.baseLotAtoms.toNat
  | quote => -(side.lots * config.quoteAtomsPerLot.toNat)

theorem fillOrder_held {order : FundedOrder} (h : fillOrder config n order = .ok n') (a : Asset) :
    (a.held n'.balances : Int) = a.held n.balances + a.gain config order.side := by
  obtain ⟨b, hb, hbalances⟩ := (fillOrder_ok h).balance
  have hfits := fillOrder_fits h hb
  have hupdate := total_update (fun b => (a.of b).toNat) hb (order.fill config b)
  rw [← hbalances] at hupdate
  have hgain : ((a.of (order.fill config b)).toNat : Int) =
      (a.of b).toNat + a.gain config order.side := by
    cases a with
    | base => exact hfits.fill_base
    | quote => exact hfits.fill_quote
  simp only [Asset.held]
  omega

theorem fillOrders_held (h : orders.foldlM (fillOrder config) n = .ok n') (a : Asset) :
    (a.held n'.balances : Int) =
      a.held n.balances + (orders.map fun order => a.gain config order.side).sum := by
  induction orders generalizing n with
  | nil =>
    cases h
    simp
  | cons order orders ih =>
    rw [List.foldlM_cons] at h
    obtain ⟨mid, hmid, hrest⟩ := bind_ok.mp h
    rw [ih hrest, fillOrder_held hmid, List.map_cons, List.sum_cons]
    ring

theorem Netting.residual_signed (n : Netting) :
    n.residual.2 = (n.buys.toNat : Int) - n.sells.toNat := by
  unfold Netting.residual
  split_ifs with hbuys hsells
  · rw [UInt32.toNat_sub_of_le _ _ (UInt32.le_of_lt hbuys)]
    rw [UInt32.lt_iff_toNat_lt] at hbuys
    omega
  · rw [UInt32.toNat_sub_of_le _ _ (UInt32.le_of_lt hsells)]
    rw [UInt32.lt_iff_toNat_lt] at hsells
    omega
  · rw [UInt32.lt_iff_toNat_lt] at hbuys hsells
    omega

theorem sum_gain (a : Asset) (config : BatchConfig) (orders : List FundedOrder) :
    (orders.map fun order => a.gain config order.side).sum =
      (orders.countP (·.side = .buy) - orders.countP (·.side = .sell) : Int) *
        a.gain config .buy := by
  induction orders with
  | nil => simp
  | cons order orders ih =>
    rw [List.map_cons, List.sum_cons, ih, List.countP_cons, List.countP_cons]
    cases hside : order.side <;> cases a <;> simp [Asset.gain, Side.lots] <;> ring

theorem checkedInt_of_range {v : Int} (hlow : -2 ^ 127 ≤ v) (hhigh : v < 2 ^ 127) :
    checkedInt v = some v :=
  if_pos ⟨hlow, hhigh⟩

theorem foldlM_checked_of_small {α : Type} {f g : α → Nat} {l : List α} {t : Int × Int}
    (h1 : 0 ≤ t.1) (h2 : 0 ≤ t.2) (hf : t.1 + (l.map f).sum < 2 ^ 127)
    (hg : t.2 + (l.map g).sum < 2 ^ 127) :
    ∃ t', l.foldlM (fun total x => do
      let base ← checkedInt (total.1 + f x)
      let quote ← checkedInt (total.2 + g x)
      some (base, quote)) t = some t' := by
  induction l generalizing t with
  | nil => exact ⟨t, rfl⟩
  | cons x l ih =>
    rw [List.map_cons, List.sum_cons, Nat.cast_add] at hf hg
    have hbase : checkedInt (t.1 + f x) = some (t.1 + f x) :=
      checkedInt_of_range (by omega) (by omega)
    have hquote : checkedInt (t.2 + g x) = some (t.2 + g x) :=
      checkedInt_of_range (by omega) (by omega)
    obtain ⟨t', ht'⟩ := @ih (t.1 + f x, t.2 + g x) (by simp only; omega) (by simp only; omega)
      (by simp only; omega) (by simp only; omega)
    refine ⟨t', ?_⟩
    rw [List.foldlM_cons, hbase, hquote]
    exact ht'

theorem Asset.held_le (a : Asset) (balances : Map ParticipantId PoolBalance) :
    a.held balances ≤ balances.size * 2 ^ 64 := by
  have hcard : (domain balances).card = balances.size := (Map.size_eq_card balances).symm
  rw [Asset.held, total, ← hcard, ← smul_eq_mul]
  refine Finset.sum_le_card_nsmul _ _ _ fun p _ => ?_
  unfold valueAt
  cases balances[p]? with
  | none => exact Nat.zero_le _
  | some b => exact (a.of b).toNat_lt.le

/-- The entries of the map, a key of 32 bytes and two words of 64 bits each, have addresses of 64
bits: what holds of every map in the memory of the machine. -/
def Addressable (balances : Map ParticipantId PoolBalance) : Prop := balances.size * 48 < 2 ^ 64

theorem totals_of_addressable {balances : Map ParticipantId PoolBalance} (h : Addressable balances) :
    totals balances = some ((Asset.base.held balances : Int), (Asset.quote.held balances : Int)) := by
  have hsum : ∀ a : Asset, (balances.toList.map fun entry => (a.of entry.2).toNat).sum < 2 ^ 127 := by
    intro a
    rw [sum_toList (fun b => (a.of b).toNat)]
    have hle := a.held_le balances
    rw [Asset.held] at hle
    rw [Addressable] at h
    omega
  have hbase := hsum .base
  have hquote := hsum .quote
  obtain ⟨sums, hsums⟩ := @foldlM_checked_of_small _
    (fun entry : ParticipantId × PoolBalance => entry.2.baseAtoms.toNat)
    (fun entry => entry.2.quoteAtoms.toNat) balances.toList (0, 0) le_rfl le_rfl
    (by simp only [Asset.of] at hbase; omega) (by simp only [Asset.of] at hquote; omega)
  exact hsums.trans (congrArg some (totals_eq hsums))

/-- Filled orders pass the checks that follow them. -/
theorem netBatch_of_filled (hne : orders ≠ [])
    (hdistinct : (orders.map FundedOrder.participantId).Nodup) (hsize : Addressable before)
    (hcount : orders.length < 2 ^ 32) (h : orders.foldlM (fillOrder config) ⟨before, 0, 0⟩ = .ok n) :
    ∃ r, netBatch config before orders = .ok r := by
  have hfilled := fillOrders_ok hdistinct h
  have hbuys : n.buys.toNat = orders.countP (·.side = .buy) := hfilled.buys.trans (Nat.zero_add _)
  have hsells : n.sells.toNat = orders.countP (·.side = .sell) :=
    hfilled.sells.trans (Nat.zero_add _)
  have hlots := n.residual_signed
  have hbuysLe := orders.countP_le_length (p := (·.side = .buy))
  have hsellsLe := orders.countP_le_length (p := (·.side = .sell))
  have hheld : ∀ a : Asset, (a.held n.balances : Int) =
      a.held before + n.residual.2 * a.gain config .buy := by
    intro a
    rw [fillOrders_held h a, sum_gain, hlots, hbuys, hsells]
  have hproduct : ∀ v : UInt64, -2 ^ 127 < n.residual.2 * v.toNat ∧
      n.residual.2 * v.toNat < 2 ^ 127 := by
    intro v
    have hv := v.toNat_lt
    constructor <;> nlinarith
  have hsmall : Addressable n.balances := by
    rwa [Addressable, Map.size_eq_of_mem_iff hfilled.mem_balances]
  have hconserves : BatchResult.conserves ⟨before, n.balances, n.residual.1,
      ⟨n.residual.2 * config.baseLotAtoms.toNat, -(n.residual.2 * config.quoteAtomsPerLot.toNat)⟩⟩
      before = true := by
    have hbase := hheld .base
    have hquote := hheld .quote
    have hbaseLe := Asset.base.held_le n.balances
    have hquoteLe := Asset.quote.held_le n.balances
    have hentries : n.balances.size * 48 < 2 ^ 64 := hsmall
    simp only [Asset.gain, Side.lots, one_mul, mul_neg] at hbase hquote
    simp only [BatchResult.conserves, totals_of_addressable hsize, totals_of_addressable hsmall, ← hbase,
      ← hquote]
    rw [checkedInt_of_range (by omega) (by omega), checkedInt_of_range (by omega) (by omega)]
    simp
  obtain ⟨hbaseLow, hbaseHigh⟩ := hproduct config.baseLotAtoms
  obtain ⟨hquoteLow, hquoteHigh⟩ := hproduct config.quoteAtomsPerLot
  have hbase := checkedInt_of_range hbaseLow.le hbaseHigh
  have hnegated : ((checkedInt (n.residual.2 * config.quoteAtomsPerLot.toNat)).bind
      fun product => checkedInt (-product)) = some (-(n.residual.2 * config.quoteAtomsPerLot.toNat)) := by
    rw [checkedInt_of_range hquoteLow.le hquoteHigh]
    exact checkedInt_of_range (by omega) (by omega)
  refine ⟨⟨before, n.balances, n.residual.1, ⟨n.residual.2 * config.baseLotAtoms.toNat,
    -(n.residual.2 * config.quoteAtomsPerLot.toNat)⟩⟩, ?_⟩
  refine (rejectIf_bind_of_not hne).trans ?_
  refine (bind_of_ok (rejectDuplicates_ok.mpr ⟨hdistinct, by simp⟩) _).trans ?_
  refine (bind_of_ok h _).trans ?_
  refine (bind_of_ok (okOr_eq_ok.mpr hbase) _).trans ?_
  refine (bind_of_ok (okOr_eq_ok.mpr hnegated) _).trans ?_
  exact rejectIf_bind_of_not fun hfails => Bool.noConfusion (hconserves.symm.trans hfails)

/-- A batch of distinct funded participants fails only at a limit or at a credit. -/
theorem netBatch_error {e : LedgerError} (hne : orders ≠ [])
    (hdistinct : (orders.map FundedOrder.participantId).Nodup) (hsize : Addressable before)
    (hcount : orders.length < 2 ^ 32)
    (hfunds : ∀ order ∈ orders, ∃ b, before[order.participantId]? = some b ∧ config.Funds b)
    (h : netBatch config before orders = .error e) :
    ∃ order ∈ orders, ∃ b, before[order.participantId]? = some b ∧ order.Fails config b e := by
  cases hfill : orders.foldlM (fillOrder config) ⟨before, 0, 0⟩ with
  | ok n =>
    obtain ⟨r, hr⟩ := netBatch_of_filled hne hdistinct hsize hcount hfill
    rw [hr] at h
    cases h
  | error e' =>
    have hstop : netBatch config before orders = .error e' := by
      refine (rejectIf_bind_of_not hne).trans ?_
      refine (bind_of_ok (rejectDuplicates_ok.mpr ⟨hdistinct, by simp⟩) _).trans ?_
      rw [hfill]
      rfl
    cases hstop.symm.trans h
    exact fillOrders_error hdistinct hfunds (by simpa using hcount) hfill

/-! ### When a batch nets -/

/-- The participant is known and funded, the price is within the limit and the credit fits. -/
def FundedOrder.Accepted (config : BatchConfig) (before : Map ParticipantId PoolBalance)
    (order : FundedOrder) : Prop :=
  ∃ b, before[order.participantId]? = some b ∧ config.Funds b ∧ ¬order.LimitViolated config ∧
    ¬order.CreditOverflows config b

theorem fillOrder_accepted {order : FundedOrder} (h : fillOrder config n order = .ok n') :
    order.Accepted config n.balances := by
  obtain ⟨b, hb, -⟩ := (fillOrder_ok h).balance
  have hfits := fillOrder_fits h hb
  refine ⟨b, hb, ⟨UInt64.le_iff_toNat_le.mpr hfits.base, UInt64.le_iff_toNat_le.mpr hfits.quote⟩,
    ?_, ?_⟩
  · simp only [fillOrder, bind_ok, okOr_eq_ok, Unique.exists_iff, rejectIf_eq_ok] at h
    obtain ⟨_, -, -, h⟩ := h
    rintro (⟨hside, hlimit⟩ | ⟨hside, hlimit⟩)
    · simp only [hside, bind_ok, Unique.exists_iff, rejectIf_eq_ok] at h
      exact h.1 hlimit
    · simp only [hside, bind_ok, Unique.exists_iff, rejectIf_eq_ok] at h
      exact h.1 hlimit
  · rintro (⟨hside, hroom⟩ | ⟨hside, hroom⟩)
    · exact absurd (hfits.bought hside) (not_lt.mpr hroom)
    · exact absurd (hfits.sold hside) (not_lt.mpr hroom)

theorem fillOrders_accepted (hdistinct : (orders.map FundedOrder.participantId).Nodup)
    (h : orders.foldlM (fillOrder config) n = .ok n') :
    ∀ order ∈ orders, order.Accepted config n.balances := by
  induction orders generalizing n with
  | nil => simp
  | cons order orders ih =>
    rw [List.foldlM_cons] at h
    obtain ⟨mid, hmid, hrest⟩ := bind_ok.mp h
    rw [List.map_cons, List.nodup_cons, List.mem_map] at hdistinct
    intro o ho
    rcases List.mem_cons.mp ho with rfl | ho
    · exact fillOrder_accepted hmid
    · obtain ⟨b, hb, haccepted⟩ := ih hdistinct.2 hrest o ho
      obtain ⟨filled, -, hbalances⟩ := (fillOrder_ok hmid).balance
      rw [hbalances, Map.getElem?_insert, if_neg fun heq => hdistinct.1 ⟨o, ho, heq.symm⟩] at hb
      exact ⟨b, hb, haccepted⟩

/-- What netting asks of a batch. -/
structure Nettable (config : BatchConfig) (before : Map ParticipantId PoolBalance)
    (orders : List FundedOrder) : Prop where
  nonempty : orders ≠ []
  distinct : (orders.map FundedOrder.participantId).Nodup
  accepted : ∀ order ∈ orders, order.Accepted config before

theorem Nettable.perm {orders' : List FundedOrder} (h : Nettable config before orders)
    (hperm : orders.Perm orders') : Nettable config before orders' where
  nonempty hnil := h.nonempty (hnil ▸ hperm).eq_nil
  distinct := (hperm.map _).nodup_iff.mp h.distinct
  accepted order horder := h.accepted order (hperm.mem_iff.mpr horder)

theorem netBatch_nettable {r : BatchResult} (h : netBatch config before orders = .ok r) :
    Nettable config before orders := by
  have hnetted := netBatch_ok h
  simp only [netBatch, bind_ok, Unique.exists_iff] at h
  obtain ⟨-, -, n, hn, -⟩ := h
  exact ⟨hnetted.nonempty, hnetted.distinct, fillOrders_accepted hnetted.distinct hn⟩

theorem Nettable.netBatch (h : Nettable config before orders) (hsize : Addressable before)
    (hcount : orders.length < 2 ^ 32) : ∃ r, netBatch config before orders = .ok r := by
  cases hresult : Kageb.netBatch config before orders with
  | ok r => exact ⟨r, rfl⟩
  | error e =>
    have hfunds : ∀ order ∈ orders, ∃ b, before[order.participantId]? = some b ∧
        config.Funds b := by
      intro order horder
      obtain ⟨b, hb, hfunds, -⟩ := h.accepted order horder
      exact ⟨b, hb, hfunds⟩
    obtain ⟨order, horder, b, hb, hfails⟩ :=
      netBatch_error h.nonempty h.distinct hsize hcount hfunds hresult
    obtain ⟨b', hb', -, hlimit, hcredit⟩ := h.accepted order horder
    cases hb.symm.trans hb'
    cases hfails with
    | limit violated => exact absurd violated hlimit
    | overflow overflows => exact absurd overflows hcredit

/-! ### What a netted batch is -/

/-- The residual of so many buys and sells. -/
def residualBetween (buys sells : Nat) : Residual :=
  if sells < buys then .buy (UInt32.ofNat (buys - sells))
  else if buys < sells then .sell (UInt32.ofNat (sells - buys))
  else .none

theorem Netting.residual_eq (n : Netting) :
    n.residual.1 = residualBetween n.buys.toNat n.sells.toNat := by
  unfold Netting.residual residualBetween
  simp only [UInt32.lt_iff_toNat_lt]
  split_ifs with hbuys hsells
  · rw [UInt32.ofNat_sub (by omega), UInt32.ofNat_toNat, UInt32.ofNat_toNat]
  · rw [UInt32.ofNat_sub (by omega), UInt32.ofNat_toNat, UInt32.ofNat_toNat]
  · rfl

/-- What netting makes of a batch. -/
structure NetEffect (config : BatchConfig) (before : Map ParticipantId PoolBalance)
    (orders : List FundedOrder) (r : BatchResult) : Prop where
  bought : ∀ order ∈ orders, order.side = .buy → ∃ b b',
    before[order.participantId]? = some b ∧ r.balances[order.participantId]? = some b' ∧
    b'.baseAtoms.toNat = b.baseAtoms.toNat + config.baseLotAtoms.toNat ∧
    b'.quoteAtoms.toNat + config.quoteAtomsPerLot.toNat = b.quoteAtoms.toNat
  sold : ∀ order ∈ orders, order.side = .sell → ∃ b b',
    before[order.participantId]? = some b ∧ r.balances[order.participantId]? = some b' ∧
    b'.baseAtoms.toNat + config.baseLotAtoms.toNat = b.baseAtoms.toNat ∧
    b'.quoteAtoms.toNat = b.quoteAtoms.toNat + config.quoteAtomsPerLot.toNat
  others : ∀ p, (∀ order ∈ orders, order.participantId ≠ p) → r.balances[p]? = before[p]?
  residual : r.residual = residualBetween (orders.countP (·.side = .buy)) (orders.countP (·.side = .sell))
  vaultDelta : r.vaultDelta =
    ⟨(orders.countP (·.side = .buy) - orders.countP (·.side = .sell) : Int) *
        config.baseLotAtoms.toNat,
      -((orders.countP (·.side = .buy) - orders.countP (·.side = .sell) : Int) *
        config.quoteAtomsPerLot.toNat)⟩
  totals : ∀ a : Asset, (a.held r.balances : Int) - a.held before = a.delta r.vaultDelta

theorem netBatch_effect {r : BatchResult} (h : netBatch config before orders = .ok r) :
    NetEffect config before orders r := by
  have hnetted := netBatch_ok h
  obtain ⟨n, hn, hbalances, hresidual, hdelta⟩ := hnetted.filled
  have hbuys : n.buys.toNat = orders.countP (·.side = .buy) := hn.buys.trans (Nat.zero_add _)
  have hsells : n.sells.toNat = orders.countP (·.side = .sell) := hn.sells.trans (Nat.zero_add _)
  have hmoved : ∀ order ∈ orders, ∃ b b',
      before[order.participantId]? = some b ∧ r.balances[order.participantId]? = some b' ∧
      (b'.baseAtoms.toNat : Int) = b.baseAtoms.toNat + order.side.lots * config.baseLotAtoms.toNat ∧
      (b'.quoteAtoms.toNat : Int) =
        b.quoteAtoms.toNat - order.side.lots * config.quoteAtomsPerLot.toNat := by
    intro order horder
    obtain ⟨b, hb, hfill⟩ := hn.filled order horder
    have hfits := netBatch_fits h order horder b hb
    exact ⟨b, order.fill config b, hb, hbalances ▸ hfill, hfits.fill_base, hfits.fill_quote⟩
  refine ⟨?_, ?_, ?_, ?_, ?_, ?_⟩
  · intro order horder hside
    obtain ⟨b, b', hb, hb', hbase, hquote⟩ := hmoved order horder
    rw [hside, Side.lots] at hbase hquote
    exact ⟨b, b', hb, hb', by omega, by omega⟩
  · intro order horder hside
    obtain ⟨b, b', hb, hb', hbase, hquote⟩ := hmoved order horder
    rw [hside, Side.lots] at hbase hquote
    exact ⟨b, b', hb, hb', by omega, by omega⟩
  · intro p hp
    rw [hbalances]
    exact hn.others p hp
  · rw [hresidual, n.residual_eq, hbuys, hsells]
  · rw [hdelta, n.residual_signed, hbuys, hsells]
  · intro a
    have hheld := hnetted.held a
    omega

/-! ### Netting in any order -/

theorem rejectDuplicates_error {seen : Finset ParticipantId} {e : LedgerError}
    (h : rejectDuplicates seen orders = .error e) : ∃ p, e = .duplicateParticipant p := by
  induction orders generalizing seen with
  | nil => cases h
  | cons order orders ih =>
    rcases bind_error.mp h with hhead | ⟨-, -, hrest⟩
    · exact ⟨order.participantId, (rejectIf_eq_error.mp hhead).2.symm⟩
    · exact ih hrest

theorem fillOrder_ne_conservationFailed {order : FundedOrder} :
    fillOrder config n order ≠ .error .conservationFailed := by
  intro h
  simp only [fillOrder, bind_error, okOr_eq_error, okOr_eq_ok, rejectIf_eq_error, reduceCtorEq,
    and_false, false_or] at h
  obtain ⟨_, -, -, -, h⟩ := h
  cases hside : order.side <;>
    simp [hside, bind_error, okOr_eq_error, rejectIf_eq_error] at h

theorem fillOrders_ne_conservationFailed :
    orders.foldlM (fillOrder config) n ≠ .error .conservationFailed := by
  induction orders generalizing n with
  | nil => exact fun h => nomatch h
  | cons order orders ih =>
    rw [List.foldlM_cons]
    intro h
    rcases bind_error.mp h with hhead | ⟨mid, -, hrest⟩
    · exact fillOrder_ne_conservationFailed hhead
    · exact ih hrest

/-- The check of the totals passes whenever it is reached. -/
theorem netBatch_ne_conservationFailed (hsize : Addressable before)
    (hcount : orders.length < 2 ^ 32) :
    netBatch config before orders ≠ .error .conservationFailed := by
  intro h
  rcases bind_error.mp h with hempty | ⟨_, hne, hchecks⟩
  · cases (rejectIf_eq_error.mp hempty).2
  rw [rejectIf_eq_ok] at hne
  rcases bind_error.mp hchecks with hduplicate | ⟨_, hdistinct, hfill⟩
  · obtain ⟨p, hp⟩ := rejectDuplicates_error hduplicate
    cases hp
  rcases bind_error.mp hfill with hfill | ⟨n, hn, -⟩
  · exact fillOrders_ne_conservationFailed hfill
  · obtain ⟨r, hr⟩ := netBatch_of_filled hne (rejectDuplicates_ok.mp hdistinct).1 hsize hcount hn
    cases hr.symm.trans h

theorem netBatch_perm {orders' : List FundedOrder} {r : BatchResult} (hsize : Addressable before)
    (hcount : orders.length < 2 ^ 32) (hperm : orders.Perm orders')
    (h : netBatch config before orders = .ok r) : netBatch config before orders' = .ok r := by
  obtain ⟨r', hr'⟩ := ((netBatch_nettable h).perm hperm).netBatch hsize (hperm.length_eq ▸ hcount)
  rw [hr', (netBatch_ok h).perm (netBatch_ok hr') hperm]

end Netting

/-- Netting succeeds exactly on the batches it asks for, moves one lot for each order, never fails
at its totals, and takes the orders in any order. -/
theorem netBatch_exact (config : BatchConfig) (before : Map ParticipantId PoolBalance)
    (orders : List FundedOrder) (hsize : Addressable before) (hcount : orders.length < 2 ^ 32) :
    ((∃ r, netBatch config before orders = .ok r) ↔ Nettable config before orders) ∧
    (∀ r, netBatch config before orders = .ok r → NetEffect config before orders r) ∧
    netBatch config before orders ≠ .error .conservationFailed ∧
    ∀ orders', orders.Perm orders' → ∀ r,
      netBatch config before orders = .ok r ↔ netBatch config before orders' = .ok r := by
  refine ⟨⟨fun ⟨r, h⟩ => netBatch_nettable h, fun h => h.netBatch hsize hcount⟩,
    fun r h => netBatch_effect h, netBatch_ne_conservationFailed hsize hcount, ?_⟩
  intro orders' hperm r
  exact ⟨netBatch_perm hsize hcount hperm,
    netBatch_perm hsize (hperm.length_eq ▸ hcount) hperm.symm⟩

namespace Sample

def tradeConfig : BatchConfig := ⟨10, 500, by decide, by decide⟩

/-- Two buyers, a seller and someone who does not trade. -/
def tradeBalances : Map ParticipantId PoolBalance :=
  Map.ofList [(ByteVec.fill 32 1, ⟨10, 500⟩), (ByteVec.fill 32 2, ⟨40, 900⟩),
    (ByteVec.fill 32 3, ⟨10, 500⟩), (ByteVec.fill 32 4, ⟨7, 7⟩)]

def tradeOrders : List FundedOrder :=
  [⟨ByteVec.fill 32 3, .sell, 500, by decide⟩, ⟨ByteVec.fill 32 1, .buy, 500, by decide⟩,
    ⟨ByteVec.fill 32 2, .buy, 501, by decide⟩]

end Sample

open Sample in
theorem netBatch_exact_one_sided : ∃ r, netBatch tradeConfig tradeBalances tradeOrders = .ok r ∧
    r.residual = .buy 1 ∧ r.vaultDelta = ⟨10, -500⟩ ∧
    Nettable tradeConfig tradeBalances tradeOrders ∧
    netBatch tradeConfig tradeBalances tradeOrders.reverse = .ok r := by
  obtain ⟨hiff, heffect, -, hperm⟩ :=
    netBatch_exact tradeConfig tradeBalances tradeOrders
      (show tradeBalances.size * 48 < 2 ^ 64 by decide +kernel) (by decide)
  have hsome : (netBatch tradeConfig tradeBalances tradeOrders).toOption.isSome := by
    decide +kernel
  obtain ⟨r, hr⟩ : ∃ r, netBatch tradeConfig tradeBalances tradeOrders = .ok r :=
    ⟨_, eq_ok_of_isSome ⟨∅, ∅, .none, ⟨0, 0⟩⟩ hsome⟩
  refine ⟨r, hr, (heffect r hr).residual, (heffect r hr).vaultDelta, hiff.mp ⟨r, hr⟩, ?_⟩
  exact (hperm _ (List.reverse_perm _).symm r).mp hr

end Kageb
