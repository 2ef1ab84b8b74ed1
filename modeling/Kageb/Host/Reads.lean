import Kageb.Host.Lock
import Kageb.Program.Invariant

/-! What a confirmed read says about the chain that was read, and how two reads of one epoch at
different moments of a run compare. -/

namespace Kageb

open Binary Checks Runs

/-- Two reads of one lock; they may differ in the slot. -/
structure ConfirmedLock.Same (a b : ConfirmedLock) : Prop where
  epochAccount : a.epochAccount = b.epochAccount
  state : a.state = b.state
  pool : a.pool = b.pool

def Chain.rpcData (c : Chain) (k : Pubkey) : RpcAccountData := ⟨(c k).owner, (c k).data⟩

/-- The accounts that the client returns for an epoch, its pool and the clock are those of the
chain. -/
def RpcClient.Reads (rpc : RpcClient) (c : Chain) : Prop :=
  ∀ keys response, rpc.getMultipleAccounts keys = some response →
    ∀ (i : Nat) k account, keys[i]? = some k → response.value[i]? = some (some account) →
      account = c.rpcData k

/-- A lock as it stands on the chain. -/
structure ConfirmedLock.On (lock : ConfirmedLock) (c : Chain)
    (pool : PoolStateV1) : Prop where
  epochAt : c.EpochAt lock.epochAccount lock.state
  poolAt : c.PoolAt lock.state.pool pool
  poolRead : lock.pool = some pool
  locked : lock.state.terminalState = .locked

/-- An open epoch as it stands on the chain. -/
structure ConfirmedOpenEpoch.On (epoch : ConfirmedOpenEpoch) (c : Chain)
    (state : EpochStateV1) (pool : PoolStateV1) : Prop where
  epochAt : c.EpochAt epoch.epochAccount state
  poolAt : c.PoolAt state.pool pool
  configuration : epoch.configuration = state.configuration pool
  opened : state.terminalState = .open

/-! ### Pools stand at their own address -/

section Pools

variable {rt : Runtime} {c c' : Chain}

def Runtime.PoolsValid (rt : Runtime) (c : Chain) : Prop :=
  ∀ k p, c.PoolAt k p → rt.PoolValid k p

theorem Runtime.Step.poolsValid {tx : InstructionsSysvar} {accounts : List AccountMeta}
    {instruction : KagebInstruction} (h : rt.Step tx c accounts instruction c')
    (hc : rt.PoolsValid c) : rt.PoolsValid c' := by
  intro k p hp
  by_cases hmade : ∃ args, instruction = .initializePool args
  · obtain ⟨args, rfl⟩ := hmade
    cases h with
    | @initializePool _ pool q made named created valid tokens =>
      by_cases hk : k = pool
      · subst hk
        have hat : (made.write k q.encode).PoolAt k q := ⟨by simpa using created.owner, by simp⟩
        cases hp.unique hat
        exact valid
      · have hsame : ((made.write pool q.encode) k).SameRecord (c k) := by
          rw [Chain.write_of_ne hk]
          exact created.rest k hk
        exact hc k p (hp.congr hsame.symm)
  · exact hc k p (h.pool_born (fun args heq => hmade ⟨args, heq⟩) hp)

theorem Runtime.ChainStep.poolsValid (lawful : rt.Lawful) {event : Event}
    (hc : rt.PoolsValid c) (h : rt.ChainStep c event c') : rt.PoolsValid c' := by
  cases h with
  | other hother => exact fun k p hp => hc k p (hother.poolAt_iff.mp hp)
  | invoke tx accounts data =>
    rcases Runtime.execute_cases lawful tx c accounts data with heq | ⟨instruction, -, hstep⟩
    · rw [heq]
      exact hc
    · exact hstep.poolsValid hc

theorem Runtime.poolsValid_of_run (lawful : rt.Lawful) {c₀ : Chain} {es : List Event}
    (genesis : c₀.Genesis) (run : Run rt.ChainStep c₀ es c) : rt.PoolsValid c :=
  run.invariant (fun hc hstep => hstep.poolsValid lawful hc)
    fun k _ hp => absurd hp.1 (genesis k)

end Pools

/-! ### Reads -/

section Reads

variable {host : Host} {rpc : RpcClient} {c : Chain} {epoch : Pubkey}

theorem threeAccounts_ok {response : RpcResponse (List (Option RpcAccountData))}
    {x y z : RpcAccountData} (h : Host.threeAccounts response = .ok (x, y, z)) :
    response.value = [some x, some y, some z] := by
  unfold Host.threeAccounts at h
  split at h
  · rename_i epoch pool clock heq
    simp only [bind_ok, okOr_eq_ok] at h
    obtain ⟨x', hx, y', hy, z', hz, hok⟩ := h
    cases hok
    rw [heq, hx, hy, hz]
  · cases h

theorem RpcClient.Reads.three (reads : rpc.Reads c) {k k' k'' : Pubkey}
    {response : RpcResponse (List (Option RpcAccountData))} {x y z : RpcAccountData}
    (h : rpc.getMultipleAccounts [k, k', k''] = some response)
    (h' : Host.threeAccounts response = .ok (x, y, z)) :
    x = c.rpcData k ∧ y = c.rpcData k' ∧ z = c.rpcData k'' := by
  have hvalue := threeAccounts_ok h'
  refine ⟨reads _ _ h 0 k x rfl ?_, reads _ _ h 1 k' y rfl ?_, reads _ _ h 2 k'' z rfl ?_⟩ <;>
    rw [hvalue] <;> rfl

/-- The pool that a read returns is the one that the epoch names. -/
theorem poolAt_of_address (hpools : host.PoolsValid c) {k pool : Pubkey} {p : PoolStateV1}
    (howner : (c.rpcData k).owner = programId)
    (hdecode : PoolStateV1.decode (c.rpcData k).data = .ok p)
    (haddress : (host.poolAddress p.operator p.baseMint p.quoteMint).1 = pool) :
    c.PoolAt pool p := by
  have hat : c.PoolAt k p := ⟨howner, PoolStateV1.decode_eq_ok.mp hdecode⟩
  have hk : k = pool := by
    rw [← haddress, (hpools k p hat).address]
  rwa [← hk]

theorem Host.fetchConfirmedLock_ok (hpools : host.PoolsValid c) (reads : rpc.Reads c)
    {lock : ConfirmedLock} (h : host.fetchConfirmedLock rpc epoch = .ok lock) :
    lock.epochAccount = epoch ∧ ∃ pool, lock.On c pool := by
  simp only [Host.fetchConfirmedLock, bind_ok, Unique.exists_iff, okOr_eq_ok] at h
  obtain ⟨initial, -, account, -, initialLock, -, response, hresponse, -, ⟨x, y, z⟩, hthree, h⟩ := h
  obtain ⟨rfl, rfl, rfl⟩ := reads.three hresponse hthree
  simp only [Host.confirmedLockFromAccounts, Host.confirmedLockFromAccount, bind_ok,
    Unique.exists_iff, rejectIf_eq_ok, mapError_eq_ok, okOr_eq_ok, not_or, not_not] at h
  obtain ⟨confirmed, ⟨howner, state, hstate, ⟨-, -, hlocked, -⟩, hconfirmed⟩, ⟨hpoolOwner, -⟩, pool,
    hpool, clock, -, ⟨haddress, -⟩, hok⟩ := h
  cases hconfirmed
  cases hok
  exact ⟨rfl, pool, ⟨howner, EpochStateV1.decode_eq_ok.mp hstate⟩,
    poolAt_of_address hpools hpoolOwner hpool haddress, rfl, hlocked⟩

theorem Host.fetchConfirmedOpenEpoch_ok (hpools : host.PoolsValid c) (reads : rpc.Reads c)
    {confirmed : ConfirmedOpenEpoch} (h : host.fetchConfirmedOpenEpoch rpc epoch = .ok confirmed) :
    confirmed.epochAccount = epoch ∧ ∃ state pool, confirmed.On c state pool := by
  simp only [Host.fetchConfirmedOpenEpoch, bind_ok, Unique.exists_iff, okOr_eq_ok] at h
  obtain ⟨initial, -, account, -, initialState, -, response, hresponse, -, ⟨x, y, z⟩, hthree, h⟩ := h
  obtain ⟨rfl, rfl, rfl⟩ := reads.three hresponse hthree
  simp only [Host.confirmedOpenEpochFromAccounts, Host.decodeProgramEpoch, bind_ok,
    Unique.exists_iff, rejectIf_eq_ok, mapError_eq_ok, okOr_eq_ok, not_or, not_not] at h
  obtain ⟨state, ⟨howner, state', hstate, -, hstateOk⟩, -, ⟨hpoolOwner, -⟩, pool, hpool, clock, -,
    hchecks, -, policy, -, hok⟩ := h
  obtain ⟨haddress, -, -, -, -, -, -, -, -, -, -, hopen, -⟩ := hchecks
  cases hstateOk
  cases hok
  exact ⟨rfl, state, pool, ⟨howner, EpochStateV1.decode_eq_ok.mp hstate⟩,
    poolAt_of_address hpools hpoolOwner hpool haddress, rfl, hopen⟩

end Reads

/-- An epoch that stays locked does not change. -/
theorem EpochStateV1.Follows.eq_of_locked {e e' : EpochStateV1} (h : e.Follows e')
    (hlocked : e.terminalState = .locked) (hlocked' : e'.terminalState = .locked) : e' = e := by
  rcases Relation.ReflTransGen.cases_head h with rfl | ⟨mid, hedge, hrest⟩
  · rfl
  · have hfinal : mid.terminalState.Final := by
      cases hedge with
      | lock hbefore => exact absurd (hlocked.symm.trans hbefore) (by decide)
      | expire hbefore => exact absurd (hlocked.symm.trans hbefore) (by decide)
      | settle _ hafter => exact Or.inl hafter
      | abort _ hafter => exact Or.inr (Or.inr hafter)
    rw [Follows.eq_of_final hrest hfinal] at hlocked'
    rw [hlocked'] at hfinal
    rcases hfinal with h | h | h <;> cases h

/-- Two reads of one lock along a run are the same but for their slots. -/
theorem ConfirmedLock.On.same {host : Host} (lawful : host.toRuntime.Lawful) {c c' : Chain}
    {es : List Event} (run : Run host.ChainStep c es c') {lock lock' : ConfirmedLock}
    {pool pool' : PoolStateV1} (h : lock.On c pool) (h' : lock'.On c' pool')
    (hepoch : lock.epochAccount = lock'.epochAccount) : lock.Same lock' := by
  obtain ⟨hpools, hepochs⟩ := Runtime.run_follows lawful run
  obtain ⟨e, he, hfollows⟩ := hepochs _ _ h.epochAt
  rw [hepoch] at he
  have hstate : lock'.state = lock.state := by
    cases he.unique h'.epochAt
    exact hfollows.eq_of_locked h.locked h'.locked
  have hpool : pool = pool' := by
    have hkept := hpools _ _ h.poolAt
    rw [← hstate] at hkept
    exact hkept.unique h'.poolAt
  exact ⟨hepoch, hstate.symm, by rw [h.poolRead, h'.poolRead, hpool]⟩

end Kageb
