import Kageb.Host.Exits
import Kageb.Program.Deadlines

/-! Which epoch lets reservations go: the release looks at the id of the epoch, and the epochs of
all pools have their ids to themselves. -/

namespace Kageb

open Binary Checks Files Maps Runs

/-- A capability was read from an epoch account that ended without a settlement. -/
theorem terminal_of_read {host : Host} {chain : Chain} {k : Pubkey} {slot : UInt64}
    {terminalEpoch : ConfirmedTerminalEpoch}
    (hread : host.confirmedTerminalEpochFromAccount k (chain.rpcData k) slot = .ok terminalEpoch) :
    ∃ e, chain.EpochAt k e ∧ e.epochId = terminalEpoch.epochId ∧
      (e.terminalState = .expired ∨ e.terminalState = .aborted) := by
  simp only [Host.confirmedTerminalEpochFromAccount, bind_ok, Unique.exists_iff, rejectIf_eq_ok,
    not_not, Host.decodeProgramEpoch_ok] at hread
  obtain ⟨e, ⟨howner, hbytes, -⟩, hended, hok⟩ := hread
  cases hok
  exact ⟨e, ⟨howner, hbytes⟩, rfl, hended⟩

/-- In every state of the books in which nobody holds a lock, and for every chain: a release succeeds
only for an epoch of the pool just if the capability was read from that epoch, or the release is
refused anyway. -/
theorem release_for_pool_iff {host : Host} (hhash : ∀ m, host.sha256 m ≠ zero32)
    {s : BooksState host} (hs : Reaches (BooksState.initial host) s) (hfree : s.Free)
    (hopened : s.Opened) {chain : Chain} {k : Pubkey} {slot : UInt64}
    {terminalEpoch : ConfirmedTerminalEpoch}
    (hread : host.confirmedTerminalEpochFromAccount k (chain.rpcData k) slot = .ok terminalEpoch)
    (pool : Pubkey) (nonces : List Bytes32) :
    Reaches s (s.solo (.releaseReservations terminalEpoch nonces)) ∧
    ((s.told (.releaseReservations terminalEpoch nonces) = (.ok () : Except AccountError Unit) →
        k = (host.epochAddress pool terminalEpoch.epochId).1 ∧
        ∃ e, chain.EpochAt (host.epochAddress pool terminalEpoch.epochId).1 e ∧
          (e.terminalState = .expired ∨ e.terminalState = .aborted)) ↔
      (k = (host.epochAddress pool terminalEpoch.epochId).1 ∨
        ¬Releasable (accountsIn s) (reservationsIn s) terminalEpoch.epochId nonces)) := by
  refine ⟨(hfree.reaches_solo _).1, fun hown => ?_, ?_⟩
  · rcases solo_release hhash hs hopened terminalEpoch nonces with
      ⟨hnot, -⟩ | ⟨-, htold, -⟩
    · exact .inr hnot
    · exact .inl (hown htold).1
  · rintro (rfl | hnot) htold
    · obtain ⟨e, he, -, hended⟩ := terminal_of_read hread
      exact ⟨rfl, e, he, hended⟩
    · rcases solo_release hhash hs hopened terminalEpoch nonces with
        ⟨-, ⟨e, herror⟩, -⟩ | ⟨hrelease, -⟩
      · cases herror.symm.trans htold
      · exact absurd hrelease hnot

namespace Sample

/-! Someone else makes a pool of the same mints, with an epoch of the same id. -/

def foreignOperator : Pubkey := key 52

def foreignPool : Pubkey := (rt.poolAddress foreignOperator baseMint quoteMint).1

def foreignAuthority : Pubkey := (rt.vaultAuthorityAddress foreignPool).1

def foreignEpoch : Pubkey := (rt.epochAddress foreignPool epochId).1

def foreignBaseVault : Pubkey := key 53

def foreignQuoteVault : Pubkey := key 54

def sharedChain : Chain := fun k =>
  if k = foreignBaseVault then tokenAccount baseMint foreignAuthority 1
  else if k = foreignQuoteVault then tokenAccount quoteMint foreignAuthority 1
  else chain k

def foreignPoolAccounts : List AccountMeta :=
  [⟨payer, true, true⟩, signer foreignOperator, writable foreignPool, readonly foreignAuthority,
    readonly baseMint, readonly quoteMint, readonly foreignBaseVault, readonly foreignQuoteVault,
    readonly venueAuthority, readonly venueBase, readonly venueQuote, readonly systemProgramId,
    readonly tokenProgramId]

/-- The same epoch, but with an earlier deadline. -/
def foreignEpochCall : KagebInstruction :=
  .createEpoch
    { epochId, minimumCount := 4, quoteAtomsPerLot := 100, lockDeadline := 6, abortDeadline := 20 }

def foreignEpochAccounts : List AccountMeta :=
  [⟨payer, true, true⟩, signer foreignOperator, readonly foreignPool, writable foreignEpoch,
    readonly systemProgramId, readonly clockId]

def bothEpochsChain : Chain :=
  rt.execute epochTx
    (rt.execute poolTx
      (rt.execute epochTx (rt.execute poolTx sharedChain poolAccounts poolCall.encode)
        epochAccounts epochCall.encode)
      foreignPoolAccounts poolCall.encode)
    foreignEpochAccounts foreignEpochCall.encode

/-- After the deadline of the foreign epoch, and before the other. -/
def betweenChain : Chain := later bothEpochsChain (clockData 8) program

def expiredChain : Chain :=
  rt.execute epochTx betweenChain (expireInstruction payer foreignPool foreignEpoch).accounts
    KagebInstruction.expire.encode

theorem sharedChain_genesis : sharedChain.Genesis := by
  intro k
  unfold sharedChain
  split_ifs
  · exact (by decide : tokenProgramId ≠ programId)
  · exact (by decide : tokenProgramId ≠ programId)
  · exact chain_genesis k

/-- What a client reads of the foreign epoch. -/
def foreignTerminal : ConfirmedTerminalEpoch := ⟨foreignEpoch, epochId, .expired, 9⟩

/-- Alice has reserved for the epoch. -/
def waitingBooks : BooksState host :=
  (BooksState.initial host).soloAll [.openAccounts, .openReservations,
    .register alice ⟨key 71, Eq.refl true⟩ ⟨10, 1000⟩,
    reserveLot (key 97) epochId alice (by decide) epochId_ne alice_ne]

def foreignRelease : BooksOp host := .releaseReservations foreignTerminal [key 97]

/-- The expired chain, and the reservation of Alice before and after the foreign release, evaluated
once. -/
theorem expiredChain_facts :
    ((bothEpochsChain clockId).owner ≠ programId ∧ (bothEpochsChain program).owner ≠ programId) ∧
    (host.confirmedTerminalEpochFromAccount foreignEpoch (expiredChain.rpcData foreignEpoch)
      9).toOption = some foreignTerminal ∧
    expiredChain.EpochAt epoch openEpoch ∧
    ((waitingBooks.world.files .accounts).isSome ∧
      (waitingBooks.world.files .reservations).isSome) ∧
    (Except.toOption (waitingBooks.told foreignRelease : Except AccountError Unit) = some () ∧
      ((reservationsIn waitingBooks)[key 97]?.any fun r =>
        decide (r.epochId = epochId ∧ r.state = .reserved)) = true ∧
      ((reservationsIn (waitingBooks.solo foreignRelease))[key 97]?.any fun r =>
        decide (r.state = .released)) = true) := by
  unfold Chain.EpochAt
  decide +kernel

theorem betweenChain_interference : bothEpochsChain.Interference betweenChain :=
  later_interference expiredChain_facts.1.1 expiredChain_facts.1.2

theorem expired_run : ∃ es, Run host.ChainStep sharedChain es expiredChain :=
  ⟨_, .cons (.invoke ..) (.cons (.invoke ..) (.cons (.invoke ..) (.cons (.invoke ..)
    (.cons (.other betweenChain_interference) (.cons (.invoke ..) (.nil _))))))⟩

theorem foreignTerminal_read :
    host.confirmedTerminalEpochFromAccount foreignEpoch (expiredChain.rpcData foreignEpoch) 9 =
      .ok foreignTerminal :=
  eq_ok_of_toOption expiredChain_facts.2.1

theorem own_epoch_open : expiredChain.EpochAt epoch openEpoch := expiredChain_facts.2.2.1

theorem waitingBooks_reaches : Reaches (BooksState.initial host) waitingBooks ∧ waitingBooks.Free :=
  State.Free.reaches_soloAll (s := BooksState.initial host) (fun _ => rfl) _

theorem waitingBooks_opened : waitingBooks.Opened := by
  obtain ⟨-, -, -, ⟨haccounts, hreservations⟩, -⟩ := expiredChain_facts
  intro file
  cases file with
  | accounts => exact haccounts
  | reservations => exact hreservations

theorem foreignRelease_told :
    waitingBooks.told foreignRelease = (.ok () : Except AccountError Unit) :=
  eq_ok_of_toOption expiredChain_facts.2.2.2.2.1

end Sample

/-- The epoch of the pool that the capability was read from has expired. -/
theorem release_for_pool_iff_own :
    ∃ e, Sample.expiredChain.EpochAt
        (Sample.host.epochAddress Sample.foreignPool Sample.epochId).1 e ∧
      (e.terminalState = .expired ∨ e.terminalState = .aborted) := by
  obtain ⟨hs, hfree⟩ := Sample.waitingBooks_reaches
  have hiff := (release_for_pool_iff Sample.sha256_ne hs hfree Sample.waitingBooks_opened
    Sample.foreignTerminal_read Sample.foreignPool [Sample.key 97]).2
  exact (hiff.mpr (.inl rfl) Sample.foreignRelease_told).2

/-- The epoch of the pool is open, and a foreign epoch of the same id releases its reservations. -/
theorem foreign_epoch_releases :
    Sample.sharedChain.Genesis ∧
    (∃ es, Run Sample.host.ChainStep Sample.sharedChain es Sample.expiredChain) ∧
    Sample.expiredChain.EpochAt (Sample.host.epochAddress Sample.pool Sample.epochId).1
      Sample.openEpoch ∧ Sample.openEpoch.terminalState = .open ∧
    Sample.host.confirmedTerminalEpochFromAccount Sample.foreignEpoch
      (Sample.expiredChain.rpcData Sample.foreignEpoch) 9 = .ok Sample.foreignTerminal ∧
    Reaches (BooksState.initial Sample.host) Sample.waitingBooks ∧
    BoundTo Sample.waitingBooks Sample.epochId (Sample.key 97) ∧
    InState Sample.waitingBooks .reserved (Sample.key 97) ∧
    Reaches Sample.waitingBooks (Sample.waitingBooks.solo Sample.foreignRelease) ∧
    Sample.waitingBooks.told Sample.foreignRelease = (.ok () : Except AccountError Unit) ∧
    InState (Sample.waitingBooks.solo Sample.foreignRelease) .released (Sample.key 97) := by
  obtain ⟨-, -, -, -, -, hbefore, hafter⟩ := Sample.expiredChain_facts
  rw [Option.any_eq_true] at hbefore hafter
  obtain ⟨r, hr, hfields⟩ := hbefore
  obtain ⟨hepoch, hreserved⟩ := of_decide_eq_true hfields
  obtain ⟨r', hr', hreleased⟩ := hafter
  obtain ⟨hs, hfree⟩ := Sample.waitingBooks_reaches
  exact ⟨Sample.sharedChain_genesis, Sample.expired_run, Sample.own_epoch_open, rfl,
    Sample.foreignTerminal_read, hs, ⟨r, hr, hepoch⟩, ⟨r, hr, hreserved⟩,
    (hfree.reaches_solo _).1, Sample.foreignRelease_told, ⟨r', hr', of_decide_eq_true hreleased⟩⟩

end Kageb
