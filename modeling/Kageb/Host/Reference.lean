import Kageb.Host.Reads
import Kageb.Host.Settlement

/-! A host that can be run: signatures by the hash of the sample market, and threshold encryption
by lines over a field of five elements, of which two points recover the value at zero. -/

namespace Kageb

open Binary Checks Maps Runs

/-! ### Threshold encryption -/

namespace Threshold

abbrev F := ZMod 5

/-- A secret, and the slope of the line that shares it. -/
@[ext]
structure Line where
  secret : F
  slope : F

def Line.at (l : Line) (index : Nat) : F := l.secret + l.slope * (index + 1)

def Line.encode (l : Line) : Bytes := [UInt8.ofNat l.secret.val, UInt8.ofNat l.slope.val]

structure Ciphertext where
  scalar : F
  masked : Bytes

def shareBytes (x : F) : ByteVec 48 := ⟨UInt8.ofNat x.val :: List.replicate 47 0, rfl⟩

/-- The value at zero of the line through two points of which no two indices agree modulo five. -/
def interpolate (i j : Nat) (x y : F) : Option F :=
  let d : F := (j : F) - i
  if d = 0 then none else some ((x * (j + 1) - y * (i + 1)) * d ^ 3)

def decrypt (shares : List (Nat × F)) (c : Ciphertext) : Option Bytes :=
  match shares with
  | (i, x) :: (j, y) :: _ =>
    (interpolate i j x y).map fun key => c.masked.map (· - UInt8.ofNat key.val)
  | _ => none

def deserialize (bytes : Bytes) : Option Ciphertext :=
  match bytes with
  | scalar :: rest =>
    if scalar < 5 ∧ ∀ b ∈ rest.drop 192, b = 0 then
      some ⟨(scalar.toNat : F), rest.take 192⟩
    else none
  | [] => none

def encrypt (l : Line) (scalar : UInt8) (plaintext : Bytes) : Bytes :=
  let key : F := (scalar.toNat : F) * l.secret
  scalar :: plaintext.map (· + UInt8.ofNat key.val) ++ List.replicate 151 0

theorem Line.encode_injective {l l' : Line} (h : l.encode = l'.encode) : l = l' := by
  have inj : ∀ a b : F, UInt8.ofNat a.val = UInt8.ofNat b.val → a = b := by decide
  simp only [Line.encode, List.cons.injEq, and_true] at h
  exact Line.ext (inj _ _ h.1) (inj _ _ h.2)

theorem interpolate_at {l : Line} {u key : F} {i j : Nat}
    (h : interpolate i j (u * l.at i) (u * l.at j) = some key) : key = u * l.secret := by
  have fermat : ∀ d : F, d ≠ 0 → d ^ 4 = 1 := by decide
  simp only [interpolate, Option.ite_none_left_eq_some, Option.some.injEq] at h
  obtain ⟨hd, rfl⟩ := h
  have hpow := fermat _ hd
  simp only [Line.at]
  linear_combination (u * l.secret) * hpow

end Threshold

/-! ### The host of the sample market -/

namespace Sample

open Threshold

def signature (signer : Bytes32) (message : Bytes) : Bytes64 := ⟨sign signer.bytes message, by simp [sign]⟩

def host : Host where
  toRuntime := rt
  SigningKey := Bytes32
  verifyingKey := id
  sign := signature
  validKey key := key ≠ zero32
  verify key message s := s = signature key message
  PublicKeySet := Line
  SecretKeyShare := F
  Ciphertext := Ciphertext
  DecryptionShare := F
  serializeKeys l := some l.encode
  publicKeyShare l index := shareBytes (l.at index)
  secretPublicKeyShare := shareBytes
  deserializeCiphertext := deserialize
  verifyCiphertext c := c.scalar ≠ 0
  verifyDecryptionShare l index x c := x = c.scalar * l.at index
  decrypt _ := decrypt
  decryptShare secret c := some (c.scalar * secret)

theorem host_sharesAgree : host.SharesAgree := by
  intro l c x y x' y' plaintext plaintext' hv hv' h h'
  obtain ⟨i, a⟩ := x
  obtain ⟨j, b⟩ := y
  obtain ⟨i', a'⟩ := x'
  obtain ⟨j', b'⟩ := y'
  obtain rfl : a = c.scalar * l.at i := by simpa [host] using hv.first
  obtain rfl : b = c.scalar * l.at j := by simpa [host] using hv.second
  obtain rfl : a' = c.scalar * l.at i' := by simpa [host] using hv'.first
  obtain rfl : b' = c.scalar * l.at j' := by simpa [host] using hv'.second
  simp only [host, decrypt, Option.map_eq_some_iff] at h h'
  obtain ⟨key, hkey, rfl⟩ := h
  obtain ⟨key', hkey', rfl⟩ := h'
  rw [interpolate_at hkey, interpolate_at hkey']

theorem host_keysDetermined : host.KeysDetermined := fun _ _ _ h h' =>
  Line.encode_injective (Option.some.inj (h.trans h'.symm))

theorem host_lawful : host.toRuntime.Lawful := hashes.runtime_lawful

/-! ### A locked package -/

def line : Line := ⟨3, 1⟩

def authorization (member : UInt8) : FundedAuthorizationV1 :=
  let unsigned : FundedAuthorizationV1 :=
    { version := authorizationVersion
      operatorKey := operator
      epochId
      participantId := key (40 + member)
      tradingKey := key (50 + member)
      nonce := key (60 + member)
      baseAtoms := 10
      quoteAtoms := 100
      expirySlot := 100
      operatorSignature := ByteVec.fill 64 0 }
  { unsigned with
    operatorSignature := signature operator
      (FundedAuthorizationV1.authorizationMessage unsigned.authorizationBytes) }

def lot : UInt32 := 1

theorem one_ne : (1 : UInt64) ≠ 0 := by decide

theorem hundred_ne : (100 : UInt64) ≠ 0 := by decide

instance three_neZero : NeZero 3 := ⟨by decide⟩

/-- The first three members buy a lot and the others sell one. -/
def intent (member : UInt8) : SignedIntentV1 :=
  let body : IntentBodyV1 :=
    { side := if member ≤ 3 then .buy else .sell
      lots := lot
      limitPrice := 100
      epochId
      participantId := key (40 + member)
      clientNonce := ByteVec.fill 16 member
      lots_eq := rfl
      limitPrice_ne := hundred_ne }
  { body, signature := signature (key (50 + member)) (SignedIntentV1.intentMessage body.encode) }

def submission (member : UInt8) : EncryptedSubmissionV1 :=
  let ciphertext := encrypt line 2 (intent member).encode
  let receipt := key (70 + member)
  { authorization := authorization member
    ciphertext
    receipt
    outerSignature := signature (key (50 + member)) (EncryptedSubmissionV1.submissionMessage epochId
      ((authorization member).hash host) (sha256 ciphertext) receipt) }

def balance (member : UInt8) : Except LockValidationError BalanceRecordV1 :=
  BalanceRecordV1.new (key (40 + member)) 50 900 10 100

def rootOf {ε : Type} (root : Except ε Bytes32) : Bytes32 := root.toOption.getD zero32

/-- The package of the given members, in the given order. -/
def package (members : List UInt8) : LockPackageV1 host :=
  let balances := members.filterMap fun member => (balance member).toOption
  let root := rootOf (balanceRoot host balances)
  let count := UInt32.ofNat members.length
  { epochAccount := epoch
    configuration
    epochPublicKeys := ⟨line⟩
    submissions := members.map submission
    balances
    balanceSnapshot :=
      { epochId
        recordCount := count
        balanceRoot := root
        operatorKey := operator
        signature := signature operator (snapshotMessage epochId count root) }
    preBalanceRoot := root
    memberRoot := rootOf (memberRoot host ⟨line⟩ (members.map submission))
    memberCount := count
    lockNonce := key 32 }

/-- The chain with the clock owned as the host expects it, at the given time. -/
def atTime (c : Chain) (unixTimestamp : Int64) : Chain :=
  c.set clockId { empty with owner := sysvarOwnerId, data := clockData unixTimestamp }

def openChain : Chain := atTime epochChain 6

def packageDigest : Bytes32 := (package [1, 2, 3, 4]).lockPayload.digest sha256

def packageCall : KagebInstruction := .lock (package [1, 2, 3, 4]).lockPayload

def packageTx : InstructionsSysvar :=
  transaction [approval keypers.first packageDigest, approval keypers.second packageDigest]
    packageCall (by decide)

def packageChain : Chain := rt.execute packageTx openChain lockAccounts packageCall.encode

/-- A client that answers from one chain, at slot 3. -/
def rpc (c : Chain) : RpcClient where
  getAccount k := some ⟨3, some (c.rpcData k)⟩
  getMultipleAccounts keys := some ⟨3, keys.map fun k => some (c.rpcData k)⟩

theorem rpc_reads (c : Chain) : (rpc c).Reads c := by
  intro keys response h i k account hk haccount
  cases h
  simp only [List.getElem?_map, hk, Option.map_some, Option.some.injEq] at haccount
  exact haccount.symm

def secretShare (index : Nat) : KeyperSecretShare host := ⟨epoch, index, line.at index⟩

def evidence (first second : Nat) (members : List UInt8) : List (DecryptionEvidenceV1 host) :=
  members.filterMap fun member => do
    let ciphertext := (submission member).ciphertext
    let a ← ((secretShare first).release epoch packageDigest ciphertext).toOption
    let b ← ((secretShare second).release epoch packageDigest ciphertext).toOption
    (DecryptionEvidenceV1.new a b).toOption

def packageEpoch : EpochStateV1 :=
  openEpoch.withLock (package [1, 2, 3, 4]).lockPayload packageDigest

def packageLock : ConfirmedLock :=
  { epochAccount := epoch, state := packageEpoch, pool := some poolState, confirmationSlot := 3 }

/-- The open epoch as a keyper reads it before the lock. -/
def packageOpen : ConfirmedOpenEpoch :=
  { epochAccount := epoch
    configuration
    policy :=
      { epochId, operatorKey := operator, minimum := 4, baseAtoms := 10, quoteAtoms := 100,
        currentSlot := 1 }
    currentTimestamp := 6
    confirmationSlot := 3 }

/-- What a client reads of the package before and after its lock, and what is hashed for it,
evaluated once. -/
theorem packageChain_reads :
    host.fetchConfirmedOpenEpoch (rpc openChain) epoch = .ok packageOpen ∧
    host.fetchConfirmedLock (rpc packageChain) epoch = .ok packageLock ∧
    (epochChain clockId).owner ≠ programId ∧
    ((package [1, 2, 3, 4]).messages.map sha256).Nodup ∧
    ∀ m ∈ (package [4, 3, 2, 1]).messages, m ∈ (package [1, 2, 3, 4]).messages := by
  decide +kernel

theorem fetch_packageOpen : host.fetchConfirmedOpenEpoch (rpc openChain) epoch = .ok packageOpen :=
  packageChain_reads.1

theorem fetch_packageLock : host.fetchConfirmedLock (rpc packageChain) epoch = .ok packageLock :=
  packageChain_reads.2.1

/-- The clock is no account of the program. -/
theorem atTime_interference {c : Chain} (unixTimestamp : Int64) (h : (c clockId).owner ≠ programId) :
    c.Interference (atTime c unixTimestamp) where
  kept k hk := by
    have hne : k ≠ clockId := fun heq => h (heq ▸ hk)
    simp only [atTime, Chain.set, if_neg hne]
    exact .refl _
  fresh k hk hk' := by
    by_cases heq : k = clockId
    · rw [heq, atTime, Chain.set, if_pos rfl] at hk'
      exact absurd hk' (show sysvarOwnerId ≠ programId by decide)
    · simp only [atTime, Chain.set, if_neg heq] at hk'
      exact absurd hk' hk

theorem open_run : Run host.ChainStep chain
    [.invoke poolTx poolAccounts poolCall.encode, .invoke epochTx epochAccounts epochCall.encode,
      .other] openChain :=
  .cons (.invoke _ _ _ _) <| .cons (.invoke _ _ _ _) <|
    .cons (.other (atTime_interference 6 packageChain_reads.2.2.1)) (.nil _)

theorem package_run : Run host.ChainStep chain
    [.invoke poolTx poolAccounts poolCall.encode, .invoke epochTx epochAccounts epochCall.encode,
      .other, .invoke packageTx lockAccounts packageCall.encode] packageChain :=
  open_run.append (.cons (.invoke _ _ _ _) (.nil _))

/-- Nothing that is hashed for the package in one order collides with what is hashed for it in the
other. -/
theorem package_injOn : Set.InjOn host.sha256
    {m | m ∈ (package [1, 2, 3, 4]).messages ∨ m ∈ (package [4, 3, 2, 1]).messages} := by
  obtain ⟨-, -, -, hdistinct, hreordered⟩ := packageChain_reads
  have hmem : ∀ m, m ∈ (package [1, 2, 3, 4]).messages ∨ m ∈ (package [4, 3, 2, 1]).messages →
      m ∈ (package [1, 2, 3, 4]).messages := fun m hm => hm.elim id (hreordered m)
  exact fun x hx y hy heq => List.inj_on_of_nodup_map hdistinct (hmem x hx) (hmem y hy) heq

def keyper (index : Nat) : ReferenceKeyper host where
  index := index
  signingKey := keypers.toList.getD index zero32
  journal := ⟨Map.ofList [(epoch, packageDigest)]⟩

/-- What a keyper answers to the request that a coordinator builds from the members in some order
and from the shares of two keypers. -/
def settle (index first second : Nat) (members : List UInt8) :
    Except SettlementValidationError SettlementApprovalV1 := do
  let request ← SettlementRequestV1.build (package members) (evidence first second members) (key 90)
    packageLock
  (keyper index).signSettlement request packageLock (secretShare index)

def request : SettlementRequestV1 host where
  package := package [1, 2, 3, 4]
  decryptionEvidence := evidence 0 1 [1, 2, 3, 4]
  postBalances := []
  preBalanceRoot := zero32
  postBalanceRoot := zero32
  residual := .none
  resultRoot := zero32
  resultCommitment := zero32
  settlementNonce := key 90
  settlementDigest := zero32

def recomputed : Except SettlementValidationError RecomputedSettlement :=
  recompute request.package request.decryptionEvidence request.settlementNonce packageLock

theorem recomputed_residual : recomputed.toOption.map
    (fun r => (r.payload.residualSide, r.payload.residualLots)) = some (1, 2) := by decide +kernel

end Sample

end Kageb
