import Kageb.Host.Canonical
import Kageb.Host.Release
import Kageb.Host.Requests
import Kageb.Lib.Sessions

/-! The keyper executable: one process for each request, started with any bytes on its standard
input, any files in its private directory and any answers of a node. However many processes share
the directory, in whatever interleaving and wherever they stop, all that they answer for an epoch is
about one lock digest. -/

namespace Kageb

open Binary Checks Files Maps

/-- The variants of `KeyperProcessError` that a child returns, and a panic. -/
inductive KeyperFailure where
  | invalidRequest
  | invalidResponse
  | panicked
  deriving DecidableEq

def signLockPrefixLen : Nat := boundShareLen + 4

def releasePrefixLen : Nat := boundShareLen + 8

/-- `SETTLEMENT_STDIN_READ_LIMIT`. -/
def settlementStdinReadLimit : Nat := maxSettlementFrameLen + 1

/-- What the libraries of a child compute: `bincode`, `SigningKey::from_bytes` and the decoding of
UTF-8. -/
structure KeyperLibrary (host : Host) where
  deserializeSecret : Bytes → Option host.SecretKeyShare
  signingKey : Bytes32 → host.SigningKey
  text : Bytes → Option (List Char)

/-! ### The private files -/

/-- What `symlink_metadata` and a read say of a file. -/
structure PrivateFile where
  isFile : Bool
  isSymlink : Bool
  mode : UInt32
  len : Nat
  content : Option Bytes

def readKeyperAttestationKey (file : Option PrivateFile) : Except KeyperFailure Bytes32 := do
  let metadata ← okOr file .invalidRequest
  rejectIf (metadata.isFile = false ∨ metadata.isSymlink = true ∨ metadata.len ≠ 32) .invalidRequest
  rejectIf (metadata.mode &&& 0o077 ≠ 0) .invalidRequest
  let bytes ← okOr metadata.content .invalidRequest
  okOr (ByteVec.ofBytes? 32 bytes) .invalidRequest

/-- `char::is_whitespace`. -/
def isWhitespace (c : Char) : Bool :=
  (9 ≤ c.toNat && c.toNat ≤ 13) || c.toNat ∈ [0x20, 0x85, 0xA0, 0x1680] ||
    (0x2000 ≤ c.toNat && c.toNat ≤ 0x200A) ||
    c.toNat ∈ [0x2028, 0x2029, 0x202F, 0x205F, 0x3000]

def trim (text : List Char) : List Char :=
  ((text.dropWhile isWhitespace).reverse.dropWhile isWhitespace).reverse

def readKeyperRpcUrl {host : Host} (library : KeyperLibrary host) (file : Option PrivateFile) :
    Except KeyperFailure (List Char) := do
  let metadata ← okOr file .invalidRequest
  rejectIf (metadata.isFile = false ∨ metadata.isSymlink = true) .invalidRequest
  rejectIf (metadata.mode &&& 0o077 ≠ 0) .invalidRequest
  let text ← okOr (metadata.content.bind library.text) .invalidRequest
  let url := trim text
  rejectIf (url = [] ∨ (url.map Char.utf8Size).sum > 2048 ∨ url.any isWhitespace = true)
    .invalidRequest
  .ok url

/-! ### Requests -/

section Child

variable {host : Host} (codec : Bincode host) (library : KeyperLibrary host)

def decodeBoundShare (encoded : Bytes) : Guarded KeyperFailure (KeyperSecretShare host) := do
  Guarded.check (rejectIf (encoded.length ≠ boundShareLen) .invalidRequest)
  let version ← Guarded.byte encoded 0
  Guarded.check (rejectIf (version ≠ 1) .invalidRequest)
  let epochAccount ← Guarded.array 32 encoded 1 .invalidRequest
  let index ← Guarded.u64 encoded 33 .invalidRequest
  let rest ← Guarded.slice encoded 41 encoded.length
  let secret ← Guarded.check (okOr (library.deserializeSecret rest) .invalidRequest)
  pure { epochAccount, index := index.toNat, secret }

/-- What `handle_keyper_sign_lock` makes of its input. -/
def readSignLock (stdin : Bytes) :
    Guarded KeyperFailure (KeyperSecretShare host × LockPackageV1 host) := do
  let encoded := stdin.take (maxSignLockRequestLen + 1)
  Guarded.check (rejectIf (encoded.length < signLockPrefixLen ∨
    encoded.length > maxSignLockRequestLen) .invalidRequest)
  let version ← Guarded.byte encoded 0
  Guarded.check (rejectIf (version ≠ 1) .invalidRequest)
  let head ← Guarded.slice encoded 0 boundShareLen
  let secret ← decodeBoundShare library head
  let packageLen ← Guarded.u32 encoded boundShareLen .invalidRequest
  Guarded.check (rejectIf (signLockPrefixLen + packageLen.toNat ≠ encoded.length) .invalidRequest)
  let rest ← Guarded.slice encoded signLockPrefixLen encoded.length
  let package ← (LockPackageV1.decodeWire codec rest).mapError fun _ => .invalidRequest
  pure (secret, package)

/-- What `handle_keyper_release_share` makes of its input. -/
def readReleaseShare (stdin : Bytes) :
    Guarded KeyperFailure (KeyperSecretShare host × LockPackageV1 host × Nat) := do
  let encoded := stdin.take (maxReleaseRequestLen + 1)
  Guarded.check (rejectIf (encoded.length < releasePrefixLen ∨
    encoded.length > maxReleaseRequestLen) .invalidRequest)
  let version ← Guarded.byte encoded 0
  Guarded.check (rejectIf (version ≠ 1) .invalidRequest)
  let head ← Guarded.slice encoded 0 boundShareLen
  let secret ← decodeBoundShare library head
  let memberIndex ← Guarded.u32 encoded boundShareLen .invalidRequest
  let packageLen ← Guarded.u32 encoded (boundShareLen + 4) .invalidRequest
  Guarded.check (rejectIf (releasePrefixLen + packageLen.toNat ≠ encoded.length) .invalidRequest)
  let rest ← Guarded.slice encoded releasePrefixLen encoded.length
  let package ← (LockPackageV1.decodeWire codec rest).mapError fun _ => .invalidRequest
  -- the index is compared with itself in the source
  Guarded.check (rejectIf (secret.epochAccount ≠ package.epochAccount) .invalidRequest)
  pure (secret, package, memberIndex.toNat)

/-- What `handle_keyper_sign_settlement` makes of its input. -/
def readSignSettlement (stdin : Bytes) :
    Guarded KeyperFailure (KeyperSecretShare host × SettlementRequestV1 host) := do
  let encoded := stdin.take settlementStdinReadLimit
  Guarded.check (rejectIf (encoded.length ≤ boundShareLen ∨
    encoded.length > maxSettlementFrameLen) .invalidRequest)
  let head ← Guarded.slice encoded 0 boundShareLen
  let secret ← decodeBoundShare library head
  let rest ← Guarded.slice encoded boundShareLen encoded.length
  let request ← (SettlementRequestV1.decodeWire codec rest).mapError fun _ => .invalidRequest
  pure (secret, request)

/-- An access out of range stops the process. -/
def ended {α : Type} (x : Guarded KeyperFailure α) : Except KeyperFailure α :=
  x.run.getD (.error .panicked)

/-! ### Processes -/

inductive KeyperOperation where
  | signLock
  | releaseShare
  | signSettlement
  deriving DecidableEq

/-- One start of the executable: the operation, the input, the private files as the process finds
them, and what the node at a URL answers it. -/
structure KeyperStart where
  operation : KeyperOperation
  stdin : Bytes
  attestationKey : Option PrivateFile
  rpcConfig : Option PrivateFile
  node : List Char → RpcClient

variable (removable : JournalFile → Prop)

/-- A child makes calls on the lock journal of its directory. -/
abbrev KeyperProcess (host : Host) (removable : JournalFile → Prop) :=
  ExceptT KeyperFailure (Session (journalMachine host removable))

def openJournal : KeyperProcess host removable LockJournal :=
  ExceptT.adapt (fun _ => .invalidRequest)
    (ExceptT.mk (Session.make (M := journalMachine host removable) JournalOp.open))

def callSignLock (keyper : ReferenceKeyper host) (package : LockPackageV1 host)
    (confirmed : ConfirmedOpenEpoch) (secret : KeyperSecretShare host) :
    KeyperProcess host removable (LockApprovalV1 × ReferenceKeyper host) :=
  ExceptT.adapt (fun _ => .invalidRequest)
    (ExceptT.mk (Session.make (M := journalMachine host removable)
      (JournalOp.signLock keyper package confirmed secret)))

/-- The 129 bytes of a `sign-lock` response. -/
def signLockResponse (approval : LockApprovalV1) : Bytes :=
  [1] ++ approval.keyperKey.bytes ++ approval.digest.bytes ++ approval.signature.bytes

def handleKeyperSignLock (start : KeyperStart) : KeyperProcess host removable Bytes := do
  let (secret, package) ← Session.lift (ended (readSignLock codec library start.stdin))
  let seed ← Session.lift (readKeyperAttestationKey start.attestationKey)
  let url ← Session.lift (readKeyperRpcUrl library start.rpcConfig)
  let confirmed ← Session.lift ((host.fetchConfirmedOpenEpoch (start.node url)
    package.epochAccount).mapError fun _ => .invalidRequest)
  let journal ← openJournal removable
  let keyper : ReferenceKeyper host := ⟨secret.index, library.signingKey seed, journal⟩
  let (approval, _) ← callSignLock removable keyper package confirmed secret
  pure (signLockResponse approval)

def handleKeyperReleaseShare (start : KeyperStart) : KeyperProcess host removable Bytes := do
  let (secret, package, memberIndex) ←
    Session.lift (ended (readReleaseShare codec library start.stdin))
  let url ← Session.lift (readKeyperRpcUrl library start.rpcConfig)
  let confirmed ← Session.lift ((host.fetchConfirmedLock (start.node url)
    package.epochAccount).mapError fun _ => .invalidRequest)
  let seed ← Session.lift (readKeyperAttestationKey start.attestationKey)
  let journal ← openJournal removable
  let keyper : ReferenceKeyper host := ⟨secret.index, library.signingKey seed, journal⟩
  let released ← Session.lift ((keyper.releaseShare package confirmed secret memberIndex).mapError
    fun _ => .invalidRequest)
  Session.lift ((released.encodeWire codec).mapError fun _ => .invalidResponse)

def handleKeyperSignSettlement (start : KeyperStart) : KeyperProcess host removable Bytes := do
  let (secret, request) ← Session.lift (ended (readSignSettlement codec library start.stdin))
  let url ← Session.lift (readKeyperRpcUrl library start.rpcConfig)
  let confirmed ← Session.lift ((host.fetchConfirmedLock (start.node url)
    request.package.epochAccount).mapError fun _ => .invalidRequest)
  let seed ← Session.lift (readKeyperAttestationKey start.attestationKey)
  let signingKey := library.signingKey seed
  let journal ← openJournal removable
  let pool ← Session.lift (okOr confirmed.pool .invalidRequest)
  -- its place among the keypers of the pool
  let index ← Session.lift (okOr (pool.keypers.toList.findIdx? fun key =>
    key = host.verifyingKey signingKey) .invalidRequest)
  let keyper : ReferenceKeyper host := ⟨index, signingKey, journal⟩
  let approval ← Session.lift ((keyper.signSettlement request confirmed secret).mapError
    fun _ => .invalidRequest)
  pure approval.encodeWire

def KeyperStart.program (start : KeyperStart) : KeyperProcess host removable Bytes :=
  match start.operation with
  | .signLock => handleKeyperSignLock codec library removable start
  | .releaseShare => handleKeyperReleaseShare codec library removable start
  | .signSettlement => handleKeyperSignSettlement codec library removable start

/-- Any number of keyper processes in one private directory. -/
def keyperMachine : Machine JournalFile Unit UInt8 :=
  (journalMachine host removable).hosting fun start : KeyperStart =>
    (start.program codec library removable).run

end Child

/-! ### Requests are read as they were written -/

section Exact

variable {host : Host} {codec : Bincode host} {library : KeyperLibrary host}

/-- A secret share is read from exactly the bytes that it is written as. -/
def KeyperLibrary.Reads (library : KeyperLibrary host) (codec : Bincode host) : Prop :=
  ∀ secret bytes, library.deserializeSecret bytes = some secret ↔
    codec.serializeSecret secret = some bytes

theorem appendBoundShare_eq_ok {share : KeyperSecretShare host} {bytes : Bytes} :
    appendBoundShare codec share = .ok bytes ↔ ∃ secretBytes,
      codec.serializeSecret share.secret = some secretBytes ∧ secretBytes.length = 32 ∧
      bytes =
        [1] ++ share.epochAccount.bytes ++ le64 (UInt64.ofNat share.index) ++ secretBytes := by
  simp only [appendBoundShare, bind_ok, okOr_eq_ok, Unique.exists_iff, rejectIf_eq_ok, not_not,
    Except.ok.injEq, List.length_append, List.length_singleton, ByteVec.length_bytes, le64_length,
    boundShareLen]
  constructor
  · rintro ⟨secretBytes, hsecret, hlength, rfl⟩
    exact ⟨secretBytes, hsecret, by omega, rfl⟩
  · rintro ⟨secretBytes, hsecret, hlength, rfl⟩
    exact ⟨secretBytes, hsecret, by omega, rfl⟩

theorem decodeBoundShare_eq_pure (reads : library.Reads codec) {bytes : Bytes}
    {share : KeyperSecretShare host} : decodeBoundShare library bytes = pure share ↔
      share.index < 2 ^ 64 ∧ appendBoundShare codec share = .ok bytes := by
  rw [appendBoundShare_eq_ok]
  simp only [decodeBoundShare, Guarded.bind_eq_pure, Guarded.check_eq_pure, rejectIf_eq_ok,
    okOr_eq_ok, Guarded.byte_eq_pure, Guarded.array_eq_pure, Guarded.slice_eq_pure,
    Guarded.u64_eq_pure, Guarded.pure_eq_pure, Unique.exists_iff, not_not]
  have hbound : boundShareLen = 73 := rfl
  constructor
  · rintro ⟨hlength, _, hversion, rfl, epochAccount, hepoch, index, hindex, rest, ⟨hrest, hend⟩,
      secret, hsecret, rfl⟩
    refine ⟨index.toNat_lt, rest, (reads _ _).mp hsecret, by omega, ?_⟩
    rw [eq_iff_partAt]
    simp only [List.append_assoc, partAt_append, List.length_append, List.length_singleton,
      le64_length, ByteVec.length_bytes, UInt64.ofNat_toNat, Nat.zero_add, Nat.reduceAdd]
    exact ⟨by omega, hversion, hepoch, hindex, hrest⟩
  · rintro ⟨hindexLt, secretBytes, hsecret, hlength, hbytes⟩
    rw [eq_iff_partAt] at hbytes
    simp only [List.append_assoc, partAt_append, List.length_append, List.length_singleton,
      le64_length, ByteVec.length_bytes, Nat.zero_add, Nat.reduceAdd] at hbytes
    obtain ⟨hlong, hversion, hepoch, hindex, hrest⟩ := hbytes
    refine ⟨by omega, _, hversion, rfl, _, hepoch, _, hindex, _, ⟨hrest, by omega⟩, _,
      (reads _ _).mpr hsecret, ?_⟩
    rw [UInt64.toNat_ofNat_of_lt' hindexLt]

/-- A frame begins with the version of its share. -/
theorem version_of_boundShare {share : KeyperSecretShare host} {head encoded : Bytes}
    (h : appendBoundShare codec share = .ok head) (hpart : PartAt encoded 0 head) :
    head.length = boundShareLen ∧ PartAt encoded 0 [1] := by
  obtain ⟨secretBytes, -, hlength, rfl⟩ := appendBoundShare_eq_ok.mp h
  simp only [List.append_assoc, partAt_append] at hpart
  exact ⟨by simp [boundShareLen, hlength], hpart.1⟩

theorem take_eq_self {stdin : Bytes} {limit : Nat}
    (h : ¬(stdin.take (limit + 1)).length > limit) : stdin.take (limit + 1) = stdin := by
  rw [List.length_take] at h
  exact List.take_of_length_le (by omega)

/-- A child reads a request to sign a lock exactly when a parent sends it. -/
theorem readSignLock_eq_pure (canonical : codec.Canonical) (reads : library.Reads codec)
    {stdin : Bytes} {share : KeyperSecretShare host} {package : LockPackageV1 host} :
    readSignLock codec library stdin = pure (share, package) ↔
      share.index < 2 ^ 64 ∧ package.WellFormed codec ∧
        signLockRequest codec share package = .ok stdin := by
  simp only [readSignLock, signLockRequest, bind_ok, mapError_eq_ok, okOr_eq_ok, Unique.exists_iff,
    rejectIf_eq_ok, count32_eq_some, Except.ok.injEq, Guarded.bind_eq_pure, Guarded.check_eq_pure,
    Guarded.byte_eq_pure, Guarded.slice_eq_pure, Guarded.u32_eq_pure, Guarded.mapError_eq_pure,
    decodeBoundShare_eq_pure reads, LockPackageV1.decodeWire_eq_pure canonical,
    Guarded.pure_eq_pure, not_or, not_not]
  have hlen : signLockPrefixLen = 77 := rfl
  have hbound : boundShareLen = 73 := rfl
  constructor
  · rintro ⟨⟨hlong, hmax⟩, _, -, rfl, head, ⟨hhead, hheadLength⟩, secret, ⟨hindex, hsecret⟩,
      packageLen, hpackageLen, hlength, rest, ⟨hrest, hend⟩, package', ⟨hwell, hwire⟩, heq⟩
    cases heq
    rw [take_eq_self hmax] at *
    have hbytes : stdin = head ++ le32 packageLen ++ rest := by
      rw [eq_iff_partAt]
      simp only [List.append_assoc, partAt_append, List.length_append, le32_length]
      refine ⟨by omega, hhead, ?_, ?_⟩
      · rwa [hheadLength]
      · rwa [hheadLength]
    exact ⟨hindex, hwell, rest, hwire, packageLen, by omega, head, hsecret,
      hbytes ▸ hmax, hbytes.symm⟩
  · rintro ⟨hindex, hwell, rest, hwire, packageLen, hpackageLen, head, hsecret, hmax, hbytes⟩
    rw [hbytes] at hmax
    have htake : stdin.take (maxSignLockRequestLen + 1) = stdin :=
      List.take_of_length_le (by omega)
    rw [eq_comm, eq_iff_partAt] at hbytes
    simp only [List.append_assoc, partAt_append, List.length_append, le32_length] at hbytes
    obtain ⟨hlength, hhead, hword, hrest⟩ := hbytes
    obtain ⟨hheadLength, hversion⟩ := version_of_boundShare hsecret hhead
    rw [hheadLength] at hword hrest
    rw [htake]
    exact ⟨⟨by omega, hmax⟩, _, hversion, rfl, head, ⟨hhead, by omega⟩, share, ⟨hindex, hsecret⟩,
      packageLen, by simpa using hword, by omega, rest,
      ⟨by simpa [signLockPrefixLen] using hrest, by omega⟩, package, ⟨hwell, hwire⟩, rfl⟩

theorem readReleaseShare_eq_pure (canonical : codec.Canonical) (reads : library.Reads codec)
    {stdin : Bytes} {share : KeyperSecretShare host} {package : LockPackageV1 host}
    {memberIndex : Nat} :
    readReleaseShare codec library stdin = pure (share, package, memberIndex) ↔
      share.index < 2 ^ 64 ∧ package.WellFormed codec ∧
        share.epochAccount = package.epochAccount ∧
        releaseShareRequest codec share package memberIndex = .ok stdin := by
  simp only [readReleaseShare, releaseShareRequest, bind_ok, mapError_eq_ok, okOr_eq_ok,
    Unique.exists_iff, rejectIf_eq_ok, count32_eq_some, Except.ok.injEq, Guarded.bind_eq_pure,
    Guarded.check_eq_pure, Guarded.byte_eq_pure, Guarded.slice_eq_pure, Guarded.u32_eq_pure,
    Guarded.mapError_eq_pure, decodeBoundShare_eq_pure reads,
    LockPackageV1.decodeWire_eq_pure canonical, Guarded.pure_eq_pure, not_or, not_not]
  have hlen : releasePrefixLen = 81 := rfl
  have hbound : boundShareLen = 73 := rfl
  constructor
  · rintro ⟨⟨hlong, hmax⟩, _, -, rfl, head, ⟨hhead, hheadLength⟩, secret, ⟨hindex, hsecret⟩, member,
      hmember, packageLen, hpackageLen, hlength, rest, ⟨hrest, hend⟩, package', ⟨hwell, hwire⟩,
      hepoch, heq⟩
    cases heq
    rw [take_eq_self hmax] at *
    have hbytes : stdin = head ++ le32 member ++ le32 packageLen ++ rest := by
      rw [eq_iff_partAt]
      simp only [List.append_assoc, partAt_append, List.length_append, le32_length]
      refine ⟨by omega, hhead, ?_, ?_, ?_⟩
      · rwa [hheadLength]
      · rwa [hheadLength]
      · rwa [hheadLength]
    exact ⟨hindex, hwell, hepoch, rest, hwire, head, hsecret, member, rfl, packageLen, by omega,
      hbytes ▸ hmax, hbytes.symm⟩
  · rintro ⟨hindex, hwell, hepoch, rest, hwire, head, hsecret, member, rfl, packageLen, hpackageLen,
      hmax, hbytes⟩
    rw [hbytes] at hmax
    have htake : stdin.take (maxReleaseRequestLen + 1) = stdin :=
      List.take_of_length_le (by omega)
    rw [eq_comm, eq_iff_partAt] at hbytes
    simp only [List.append_assoc, partAt_append, List.length_append, le32_length] at hbytes
    obtain ⟨hlength, hhead, hmember, hword, hrest⟩ := hbytes
    obtain ⟨hheadLength, hversion⟩ := version_of_boundShare hsecret hhead
    rw [hheadLength] at hmember hword hrest
    rw [htake]
    exact ⟨⟨by omega, hmax⟩, _, hversion, rfl, head, ⟨hhead, by omega⟩, share, ⟨hindex, hsecret⟩,
      member, by simpa using hmember, packageLen, by simpa using hword, by omega, rest,
      ⟨by simpa [releasePrefixLen, Nat.add_assoc] using hrest, by omega⟩, package, ⟨hwell, hwire⟩,
      hepoch, rfl⟩

/-- No request is written as nothing. -/
theorem SettlementRequestV1.length_of_encodeWire (canonical : codec.Canonical)
    {request : SettlementRequestV1 host} (hwell : request.WellFormed codec) {bytes : Bytes}
    (h : request.encodeWire codec = .ok bytes) : 5 ≤ bytes.length := by
  have hread := (decodeWire_eq_pure canonical).mpr ⟨hwell, h⟩
  rw [decodeWire, Guarded.bind_eq_pure] at hread
  obtain ⟨_, hcheck, -⟩ := hread
  rw [Guarded.check_eq_pure, rejectIf_eq_ok] at hcheck
  omega

theorem readSignSettlement_eq_pure (canonical : codec.Canonical) (reads : library.Reads codec)
    {stdin : Bytes} {share : KeyperSecretShare host} {request : SettlementRequestV1 host} :
    readSignSettlement codec library stdin = pure (share, request) ↔
      share.index < 2 ^ 64 ∧ request.WellFormed codec ∧
        signSettlementRequest codec share request = .ok stdin := by
  simp only [readSignSettlement, signSettlementRequest, bind_ok, mapError_eq_ok,
    Unique.exists_iff, rejectIf_eq_ok, Except.ok.injEq, Guarded.bind_eq_pure,
    Guarded.check_eq_pure, Guarded.slice_eq_pure, Guarded.mapError_eq_pure,
    decodeBoundShare_eq_pure reads, SettlementRequestV1.decodeWire_eq_pure canonical,
    Guarded.pure_eq_pure, not_or]
  have hlimit : settlementStdinReadLimit = maxSettlementFrameLen + 1 := rfl
  rw [hlimit]
  have hlen : maxSettlementFrameLen = boundShareLen + maxSettlementRequestLen := rfl
  have hbound : boundShareLen = 73 := rfl
  constructor
  · rintro ⟨⟨hlong, hmax⟩, head, ⟨hhead, hheadLength⟩, secret, ⟨hindex, hsecret⟩, rest,
      ⟨hrest, hend⟩, request', ⟨hwell, hwire⟩, heq⟩
    cases heq
    rw [take_eq_self hmax] at *
    have hbytes : stdin = head ++ rest := by
      rw [eq_iff_partAt]
      simp only [partAt_append, List.length_append]
      refine ⟨by omega, hhead, ?_⟩
      rwa [hheadLength]
    exact ⟨hindex, hwell, rest, hwire, by omega, head, hsecret, hbytes ▸ hmax, hbytes.symm⟩
  · rintro ⟨hindex, hwell, rest, hwire, -, head, hsecret, hmax, hbytes⟩
    rw [hbytes] at hmax
    have htake : stdin.take (maxSettlementFrameLen + 1) = stdin :=
      List.take_of_length_le (by omega)
    rw [eq_comm, eq_iff_partAt] at hbytes
    simp only [partAt_append, List.length_append] at hbytes
    obtain ⟨hlength, hhead, hrest⟩ := hbytes
    obtain ⟨hheadLength, -⟩ := version_of_boundShare hsecret hhead
    rw [hheadLength] at hrest
    have hlong := SettlementRequestV1.length_of_encodeWire canonical hwell hwire
    rw [htake]
    exact ⟨⟨by omega, hmax⟩, head, ⟨hhead, by omega⟩, share, ⟨hindex, hsecret⟩, rest,
      ⟨by simpa using hrest, by omega⟩, request, ⟨hwell, hwire⟩, rfl⟩

/-! ### No input makes a child panic -/

theorem decodeBoundShare_ends (bytes : Bytes) : (decodeBoundShare library bytes).Ends := by
  refine Guarded.ends_reject fun hlength => ?_
  have hlong : bytes.length = 73 := not_not.mp hlength
  refine (Guarded.ends_byte (by omega)).bind fun _ _ => ?_
  refine (Guarded.ends_check _).bind fun _ _ => ?_
  refine (Guarded.ends_array (by omega) _).bind fun _ _ => ?_
  refine (Guarded.ends_u64 (by omega) _).bind fun _ _ => ?_
  refine (Guarded.ends_slice (by omega) le_rfl).bind fun _ _ => ?_
  refine (Guarded.ends_check _).bind fun _ _ => ?_
  exact Guarded.ends_pure _

theorem readSignLock_ends (stdin : Bytes) : (readSignLock codec library stdin).Ends := by
  refine Guarded.ends_reject fun hlength => ?_
  have hlong : 77 ≤ (stdin.take (maxSignLockRequestLen + 1)).length :=
    not_lt.mp (not_or.mp hlength).1
  have hbound : boundShareLen = 73 := rfl
  refine (Guarded.ends_byte (by omega)).bind fun _ _ => ?_
  refine (Guarded.ends_check _).bind fun _ _ => ?_
  refine (Guarded.ends_slice (by omega) (by omega)).bind fun head _ => ?_
  refine (decodeBoundShare_ends head).bind fun _ _ => ?_
  refine (Guarded.ends_u32 (by omega) _).bind fun _ _ => ?_
  refine (Guarded.ends_check _).bind fun _ _ => ?_
  refine (Guarded.ends_slice hlong le_rfl).bind fun rest _ => ?_
  refine ((LockPackageV1.decodeWire_ends rest).mapError _).bind fun _ _ => ?_
  exact Guarded.ends_pure _

theorem readReleaseShare_ends (stdin : Bytes) : (readReleaseShare codec library stdin).Ends := by
  refine Guarded.ends_reject fun hlength => ?_
  have hlong : 81 ≤ (stdin.take (maxReleaseRequestLen + 1)).length :=
    not_lt.mp (not_or.mp hlength).1
  have hbound : boundShareLen = 73 := rfl
  refine (Guarded.ends_byte (by omega)).bind fun _ _ => ?_
  refine (Guarded.ends_check _).bind fun _ _ => ?_
  refine (Guarded.ends_slice (by omega) (by omega)).bind fun head _ => ?_
  refine (decodeBoundShare_ends head).bind fun _ _ => ?_
  iterate 2 refine (Guarded.ends_u32 (by omega) _).bind fun _ _ => ?_
  refine (Guarded.ends_check _).bind fun _ _ => ?_
  refine (Guarded.ends_slice hlong le_rfl).bind fun rest _ => ?_
  refine ((LockPackageV1.decodeWire_ends rest).mapError _).bind fun _ _ => ?_
  refine (Guarded.ends_check _).bind fun _ _ => ?_
  exact Guarded.ends_pure _

theorem readSignSettlement_ends (stdin : Bytes) :
    (readSignSettlement codec library stdin).Ends := by
  refine Guarded.ends_reject fun hlength => ?_
  have hlong : boundShareLen < (stdin.take settlementStdinReadLimit).length :=
    not_le.mp (not_or.mp hlength).1
  refine (Guarded.ends_slice (Nat.zero_le _) hlong.le).bind fun head _ => ?_
  refine (decodeBoundShare_ends head).bind fun _ _ => ?_
  refine (Guarded.ends_slice hlong.le le_rfl).bind fun rest _ => ?_
  refine ((SettlementRequestV1.decodeWire_ends rest).mapError _).bind fun _ _ => ?_
  exact Guarded.ends_pure _

/-- A child accepts exactly the frames that a parent sends, each as the request that was sent, and
no input at all makes it access its buffer out of range. -/
theorem requests_exact (canonical : codec.Canonical) (reads : library.Reads codec)
    (stdin : Bytes) :
    (∀ share package, readSignLock codec library stdin = pure (share, package) ↔
      share.index < 2 ^ 64 ∧ package.WellFormed codec ∧
        signLockRequest codec share package = .ok stdin) ∧
    (∀ share package memberIndex,
      readReleaseShare codec library stdin = pure (share, package, memberIndex) ↔
        share.index < 2 ^ 64 ∧ package.WellFormed codec ∧
          share.epochAccount = package.epochAccount ∧
          releaseShareRequest codec share package memberIndex = .ok stdin) ∧
    (∀ share request, readSignSettlement codec library stdin = pure (share, request) ↔
      share.index < 2 ^ 64 ∧ request.WellFormed codec ∧
        signSettlementRequest codec share request = .ok stdin) ∧
    (readSignLock codec library stdin).Ends ∧ (readReleaseShare codec library stdin).Ends ∧
    (readSignSettlement codec library stdin).Ends :=
  ⟨fun _ _ => readSignLock_eq_pure canonical reads,
    fun _ _ _ => readReleaseShare_eq_pure canonical reads,
    fun _ _ => readSignSettlement_eq_pure canonical reads,
    readSignLock_ends stdin, readReleaseShare_ends stdin, readSignSettlement_ends stdin⟩

end Exact

namespace Sample

open Threshold

def library : KeyperLibrary host where
  deserializeSecret
    | a :: rest => if a < 5 ∧ rest = List.replicate 31 0 then some (a.toNat : F) else none
    | [] => none
  signingKey seed := seed
  text bytes := some (bytes.map fun a => Char.ofNat a.toNat)

theorem library_reads : library.Reads codec := by
  have hread : ∀ x : F, UInt8.ofNat x.val < 5 ∧ ((UInt8.ofNat x.val).toNat : F) = x := by decide
  have hwrite : ∀ a : UInt8, a < 5 → UInt8.ofNat ((a.toNat : F).val) = a := by
    intro a ha
    rw [ZMod.val_natCast_of_lt (UInt8.lt_iff_toNat_lt.mp ha), UInt8.ofNat_toNat]
  intro (x : F) bytes
  constructor
  · intro h
    cases bytes with
    | nil => cases h
    | cons a rest =>
      simp only [library] at h
      split_ifs at h with hbytes
      cases h
      show some (_ :: _) = _
      rw [hwrite a hbytes.1, hbytes.2]
  · intro h
    cases h
    refine (if_pos ⟨(hread x).1, rfl⟩).trans ?_
    rw [(hread x).2]

end Sample

/-- The frame of the sample is read as the request that was sent. -/
theorem requests_exact_signLock : ∃ frame,
    signLockRequest Sample.codec (Sample.secretShare 0) (Sample.package [1, 2, 3, 4]) = .ok frame ∧
    readSignLock Sample.codec Sample.library frame =
      pure (Sample.secretShare 0, Sample.package [1, 2, 3, 4]) := by
  have hwell := Sample.package_made.wellFormed
  obtain ⟨⟨frame, hframe, -⟩, -⟩ := package_frames Sample.codec_canonical (Sample.secretShare 0)
    hwell (by decide) (by decide)
  have hexact := (requests_exact Sample.codec_canonical Sample.library_reads frame).1
  exact ⟨frame, hframe, (hexact _ _).mpr ⟨by decide, hwell, hframe⟩⟩

/-! ### What an answer is about -/

section Answers

variable {host : Host} {codec : Bincode host} {library : KeyperLibrary host}
  {removable : JournalFile → Prop}

/-- What the process was asked and what it has written are about this digest of this epoch. -/
inductive Speaks (codec : Bincode host) (library : KeyperLibrary host) (start : KeyperStart) :
    Bytes → Pubkey → Bytes32 → Prop
  | signLock {secret : KeyperSecretShare host} {package : LockPackageV1 host}
      {approval : LockApprovalV1} : start.operation = .signLock →
      readSignLock codec library start.stdin = pure (secret, package) →
      Speaks codec library start (signLockResponse approval) package.epochAccount approval.digest
  | releaseShare {released : ReleasedShareV1 host} {stdout : Bytes} :
      start.operation = .releaseShare → released.encodeWire codec = .ok stdout →
      Speaks codec library start stdout released.epochAccount released.lockDigest
  | signSettlement {approval : SettlementApprovalV1} : start.operation = .signSettlement →
      Speaks codec library start approval.encodeWire approval.payload.epochAccount
        approval.payload.lockDigest

theorem signLockResponse_digest {a a' : LockApprovalV1}
    (h : signLockResponse a = signLockResponse a') : a.digest = a'.digest := by
  have hhead := (List.append_inj' h (by simp)).1
  exact ByteVec.ext (List.append_inj' hhead (by simp)).2

theorem ReleasedShareV1.encodeWire_inj {r r' : ReleasedShareV1 host} {bytes : Bytes}
    (h : r.encodeWire codec = .ok bytes) (h' : r'.encodeWire codec = .ok bytes) :
    r.epochAccount = r'.epochAccount ∧ r.lockDigest = r'.lockDigest := by
  obtain ⟨share, shareLen, -, -, rfl⟩ := encodeWire_eq_ok.mp h
  obtain ⟨share', shareLen', -, -, hbytes⟩ := encodeWire_eq_ok.mp h'
  simp only [wireBytes, List.append_assoc] at hbytes
  have hindex := (List.append_inj hbytes rfl).2
  have hepoch := List.append_inj (List.append_inj hindex (by simp)).2 (by simp)
  have hdigest := List.append_inj hepoch.2 (by simp)
  exact ⟨ByteVec.ext hepoch.1, ByteVec.ext hdigest.1⟩

theorem SettlementApprovalV1.encodeWire_inj {a a' : SettlementApprovalV1}
    (h : a.encodeWire = a'.encodeWire) : a = a' := by
  have hread : decodeWire a.encodeWire = pure a := decodeWire_eq_pure.mpr rfl
  have hread' : decodeWire a.encodeWire = pure a' := decodeWire_eq_pure.mpr h
  exact Guarded.pure_eq_pure.mp (hread.symm.trans hread')

/-- An answer is about one digest. -/
theorem Speaks.unique {start : KeyperStart} {stdout : Bytes} {epoch epoch' : Pubkey}
    {digest digest' : Bytes32} (h : Speaks codec library start stdout epoch digest)
    (h' : Speaks codec library start stdout epoch' digest') :
    epoch = epoch' ∧ digest = digest' := by
  cases h with
  | signLock hop hread =>
    generalize hstdout : signLockResponse _ = stdout at h'
    cases h' with
    | signLock _ hread' =>
      obtain ⟨-, rfl⟩ := Prod.mk.inj (Guarded.pure_eq_pure.mp (hread.symm.trans hread'))
      exact ⟨rfl, signLockResponse_digest hstdout⟩
    | releaseShare hop' _ => cases hop.symm.trans hop'
    | signSettlement hop' => cases hop.symm.trans hop'
  | releaseShare hop hwire =>
    cases h' with
    | signLock hop' _ => cases hop.symm.trans hop'
    | releaseShare _ hwire' => exact ReleasedShareV1.encodeWire_inj hwire hwire'
    | signSettlement hop' => cases hop.symm.trans hop'
  | signSettlement hop =>
    generalize hstdout : SettlementApprovalV1.encodeWire _ = stdout at h'
    cases h' with
    | signLock hop' _ => cases hop.symm.trans hop'
    | releaseShare hop' _ => cases hop.symm.trans hop'
    | signSettlement _ =>
      obtain rfl := SettlementApprovalV1.encodeWire_inj hstdout
      exact ⟨rfl, rfl⟩

theorem ended_ok {α : Type} {x : Guarded KeyperFailure α} {a : α} :
    ended x = .ok a ↔ x = pure a := by
  have hrun : ∀ y : Option (Except KeyperFailure α),
      y.getD (.error .panicked) = .ok a ↔ y = some (.ok a) := by
    intro y
    cases y <;> simp
  exact hrun x.run

/-! ### What the calls of a process have left in the log -/

section Releases

variable {M : Machine JournalFile Unit UInt8} {i : Nat} {op : M.Op} {w : World M}

theorem withJournalLock_releases {α : Type} (body : JournalCall α) :
    (exec i op (withJournalLock body).run ∅ w).2.1 = ∅ := by
  have hnone : ∀ held : Finset Unit, held.erase () = ∅ := fun held => by
    ext
    simp
  rw [withJournalLock, exec_guarded (Finset.notMem_empty _) rfl]
  exact hnone _

theorem ReferenceKeyper.signLock_releases (keyper : ReferenceKeyper host)
    (package : LockPackageV1 host) (confirmed : ConfirmedOpenEpoch)
    (secret : KeyperSecretShare host) :
    (exec i op (keyper.signLock package confirmed secret).run ∅ w).2.1 = ∅ := by
  rw [signLock, exec_run_bind, exec_lift]
  cases keyper.checkLock package confirmed secret with
  | error e => rfl
  | ok digest =>
    rw [thenRun_ok, exec_run_bind, LockJournal.record, thenRun]
    split
    · exact withJournalLock_releases _
    · exact withJournalLock_releases _

end Releases

/-- The lock of the journal is free again after each call. -/
theorem journalMachine_releases : (journalMachine host removable).Releases := by
  intro i op w
  cases op with
  | «open» => exact withJournalLock_releases _
  | signLock keyper package confirmed secret =>
    exact keyper.signLock_releases package confirmed secret

theorem openJournal_play {t : State (journalMachine host removable)} {journal : LockJournal}
    (h : t.told JournalOp.open = (.ok journal : Except LockValidationError LockJournal)) :
    (openJournal removable).run.play t = (.ok journal, t.solo JournalOp.open) :=
  Prod.ext (congrArg (Except.mapError fun _ => KeyperFailure.invalidRequest) h) rfl

theorem callSignLock_play {t : State (journalMachine host removable)}
    {keyper : ReferenceKeyper host} {package : LockPackageV1 host} {confirmed : ConfirmedOpenEpoch}
    {secret : KeyperSecretShare host} {result : LockApprovalV1 × ReferenceKeyper host}
    (h : t.told (.signLock keyper package confirmed secret) =
      (.ok result : Except LockValidationError (LockApprovalV1 × ReferenceKeyper host))) :
    (callSignLock removable keyper package confirmed secret).run.play t =
      (.ok result, t.solo (.signLock keyper package confirmed secret)) :=
  Prod.ext (congrArg (Except.mapError fun _ => KeyperFailure.invalidRequest) h) rfl

/-- A process that nobody disturbs answers with the approval that its calls give. -/
theorem handleKeyperSignLock_play {t : State (journalMachine host removable)} {start : KeyperStart}
    {secret : KeyperSecretShare host} {package : LockPackageV1 host} {seed : Bytes32}
    {url : List Char} {confirmed : ConfirmedOpenEpoch} {journal : LockJournal}
    {result : LockApprovalV1 × ReferenceKeyper host}
    (hread : readSignLock codec library start.stdin = pure (secret, package))
    (hseed : readKeyperAttestationKey start.attestationKey = .ok seed)
    (hurl : readKeyperRpcUrl library start.rpcConfig = .ok url)
    (hconfirmed : host.fetchConfirmedOpenEpoch (start.node url) package.epochAccount =
      .ok confirmed)
    (hopened : t.told JournalOp.open = (.ok journal : Except LockValidationError LockJournal))
    (hsigned : (t.solo JournalOp.open).told (.signLock
        ⟨secret.index, library.signingKey seed, journal⟩ package confirmed secret) =
      (.ok result : Except LockValidationError (LockApprovalV1 × ReferenceKeyper host))) :
    ((handleKeyperSignLock codec library removable start).run.play t).1 =
      .ok (signLockResponse result.1) := by
  have hlift : ∀ {α : Type} {x : Except KeyperFailure α} {a : α}, x = .ok a →
      (Session.lift x : KeyperProcess host removable α).run.play t = (.ok a, t) := by
    rintro α x a rfl
    rfl
  unfold handleKeyperSignLock
  rw [Session.play_run_bind (hlift (ended_ok.mpr hread)), Session.play_run_bind (hlift hseed),
    Session.play_run_bind (hlift hurl),
    Session.play_run_bind (hlift (mapError_eq_ok.mpr hconfirmed)),
    Session.play_run_bind (openJournal_play hopened),
    Session.play_run_bind (callSignLock_play hsigned)]
  rfl

variable {files : JournalFile → Option Bytes} {t : State (journalMachine host removable)}

theorem openJournal_returned {log : List (JournalEvent host removable)} {journal : LockJournal}
    (h : (openJournal removable).run.Yields log (.ok journal)) :
    ∃ event ∈ log, Returns event journal := by
  obtain ⟨i, hmem⟩ := Session.yields_make.mp (Session.yields_adapt.mp h)
  exact ⟨_, hmem, .inl ⟨i, rfl⟩⟩

/-- What a handle holds was on disk. -/
theorem JournalValid.onDisk_of_handle (h : JournalValid files t.world) {journal : LockJournal}
    (hreturned : ∃ event ∈ t.world.log, Returns event journal) {epoch : Pubkey} {digest : Bytes32}
    (hdigest : journal.records[epoch]? = some digest) : OnDisk files t.world.log epoch digest := by
  obtain ⟨event, hmem, hreturns⟩ := hreturned
  obtain ⟨older, hsuffix⟩ := exists_suffix_of_mem hmem
  have hknown := (h.vouched event older hsuffix).known journal hreturns epoch digest hdigest
  exact hknown.suffix ((List.suffix_cons _ _).trans hsuffix)

theorem JournalValid.onDisk_of_approves (h : JournalValid files t.world) {epoch : Pubkey}
    {digest : Bytes32} (happroved : Approved t epoch digest) :
    OnDisk files t.world.log epoch digest := by
  obtain ⟨event, hmem, happroves⟩ := happroved
  obtain ⟨older, hsuffix⟩ := exists_suffix_of_mem hmem
  have hbefore := (h.vouched event older hsuffix).approved epoch digest happroves
  exact hbefore.suffix ((List.suffix_cons _ _).trans hsuffix)

/-- The answer of a process is about a digest that was on disk. -/
def Backs (codec : Bincode host) (library : KeyperLibrary host)
    (files : JournalFile → Option Bytes) (log : List (JournalEvent host removable))
    (start : KeyperStart) (stdout : Bytes) : Prop :=
  ∃ epoch digest, Speaks codec library start stdout epoch digest ∧ OnDisk files log epoch digest

theorem handleKeyperSignLock_backs (hvalid : JournalValid files t.world) {start : KeyperStart}
    (hop : start.operation = .signLock) {stdout : Bytes}
    (h : (handleKeyperSignLock codec library removable start).run.Yields t.world.log (.ok stdout)) :
    Backs codec library files t.world.log start stdout := by
  simp only [handleKeyperSignLock, Session.yields_run_bind, Session.yields_lift,
    Session.yields_pure] at h
  obtain ⟨⟨secret, package⟩, hread, seed, -, url, -, confirmed, -, journal, -, ⟨approval, keyper'⟩,
    hsigned, rfl⟩ := h
  obtain ⟨i, hmem⟩ := Session.yields_make.mp (Session.yields_adapt.mp hsigned)
  refine ⟨_, _, .signLock hop (ended_ok.mp hread), hvalid.onDisk_of_approves ⟨_, hmem, ?_⟩⟩
  exact ⟨i, _, package, confirmed, secret, approval, keyper', rfl, rfl, rfl⟩

theorem handleKeyperReleaseShare_backs (hvalid : JournalValid files t.world) {start : KeyperStart}
    (hop : start.operation = .releaseShare) {stdout : Bytes}
    (h : (handleKeyperReleaseShare codec library removable start).run.Yields t.world.log
      (.ok stdout)) : Backs codec library files t.world.log start stdout := by
  simp only [handleKeyperReleaseShare, Session.yields_run_bind, Session.yields_lift,
    mapError_eq_ok] at h
  obtain ⟨⟨secret, package, memberIndex⟩, -, url, -, confirmed, -, seed, -, journal, hopened,
    released, hreleased, hwire⟩ := h
  obtain ⟨-, hjournal, -, submission, -, hshare⟩ := ReferenceKeyper.releaseShare_ok hreleased
  simp only [KeyperSecretShare.release, bind_ok] at hshare
  obtain ⟨_, -, _, -, hok⟩ := hshare
  cases hok
  exact ⟨_, _, .releaseShare hop hwire,
    hvalid.onDisk_of_handle (openJournal_returned hopened) hjournal⟩

/-- A keyper signs a settlement only for the lock that its journal holds. -/
theorem ReferenceKeyper.journal_of_signSettlement {keyper : ReferenceKeyper host}
    {request : SettlementRequestV1 host} {confirmed : ConfirmedLock}
    {secret : KeyperSecretShare host} {approval : SettlementApprovalV1}
    (h : keyper.signSettlement request confirmed secret = .ok approval) :
    keyper.journal.records[confirmed.epochAccount]? = some confirmed.state.lockDigest := by
  simp only [signSettlement, bind_ok, Unique.exists_iff, rejectIf_eq_ok, not_or, not_not] at h
  obtain ⟨_, -, -, _, -, _, -, ⟨-, -, -, -, hdigest⟩, -⟩ := h
  exact hdigest

theorem handleKeyperSignSettlement_backs (hvalid : JournalValid files t.world)
    {start : KeyperStart} (hop : start.operation = .signSettlement) {stdout : Bytes}
    (h : (handleKeyperSignSettlement codec library removable start).run.Yields t.world.log
      (.ok stdout)) : Backs codec library files t.world.log start stdout := by
  simp only [handleKeyperSignSettlement, Session.yields_run_bind, Session.yields_lift,
    Session.yields_pure, mapError_eq_ok] at h
  obtain ⟨⟨secret, request⟩, -, url, -, confirmed, -, seed, -, journal, hopened, pool, -, index, -,
    approval, happroval, rfl⟩ := h
  obtain ⟨r, hr, hpayload, -⟩ := signSettlement_ok happroval
  obtain ⟨pool', recovered, result, hrecomputed⟩ := recompute_ok hr
  have hjournal := ReferenceKeyper.journal_of_signSettlement happroval
  refine ⟨_, _, .signSettlement hop, ?_⟩
  rw [hpayload, hrecomputed.payload]
  exact hvalid.onDisk_of_handle (openJournal_returned hopened) hjournal

theorem KeyperStart.program_backs (hvalid : JournalValid files t.world) {start : KeyperStart}
    {stdout : Bytes}
    (h : (start.program codec library removable).run.Yields t.world.log (.ok stdout)) :
    Backs codec library files t.world.log start stdout := by
  cases hop : start.operation with
  | signLock =>
    rw [KeyperStart.program, hop] at h
    exact handleKeyperSignLock_backs hvalid hop h
  | releaseShare =>
    rw [KeyperStart.program, hop] at h
    exact handleKeyperReleaseShare_backs hvalid hop h
  | signSettlement =>
    rw [KeyperStart.program, hop] at h
    exact handleKeyperSignSettlement_backs hvalid hop h

/-- Keyper processes in one private directory, of which at most one of the journal and its marker is
deleted: whatever they are sent and told, all they answer for an epoch is about one digest, and the
journal holds it. -/
theorem processes_agree (honly : ¬(removable .journal ∧ removable .initialized))
    (hfiles : (files .journal).isSome → (files .initialized).isSome)
    {s : State (keyperMachine codec library removable)}
    (hreaches : Reaches (State.initial Unit files) s) :
    (∀ i i' (start start' : KeyperStart) (stdout stdout' : Bytes) epoch digest digest',
      .returned i start (.ok stdout : Except KeyperFailure Bytes) ∈ s.world.log →
      .returned i' start' (.ok stdout' : Except KeyperFailure Bytes) ∈ s.world.log →
      Speaks codec library start stdout epoch digest →
      Speaks codec library start' stdout' epoch digest' → digest = digest') ∧
    ∀ i (start : KeyperStart) (stdout : Bytes),
      .returned i start (.ok stdout : Except KeyperFailure Bytes) ∈ s.world.log →
      ∃ epoch digest, Speaks codec library start stdout epoch digest ∧
        ∀ bytes records, s.world.files .journal = some bytes →
          decodeJournal host bytes = .ok records → records[epoch]? = some digest := by
  obtain ⟨t, ht, hsame, hreturned⟩ := Reaches.of_hosting hreaches
  have hvalid := journal_valid honly hfiles ht
  have hbacks : ∀ i (start : KeyperStart) (stdout : Bytes),
      .returned i start (.ok stdout : Except KeyperFailure Bytes) ∈ s.world.log →
      Backs codec library files t.world.log start stdout := fun i start stdout hmem =>
    start.program_backs hvalid (hreturned i start _ hmem)
  -- what an answer is about is what was on disk for it
  have hspoken : ∀ i (start : KeyperStart) (stdout : Bytes) epoch digest,
      .returned i start (.ok stdout : Except KeyperFailure Bytes) ∈ s.world.log →
      Speaks codec library start stdout epoch digest → OnDisk files t.world.log epoch digest := by
    intro i start stdout epoch digest hmem hspeaks
    obtain ⟨epoch', digest', hspeaks', hdisk⟩ := hbacks i start stdout hmem
    obtain ⟨rfl, rfl⟩ := hspeaks.unique hspeaks'
    exact hdisk
  refine ⟨fun i i' start start' stdout stdout' epoch digest digest' hmem hmem' hspeaks hspeaks' =>
    ?_, fun i start stdout hmem => ?_⟩
  · exact hvalid.unique epoch digest digest' (hspoken i start stdout epoch digest hmem hspeaks)
      (hspoken i' start' stdout' epoch digest' hmem' hspeaks')
  · obtain ⟨epoch, digest, hspeaks, hdisk⟩ := hbacks i start stdout hmem
    refine ⟨epoch, digest, hspeaks, fun bytes records hbytes hrecords => ?_⟩
    exact (hvalid.current bytes records (hsame ▸ hbytes) hrecords epoch digest).mp hdisk

end Answers

namespace Sample

/-- A file that only its owner can read. -/
def privateFile (content : Bytes) : PrivateFile :=
  ⟨true, false, 0o100600, content.length, some content⟩

/-- The first keyper signs the lock of the package. -/
def signLockStart : KeyperStart where
  operation := .signLock
  stdin := (signLockRequest codec (secretShare 0) (package [1, 2, 3, 4])).toOption.getD []
  attestationKey := some (privateFile (keypers.toList.getD 0 zero32).bytes)
  rpcConfig := some (privateFile [110, 111, 100, 101])
  node _ := rpc openChain

abbrev KeyperRun : Type 1 := State (keyperMachine codec library fun _ => False)

def freshDirectory : KeyperRun := State.initial Unit fun _ => none

theorem signLock_reaches : Reaches freshDirectory (freshDirectory.solo signLockStart) :=
  (State.Free.reaches_solo (s := freshDirectory) (fun _ => rfl) signLockStart).1

theorem signLockStart_read : readSignLock codec library signLockStart.stdin =
    pure (secretShare 0, package [1, 2, 3, 4]) := by
  have hwell := package_made.wellFormed
  obtain ⟨⟨frame, hframe, -⟩, -⟩ := package_frames codec_canonical (secretShare 0) hwell
    (by decide) (by decide)
  have hstdin : signLockStart.stdin = frame := by
    rw [signLockStart, hframe]
    rfl
  rw [hstdin]
  exact (readSignLock_eq_pure codec_canonical library_reads).mpr ⟨by decide, hwell, hframe⟩

theorem signLockStart_files :
    readKeyperAttestationKey signLockStart.attestationKey = .ok (keypers.toList.getD 0 zero32) ∧
    readKeyperRpcUrl library signLockStart.rpcConfig = .ok ['n', 'o', 'd', 'e'] := by
  constructor <;> rfl

/-- The process makes the two calls of the first keyper in the sample network. -/
theorem signLock_answered : freshDirectory.told signLockStart =
    (.ok (signLockResponse lockedKeyper.1) : Except KeyperFailure Bytes) := by
  obtain ⟨hseed, hurl⟩ := signLockStart_files
  refine (told_hosting (t := noJournal) journalMachine_releases rfl signLockStart).trans ?_
  exact handleKeyperSignLock_play signLockStart_read hseed hurl fetch_packageOpen open_told
    lock_told

end Sample

/-- The process answers, and the journal in its directory holds the digest that the answer is
about. -/
theorem processes_agree_signed : ∃ stdout : Bytes,
    Sample.freshDirectory.told Sample.signLockStart = (.ok stdout : Except KeyperFailure Bytes) ∧
    ∃ epoch digest, Speaks Sample.codec Sample.library Sample.signLockStart stdout epoch digest ∧
      ∀ bytes records,
        (Sample.freshDirectory.solo Sample.signLockStart).world.files .journal = some bytes →
        decodeJournal Sample.host bytes = .ok records → records[epoch]? = some digest := by
  obtain ⟨stdout, hok⟩ : ∃ stdout : Bytes, Sample.freshDirectory.told Sample.signLockStart =
      (.ok stdout : Except KeyperFailure Bytes) := ⟨_, Sample.signLock_answered⟩
  have hsolo : ∀ (s : Sample.KeyperRun) (start : KeyperStart),
      Reaches Sample.freshDirectory (s.solo start) →
      s.told start = (.ok stdout : Except KeyperFailure Bytes) →
      ∃ epoch digest, Speaks Sample.codec Sample.library start stdout epoch digest ∧
        ∀ bytes records, (s.solo start).world.files .journal = some bytes →
          decodeJournal Sample.host bytes = .ok records → records[epoch]? = some digest := by
    intro s start hs htold
    have hreturned := State.solo_returned s start
    rw [htold] at hreturned
    exact (processes_agree (by simp) (by simp) hs).2 _ _ stdout hreturned
  exact ⟨stdout, hok, hsolo _ _ Sample.signLock_reaches hok⟩

end Kageb
