import Kageb.Host.Formats
import Kageb.Host.Reference

/-! What a coordinator sends to a keyper: released shares and settlement requests, read at a cursor
that moves over the buffer, and the frames that carry a request. -/

namespace Kageb

open Binary Checks Maps

/-! ### Released shares -/

namespace ReleasedShareV1

variable {host : Host} (codec : Bincode host)

def wireBytes (s : ReleasedShareV1 host) (encodedShare : Bytes) (shareLen : UInt32) : Bytes :=
  [1] ++ le64 (UInt64.ofNat s.index) ++ s.epochAccount.bytes ++ s.lockDigest.bytes ++
    s.ciphertextHash.bytes ++ le32 shareLen ++ encodedShare

def encodeWire (s : ReleasedShareV1 host) : Except CryptoError Bytes := do
  let encodedShare ← okOr (codec.serializeShare s.share) .invalidShare
  let shareLen ← okOr (count32 encodedShare.length) .invalidShare
  .ok (s.wireBytes encodedShare shareLen)

def decodeWire (bytes : Bytes) : Guarded CryptoError (ReleasedShareV1 host) := do
  let fixedPrefix := 109
  Guarded.check (rejectIf (bytes.length < fixedPrefix) .invalidShare)
  let version ← Guarded.byte bytes 0
  Guarded.check (rejectIf (version ≠ 1) .invalidShare)
  let shareLen ← Guarded.u32 bytes 105 .invalidShare
  Guarded.check (rejectIf (fixedPrefix + shareLen.toNat ≠ bytes.length) .invalidShare)
  let encoded ← Guarded.slice bytes fixedPrefix bytes.length
  let share ← Guarded.check (okOr (codec.deserializeShare encoded) .invalidShare)
  let index ← Guarded.u64 bytes 1 .invalidShare
  let epochAccount ← Guarded.array 32 bytes 9 .invalidShare
  let lockDigest ← Guarded.array 32 bytes 41 .invalidShare
  let ciphertextHash ← Guarded.array 32 bytes 73 .invalidShare
  pure { epochAccount, lockDigest, ciphertextHash, index := index.toNat, share }

variable {codec}

theorem decodeWire_ends (bytes : Bytes) : (decodeWire codec bytes).Ends := by
  refine Guarded.ends_reject fun hlength => ?_
  have hlong : 109 ≤ bytes.length := not_lt.mp hlength
  refine (Guarded.ends_byte (by omega)).bind fun _ _ => ?_
  refine (Guarded.ends_check _).bind fun _ _ => ?_
  refine (Guarded.ends_u32 (by omega) _).bind fun _ _ => ?_
  refine (Guarded.ends_check _).bind fun _ _ => ?_
  refine (Guarded.ends_slice hlong (le_refl _)).bind fun _ _ => ?_
  refine (Guarded.ends_check _).bind fun _ _ => ?_
  refine (Guarded.ends_u64 (by omega) _).bind fun _ _ => ?_
  iterate 3 refine (Guarded.ends_array (by omega) _).bind fun _ _ => ?_
  exact Guarded.ends_pure _

theorem encodeWire_eq_ok {s : ReleasedShareV1 host} {bytes : Bytes} :
    s.encodeWire codec = .ok bytes ↔ ∃ encodedShare shareLen,
      codec.serializeShare s.share = some encodedShare ∧ shareLen.toNat = encodedShare.length ∧
        bytes = s.wireBytes encodedShare shareLen := by
  simp only [encodeWire, bind_ok, okOr_eq_ok, count32_eq_some, Except.ok.injEq]
  constructor
  · rintro ⟨encodedShare, hshare, shareLen, hlength, rfl⟩
    exact ⟨encodedShare, shareLen, hshare, hlength, rfl⟩
  · rintro ⟨encodedShare, shareLen, hshare, hlength, rfl⟩
    exact ⟨encodedShare, hshare, shareLen, hlength, rfl⟩

theorem wireBytes_length (s : ReleasedShareV1 host) (encodedShare : Bytes) (shareLen : UInt32) :
    (s.wireBytes encodedShare shareLen).length = 109 + encodedShare.length := by
  simp only [wireBytes, List.length_append, List.length_singleton, le64_length, le32_length,
    ByteVec.length_bytes, Nat.reduceAdd]

/-- A byte string is read as a share exactly when it is what the share is written as; the index is a
word of 64 bits. -/
theorem decodeWire_eq_pure (canonical : codec.Canonical) {bytes : Bytes}
    {s : ReleasedShareV1 host} : decodeWire codec bytes = pure s ↔
      s.index < 2 ^ 64 ∧ s.encodeWire codec = .ok bytes := by
  rw [encodeWire_eq_ok]
  simp only [decodeWire, Guarded.bind_eq_pure, Guarded.check_eq_pure, rejectIf_eq_ok, okOr_eq_ok,
    Guarded.byte_eq_pure, Guarded.array_eq_pure, Guarded.slice_eq_pure, Guarded.u32_eq_pure,
    Guarded.u64_eq_pure, Guarded.pure_eq_pure, Unique.exists_iff, not_lt, not_not]
  constructor
  · rintro ⟨hlong, _, hversion, rfl, shareLen, hshareLen, hlength, encodedShare,
      ⟨hencoded, hend⟩, share, hshare, index, hindex, epochAccount, hepoch, lockDigest, hdigest,
      ciphertextHash, hhash, rfl⟩
    refine ⟨index.toNat_lt, encodedShare, shareLen, canonical.share_read _ _ hshare, by omega, ?_⟩
    rw [eq_iff_partAt, wireBytes_length]
    simp only [wireBytes, List.append_assoc, partAt_append, List.length_singleton, le64_length,
      le32_length, ByteVec.length_bytes, UInt64.ofNat_toNat, Nat.zero_add, Nat.reduceAdd]
    exact ⟨hend.symm, hversion, hindex, hepoch, hdigest, hhash, hshareLen, hencoded⟩
  · rintro ⟨hindexLt, encodedShare, shareLen, hserialize, hshareLength, hbytes⟩
    rw [eq_iff_partAt, wireBytes_length] at hbytes
    obtain ⟨hlength, hparts⟩ := hbytes
    simp only [wireBytes, List.append_assoc, partAt_append, List.length_singleton, le64_length,
      le32_length, ByteVec.length_bytes, Nat.zero_add, Nat.reduceAdd] at hparts
    obtain ⟨hversion, hindex, hepoch, hdigest, hhash, hshareLen, hencoded⟩ := hparts
    obtain ⟨encodedShare', hserialize', -, hread⟩ := canonical.share s.share
    cases hserialize.symm.trans hserialize'
    refine ⟨by omega, _, hversion, rfl, _, hshareLen, by omega, _, ⟨hencoded, by omega⟩, _, hread, _,
      hindex, _, hepoch, _, hdigest, _, hhash, ?_⟩
    rw [UInt64.toNat_ofNat_of_lt' hindexLt]

end ReleasedShareV1

/-! ### Reading at a cursor -/

def takeU32 (bytes : Bytes) (offset : Nat) : Guarded SettlementValidationError (UInt32 × Nat) := do
  let (word, offset) ← Guarded.take 4 bytes offset .invalidBatch
  pure (Guarded.word32 word, offset)

theorem takeU32_eq_pure {bytes : Bytes} {offset offset' : Nat} {x : UInt32} :
    takeU32 bytes offset = pure (x, offset') ↔
      offset' = offset + 4 ∧ PartAt bytes offset (le32 x) := by
  simp only [takeU32, Guarded.bind_eq_pure, Prod.exists, Guarded.take_eq_pure (by decide : 0 < 4),
    Guarded.pure_eq_pure, Prod.mk.injEq]
  constructor
  · rintro ⟨word, _, ⟨rfl, hword⟩, rfl, rfl⟩
    exact ⟨rfl, by rwa [le32_word32]⟩
  · rintro ⟨rfl, hword⟩
    refine ⟨⟨le32 x, le32_length x⟩, _, ⟨rfl, hword⟩, ?_, rfl⟩
    rw [Guarded.word32, leValue_le32, UInt32.ofNat_toNat]

theorem takeU32_ends (bytes : Bytes) (offset : Nat) : (takeU32 bytes offset).Ends :=
  (Guarded.ends_check _).bind fun _ _ => Guarded.ends_pure _

/-- `MAX_RELEASED_SHARE_WIRE_LEN`. -/
def maxReleasedShareWireLen : Nat := 512

section Evidence

variable {host : Host} (codec : Bincode host)

/-- A share of a member as a request carries it, behind its length. -/
def encodeShare (share : ReleasedShareV1 host) : Except SettlementValidationError Bytes := do
  let encoded ← (share.encodeWire codec).mapError fun _ => .invalidBatch
  rejectIf (encoded.length > maxReleasedShareWireLen) .invalidBatch
  let encodedLen ← okOr (count32 encoded.length) .invalidBatch
  .ok (le32 encodedLen ++ encoded)

def encodeEvidence (evidence : DecryptionEvidenceV1 host) :
    Except SettlementValidationError Bytes := do
  let first ← encodeShare codec evidence.first
  let second ← encodeShare codec evidence.second
  .ok (first ++ second)

def takeShare (bytes : Bytes) (offset : Nat) :
    Guarded SettlementValidationError (ReleasedShareV1 host × Nat) := do
  let (shareLen, offset) ← takeU32 bytes offset
  Guarded.check (rejectIf (shareLen.toNat > maxReleasedShareWireLen) .invalidBatch)
  let stop := offset + shareLen.toNat
  let encoded ← Guarded.get bytes offset stop .invalidBatch
  let share ← (ReleasedShareV1.decodeWire codec encoded).mapError fun _ => .invalidBatch
  pure (share, stop)

/-- The two shares of a member. -/
def takeEvidence (bytes : Bytes) (offset : Nat) :
    Guarded SettlementValidationError (DecryptionEvidenceV1 host × Nat) := do
  let (first, offset) ← takeShare codec bytes offset
  let (second, offset) ← takeShare codec bytes offset
  let evidence ← Guarded.check (DecryptionEvidenceV1.new first second)
  pure (evidence, offset)

def takeBalance (bytes : Bytes) (offset : Nat) :
    Guarded SettlementValidationError (SettlementBalanceV1 × Nat) := do
  let (encoded, offset) ← Guarded.take 48 bytes offset .invalidBatch
  let participantId ← Guarded.array 32 encoded.bytes 0 .invalidBalance
  let baseAtoms ← Guarded.u64 encoded.bytes 32 .invalidBalance
  let quoteAtoms ← Guarded.u64 encoded.bytes 40 .invalidBalance
  pure ({ participantId, baseAtoms, quoteAtoms }, offset)

variable {codec}

theorem DecryptionEvidenceV1.new_eq_ok {first second : ReleasedShareV1 host}
    {evidence : DecryptionEvidenceV1 host} : new first second = .ok evidence ↔
      evidence.first = first ∧ evidence.second = second := by
  unfold new
  constructor
  · intro h
    split at h
    · cases h
    · cases h
      exact ⟨rfl, rfl⟩
  · rintro ⟨rfl, rfl⟩
    rw [dif_neg evidence.index_ne]

theorem takeShare_ends (bytes : Bytes) (offset : Nat) : (takeShare codec bytes offset).Ends := by
  refine (takeU32_ends _ _).bind fun _ _ => ?_
  refine (Guarded.ends_check _).bind fun _ _ => ?_
  refine (Guarded.ends_get _ _ _ _).bind fun _ _ => ?_
  exact ((ReleasedShareV1.decodeWire_ends _).mapError _).bind fun _ _ => Guarded.ends_pure _

theorem takeEvidence_ends (bytes : Bytes) (offset : Nat) :
    (takeEvidence codec bytes offset).Ends := by
  refine (takeShare_ends _ _).bind fun _ _ => ?_
  refine (takeShare_ends _ _).bind fun _ _ => ?_
  exact (Guarded.ends_check _).bind fun _ _ => Guarded.ends_pure _

theorem takeBalance_ends (bytes : Bytes) (offset : Nat) : (takeBalance bytes offset).Ends := by
  refine (Guarded.ends_check _).bind fun taken _ => ?_
  have hlength := taken.1.length_bytes
  refine (Guarded.ends_array (by omega) _).bind fun _ _ => ?_
  iterate 2 refine (Guarded.ends_u64 (by omega) _).bind fun _ _ => ?_
  exact Guarded.ends_pure _

theorem takeShare_eq_pure (canonical : codec.Canonical) {bytes : Bytes} {offset offset' : Nat}
    {share : ReleasedShareV1 host} : takeShare codec bytes offset = pure (share, offset') ↔
      share.index < 2 ^ 64 ∧ ∃ encoded, encodeShare codec share = .ok encoded ∧
        PartAt bytes offset encoded ∧ offset' = offset + encoded.length := by
  simp only [takeShare, encodeShare, Guarded.bind_eq_pure, Prod.exists, takeU32_eq_pure,
    Guarded.check_eq_pure, rejectIf_eq_ok, Guarded.get_eq_pure, Guarded.mapError_eq_pure,
    ReleasedShareV1.decodeWire_eq_pure canonical, Guarded.pure_eq_pure, Prod.mk.injEq, bind_ok,
    mapError_eq_ok, okOr_eq_ok, count32_eq_some, Unique.exists_iff, Except.ok.injEq, not_lt,
    gt_iff_lt]
  constructor
  · rintro ⟨shareLen, _, ⟨rfl, hlen⟩, hmax, encoded, ⟨hencoded, hend⟩, _, ⟨hindex, hshare⟩, rfl,
      rfl⟩
    have hlength : encoded.length = shareLen.toNat := by omega
    refine ⟨hindex, _, ⟨encoded, hshare, by omega, shareLen, hlength.symm, rfl⟩, ?_, ?_⟩
    · rw [partAt_append, le32_length]
      exact ⟨hlen, hencoded⟩
    · rw [List.length_append, le32_length, hlength]
      omega
  · rintro ⟨hindex, _, ⟨encoded, hshare, hmax, shareLen, hlength, rfl⟩, hpart, rfl⟩
    rw [partAt_append, le32_length] at hpart
    refine ⟨shareLen, _, ⟨rfl, hpart.1⟩, by omega, encoded, ⟨hpart.2, by omega⟩, share,
      ⟨hindex, hshare⟩, rfl, ?_⟩
    rw [List.length_append, le32_length, hlength]
    omega

theorem takeEvidence_eq_pure (canonical : codec.Canonical) {bytes : Bytes} (offset offset' : Nat)
    (evidence : DecryptionEvidenceV1 host) :
    takeEvidence codec bytes offset = pure (evidence, offset') ↔
      ∃ part, ((evidence.first.index < 2 ^ 64 ∧ evidence.second.index < 2 ^ 64) ∧
        encodeEvidence codec evidence = .ok part) ∧
        PartAt bytes offset part ∧ offset' = offset + part.length := by
  simp only [takeEvidence, encodeEvidence, Guarded.bind_eq_pure, Prod.exists,
    takeShare_eq_pure canonical, Guarded.check_eq_pure, DecryptionEvidenceV1.new_eq_ok,
    Guarded.pure_eq_pure, Prod.mk.injEq, bind_ok, Except.ok.injEq]
  constructor
  · rintro ⟨_, _, ⟨hindex, first, hfirst, hpart, rfl⟩, _, _, ⟨hindex', second, hsecond, hpart', rfl⟩,
      _, ⟨rfl, rfl⟩, rfl, rfl⟩
    refine ⟨_, ⟨⟨hindex, hindex'⟩, first, hfirst, second, hsecond, rfl⟩, ?_, ?_⟩
    · rw [partAt_append]
      exact ⟨hpart, hpart'⟩
    · rw [List.length_append, Nat.add_assoc]
  · rintro ⟨_, ⟨⟨hindex, hindex'⟩, first, hfirst, second, hsecond, rfl⟩, hpart, rfl⟩
    rw [partAt_append] at hpart
    refine ⟨_, _, ⟨hindex, first, hfirst, hpart.1, rfl⟩, _, _, ⟨hindex', second, hsecond, hpart.2,
      rfl⟩, evidence, ⟨rfl, rfl⟩, rfl, ?_⟩
    rw [List.length_append, Nat.add_assoc]

theorem encodeSettlementBalance_length (b : SettlementBalanceV1) :
    (encodeSettlementBalance b).length = 48 := by
  simp [encodeSettlementBalance]

theorem takeBalance_eq_pure {bytes : Bytes} (offset offset' : Nat) (b : SettlementBalanceV1) :
    takeBalance bytes offset = pure (b, offset') ↔
      ∃ part, part = encodeSettlementBalance b ∧ PartAt bytes offset part ∧
        offset' = offset + part.length := by
  have hread : ∀ encoded : ByteVec 48, encoded.bytes = encodeSettlementBalance b ↔
      PartAt encoded.bytes 0 b.participantId.bytes ∧ PartAt encoded.bytes 32 (le64 b.baseAtoms) ∧
        PartAt encoded.bytes 40 (le64 b.quoteAtoms) := by
    intro encoded
    rw [eq_iff_partAt, encodeSettlementBalance_length]
    simp only [encodeSettlementBalance, List.append_assoc, partAt_append, ByteVec.length_bytes,
      le64_length, Nat.zero_add, Nat.reduceAdd, true_and]
  simp only [takeBalance, Guarded.bind_eq_pure, Prod.exists,
    Guarded.take_eq_pure (by decide : 0 < 48), Guarded.array_eq_pure, Guarded.u64_eq_pure,
    Guarded.pure_eq_pure, Prod.mk.injEq, exists_eq_left, encodeSettlementBalance_length]
  constructor
  · rintro ⟨encoded, _, ⟨rfl, hpart⟩, _, hparticipant, _, hbase, _, hquote, rfl, rfl⟩
    rw [← (hread encoded).mpr ⟨hparticipant, hbase, hquote⟩]
    exact ⟨hpart, rfl⟩
  · rintro ⟨hpart, rfl⟩
    obtain ⟨hparticipant, hbase, hquote⟩ :=
      (hread ⟨_, encodeSettlementBalance_length b⟩).mp rfl
    exact ⟨⟨_, encodeSettlementBalance_length b⟩, _, ⟨rfl, hpart⟩, _, hparticipant, _, hbase, _,
      hquote, rfl, rfl⟩

end Evidence

/-! ### Settlement requests -/

/-- The residual of a side and a number of lots. -/
def residualOf (side : UInt8) (lots : UInt32) : Except SettlementValidationError Residual :=
  if side = 0 ∧ lots = 0 then .ok .none
  else if side = 1 ∧ lots ≠ 0 then .ok (.buy lots)
  else if side = 2 ∧ lots ≠ 0 then .ok (.sell lots)
  else .error .invalidResult

/-- A residual on a side has lots. -/
def Residual.Proper : Residual → Prop
  | none => True
  | buy lots | sell lots => lots ≠ 0

theorem residualOf_eq_ok {side : UInt8} {lots : UInt32} {r : Residual} :
    residualOf side lots = .ok r ↔ r.Proper ∧ residualWire r = (side, lots) := by
  unfold residualOf
  constructor
  · intro h
    split_ifs at h with h0 h1 h2
    · cases h
      exact ⟨trivial, by rw [h0.1, h0.2]; rfl⟩
    · cases h
      exact ⟨h1.2, by rw [h1.1]; rfl⟩
    · cases h
      exact ⟨h2.2, by rw [h2.1]; rfl⟩
  · rintro ⟨hproper, hwire⟩
    cases r with
    | none =>
      cases hwire
      rfl
    | buy lots =>
      cases hwire
      rw [if_neg fun h => absurd h.1 (by decide), if_pos ⟨rfl, hproper⟩]
    | sell lots =>
      cases hwire
      rw [if_neg fun h => absurd h.1 (by decide), if_neg fun h => absurd h.1 (by decide),
        if_pos ⟨rfl, hproper⟩]

namespace SettlementRequestV1

variable {host : Host} (codec : Bincode host)

structure WellFormed (request : SettlementRequestV1 host) : Prop where
  package : request.package.WellFormed codec
  evidence : request.decryptionEvidence.length = request.package.submissions.length
  members : request.decryptionEvidence.length = request.package.memberCount.toNat
  indices : ∀ e ∈ request.decryptionEvidence,
    e.first.index < 2 ^ 64 ∧ e.second.index < 2 ^ 64
  balances : request.postBalances.length = request.package.balances.length
  residual : request.residual.Proper

def wireBytes (request : SettlementRequestV1 host) (package : Bytes) (packageLen : UInt32)
    (evidence : List Bytes) (evidenceCount balanceCount : UInt32) : Bytes :=
  let (side, lots) := residualWire request.residual
  [1] ++ le32 packageLen ++ package ++ le32 evidenceCount ++ evidence.flatten ++
    le32 balanceCount ++ request.postBalances.flatMap encodeSettlementBalance ++
    request.preBalanceRoot.bytes ++ request.postBalanceRoot.bytes ++ [side] ++ le32 lots ++
    request.resultRoot.bytes ++ request.resultCommitment.bytes ++ request.settlementNonce.bytes ++
    request.settlementDigest.bytes

def encodeWire (request : SettlementRequestV1 host) : Except SettlementValidationError Bytes := do
  let package ← request.package.encodeWire.mapError fun _ => .invalidBatch
  let packageLen ← okOr (count32 package.length) .invalidBatch
  let evidenceCount ← okOr (count32 request.decryptionEvidence.length) .invalidBatch
  let evidence ← request.decryptionEvidence.mapM (encodeEvidence codec)
  let balanceCount ← okOr (count32 request.postBalances.length) .invalidBalance
  .ok (request.wireBytes package packageLen evidence evidenceCount balanceCount)

def decodeWire (bytes : Bytes) : Guarded SettlementValidationError (SettlementRequestV1 host) := do
  Guarded.check (rejectIf (bytes.length < 1 + 4) .invalidBatch)
  let version ← Guarded.byte bytes 0
  Guarded.check (rejectIf (version ≠ 1) .invalidBatch)
  let (packageLen, offset) ← takeU32 bytes 1
  let packageEnd := offset + packageLen.toNat
  let encoded ← Guarded.get bytes offset packageEnd .invalidBatch
  let package ← (LockPackageV1.decodeWire codec encoded).mapError fun _ => .invalidBatch
  let (evidenceCount, offset) ← takeU32 bytes packageEnd
  Guarded.check (rejectIf (evidenceCount.toNat > maxBatchMembers ∨
    evidenceCount.toNat ≠ package.submissions.length ∨
    evidenceCount.toNat ≠ package.memberCount.toNat) .memberLimitExceeded)
  let (decryptionEvidence, offset) ← Guarded.takeMany (takeEvidence codec bytes)
    evidenceCount.toNat offset
  let (balanceCount, offset) ← takeU32 bytes offset
  Guarded.check (rejectIf (balanceCount.toNat > maxBatchMembers ∨
    balanceCount.toNat ≠ package.balances.length) .memberLimitExceeded)
  let (postBalances, offset) ← Guarded.takeMany (takeBalance bytes) balanceCount.toNat offset
  let (preBalanceRoot, offset) ← Guarded.take 32 bytes offset .invalidBatch
  let (postBalanceRoot, offset) ← Guarded.take 32 bytes offset .invalidBatch
  let side ← Guarded.check (okOr bytes[offset]? .invalidResult)
  let (lots, offset) ← takeU32 bytes (offset + 1)
  let residual ← Guarded.check (residualOf side lots)
  let (resultRoot, offset) ← Guarded.take 32 bytes offset .invalidBatch
  let (resultCommitment, offset) ← Guarded.take 32 bytes offset .invalidBatch
  let (settlementNonce, offset) ← Guarded.take 32 bytes offset .invalidBatch
  let (settlementDigest, offset) ← Guarded.take 32 bytes offset .invalidBatch
  Guarded.check (rejectIf (offset ≠ bytes.length) .invalidBatch)
  pure { package, decryptionEvidence, postBalances, preBalanceRoot, postBalanceRoot, residual,
         resultRoot, resultCommitment, settlementNonce, settlementDigest }

variable {codec}

theorem decodeWire_ends (bytes : Bytes) : (decodeWire codec bytes).Ends := by
  refine Guarded.ends_reject fun hlength => ?_
  refine (Guarded.ends_byte (by omega)).bind fun _ _ => ?_
  refine (Guarded.ends_check _).bind fun _ _ => ?_
  refine (takeU32_ends _ _).bind fun _ _ => ?_
  refine (Guarded.ends_get _ _ _ _).bind fun _ _ => ?_
  refine ((LockPackageV1.decodeWire_ends _).mapError _).bind fun _ _ => ?_
  refine (takeU32_ends _ _).bind fun _ _ => ?_
  refine (Guarded.ends_check _).bind fun _ _ => ?_
  refine (Guarded.ends_takeMany (takeEvidence_ends bytes) _ _).bind fun _ _ => ?_
  refine (takeU32_ends _ _).bind fun _ _ => ?_
  refine (Guarded.ends_check _).bind fun _ _ => ?_
  refine (Guarded.ends_takeMany (takeBalance_ends bytes) _ _).bind fun _ _ => ?_
  iterate 3 refine (Guarded.ends_check _).bind fun _ _ => ?_
  refine (takeU32_ends _ _).bind fun _ _ => ?_
  iterate 6 refine (Guarded.ends_check _).bind fun _ _ => ?_
  exact Guarded.ends_pure _

theorem encodeWire_eq_ok {request : SettlementRequestV1 host} {bytes : Bytes} :
    request.encodeWire codec = .ok bytes ↔ ∃ package packageLen evidence evidenceCount balanceCount,
      request.package.encodeWire = .ok package ∧ packageLen.toNat = package.length ∧
      List.Forall₂ (fun e part => encodeEvidence codec e = .ok part) request.decryptionEvidence
        evidence ∧
      evidenceCount.toNat = request.decryptionEvidence.length ∧
      balanceCount.toNat = request.postBalances.length ∧
      bytes = request.wireBytes package packageLen evidence evidenceCount balanceCount := by
  simp only [encodeWire, bind_ok, mapError_eq_ok, okOr_eq_ok, count32_eq_some, mapM_ok,
    Except.ok.injEq]
  constructor
  · rintro ⟨package, hpackage, packageLen, hlength, evidenceCount, hevidenceCount, evidence,
      hevidence, balanceCount, hbalanceCount, rfl⟩
    exact ⟨package, packageLen, evidence, evidenceCount, balanceCount, hpackage, hlength, hevidence,
      hevidenceCount, hbalanceCount, rfl⟩
  · rintro ⟨package, packageLen, evidence, evidenceCount, balanceCount, hpackage, hlength,
      hevidence, hevidenceCount, hbalanceCount, rfl⟩
    exact ⟨package, hpackage, packageLen, hlength, evidenceCount, hevidenceCount, evidence,
      hevidence, balanceCount, hbalanceCount, rfl⟩

theorem decodeWire_eq_pure (canonical : codec.Canonical) {bytes : Bytes}
    {request : SettlementRequestV1 host} : decodeWire codec bytes = pure request ↔
      request.WellFormed codec ∧ request.encodeWire codec = .ok bytes := by
  simp only [decodeWire, Guarded.bind_eq_pure, Prod.exists, Guarded.check_eq_pure, rejectIf_eq_ok,
    okOr_eq_ok, Guarded.byte_eq_pure, Guarded.get_eq_pure, takeU32_eq_pure,
    Guarded.mapError_eq_pure, LockPackageV1.decodeWire_eq_pure canonical,
    Guarded.take_eq_pure (by decide : 0 < 32), residualOf_eq_ok, ← partAt_singleton,
    Guarded.pure_eq_pure, Unique.exists_iff, not_or, not_lt, not_not, gt_iff_lt, and_assoc,
    exists_eq_left]
  rw [encodeWire_eq_ok]
  constructor
  · rintro ⟨-, _, hversion, rfl, packageLen, hpackageLen, encoded, hencoded, hend, package, hwell,
      hpackage, evidenceCount, hevidenceCount, -, hmembers, hmemberCount, evidence, offset,
      hevidence, balanceCount, hbalanceCount, -, hbalances, postBalances, offset', hpost,
      preBalanceRoot, hpre, postBalanceRoot, hpostRoot, side, hside, lots, hlots, residual, hproper,
      hwire, resultRoot, hresult, commitment, hcommitment, nonce, hnonce, digest, hdigest, hlength,
      rfl⟩
    have hpackageLength : packageLen.toNat = encoded.length := by omega
    have hstart := hevidenceCount.stop_le
    rw [le32_length] at hstart
    obtain ⟨hcount, parts, hforall, hparts, rfl⟩ :=
      (Guarded.takeMany_eq_pure (takeEvidence_eq_pure canonical) hstart).mp hevidence
    have hstart' := hbalanceCount.stop_le
    rw [le32_length] at hstart'
    obtain ⟨hcount', hpostParts, rfl⟩ :=
      (Guarded.takeMany_encoded_eq_pure takeBalance_eq_pure hstart').mp hpost
    obtain ⟨hindices, hevidenceParts⟩ := (List.forall₂_and_left _ _).mp hforall
    refine ⟨⟨hwell, hcount.trans hmembers, hcount.trans hmemberCount, hindices,
      hcount'.trans hbalances, hproper⟩, encoded, packageLen, parts, evidenceCount, balanceCount,
      hpackage, hpackageLength, hevidenceParts, hcount.symm, hcount'.symm, ?_⟩
    rw [hpackageLength] at hevidenceCount hparts hbalanceCount hpostParts hpre hpostRoot hside
    rw [hpackageLength] at hlots hresult hcommitment hnonce hdigest hlength
    rw [eq_iff_partAt]
    simp only [wireBytes, hwire, List.append_assoc, partAt_append, List.length_append,
      List.length_singleton, le32_length, ByteVec.length_bytes, Nat.zero_add, Nat.reduceAdd]
    refine ⟨by omega, hversion, hpackageLen, hencoded, hevidenceCount, hparts, hbalanceCount,
      hpostParts, hpre, hpostRoot, hside, hlots, hresult, hcommitment, hnonce, hdigest⟩
  · rintro ⟨hwell, encoded, packageLen, parts, evidenceCount, balanceCount, hpackage,
      hpackageLength, hevidenceParts, hcount, hcount', hbytes⟩
    rw [eq_iff_partAt] at hbytes
    obtain ⟨hlength, hparts⟩ := hbytes
    simp only [wireBytes, List.append_assoc, partAt_append, List.length_append,
      List.length_singleton, le32_length, ByteVec.length_bytes, Nat.zero_add, Nat.reduceAdd,
      ← hpackageLength] at hlength hparts
    obtain ⟨hversion, hpackageLen, hencoded, hevidenceCount, hparts, hbalanceCount, hpostParts, hpre,
      hpostRoot, hside, hlots, hresult, hcommitment, hnonce, hdigest⟩ := hparts
    have hstart := hevidenceCount.stop_le
    rw [le32_length] at hstart
    have hstart' := hbalanceCount.stop_le
    rw [le32_length] at hstart'
    have hevidence := (Guarded.takeMany_eq_pure (takeEvidence_eq_pure canonical) hstart).mpr
      ⟨hcount.symm, parts, (List.forall₂_and_left _ _).mpr ⟨hwell.indices, hevidenceParts⟩, hparts, rfl⟩
    have hpost := (Guarded.takeMany_encoded_eq_pure takeBalance_eq_pure hstart').mpr
      ⟨hcount'.symm, hpostParts, rfl⟩
    obtain ⟨-, -, -, -, hsubmissionsMax, hbalancesMax, -⟩ :=
      LockPackageV1.encodeWire_eq_ok.mp hpackage
    have hmembers := hwell.evidence
    have hbalances := hwell.balances
    refine ⟨by omega, _, hversion, rfl, packageLen, hpackageLen, encoded, hencoded, by omega,
      request.package, hwell.package, hpackage, evidenceCount, hevidenceCount, by omega, by omega,
      hcount.trans hwell.members, _, _, hevidence, balanceCount, hbalanceCount, by omega, by omega,
      _, _, hpost, _, hpre, _, hpostRoot, _, hside, _, hlots, _, hwell.residual, rfl, _, hresult, _,
      hcommitment, _, hnonce, _, hdigest, ?_, rfl⟩
    omega

end SettlementRequestV1

/-! ### Requests that are built -/

/-- A submission that is admitted can be written and read. -/
theorem EncryptedSubmissionV1.wellFormed_of_admitted {host : Host} {s : EncryptedSubmissionV1}
    {policy : AdmissionPolicyV1} (h : s.verifyAdmission host policy = .ok ()) :
    s.WellFormed host := by
  simp only [verifyAdmission, FundedAuthorizationV1.verify, decodeCiphertext, bind_ok,
    Unique.exists_iff, rejectIf_eq_ok, not_or, not_not, Bool.not_eq_false] at h
  obtain ⟨⟨⟨hversion, -⟩, -, hoperator, -⟩, -, -, ⟨hlength, -⟩, htrading, -⟩ := h
  exact ⟨⟨hversion, hoperator, htrading⟩, hlength⟩

theorem Netting.residual_proper (n : Netting) : n.residual.1.Proper := by
  unfold Netting.residual
  split_ifs with hbuys hsells
  · exact word_sub_ne_zero hbuys
  · exact word_sub_ne_zero hsells
  · exact trivial

theorem Netted.postBalances_length {config : BatchConfig} {before : Map ParticipantId PoolBalance}
    {orders : List FundedOrder} {r : BatchResult} (h : Netted config before orders r) :
    r.postBalances.length = before.size := by
  rw [BatchResult.postBalances, List.length_map, Std.ExtTreeMap.length_toList]
  exact Map.size_eq_of_mem_iff h.mem_balances

/-- A request that was built, and the limits it was built within. -/
theorem SettlementRequestV1.wellFormed_of_build {host : Host} {codec : Bincode host}
    {package : LockPackageV1 host} {evidence : List (DecryptionEvidenceV1 host)} {nonce : Bytes32}
    {confirmed : ConfirmedLock} {request : SettlementRequestV1 host}
    (hkeys : codec.threshold package.epochPublicKeys.keys = 1)
    (hindices : ∀ e ∈ evidence, e.first.index < 2 ^ 64 ∧ e.second.index < 2 ^ 64)
    (h : build package evidence nonce confirmed = .ok request) :
    request.WellFormed codec ∧ request.package.submissions.length ≤ maxBatchMembers ∧
      request.package.balances.length ≤ maxBatchMembers := by
  simp only [build, bind_ok] at h
  obtain ⟨r, hr, hok⟩ := h
  cases hok
  obtain ⟨pool, recovered, result, hrecomputed⟩ := recompute_ok hr
  obtain ⟨policy, timestamp, hvalid⟩ := hrecomputed.locked.valid
  obtain ⟨config, -, hnetted⟩ := hrecomputed.netted
  obtain ⟨n, -, -, hresidual, -⟩ := hnetted.filled
  simp only [recompute, LockPackageV1.validateLocked, bind_ok, Unique.exists_iff, mapError_eq_ok,
    rejectIf_eq_ok, not_or, not_not] at hr
  obtain ⟨_, ⟨_, -, -, _, -, _, hvalidate, -⟩, -, ⟨hlength, -⟩, -⟩ := hr
  have hsize : package.before.size = package.balances.length := by
    rw [LockPackageV1.before, ← List.length_map (f := fun b : BalanceRecordV1 =>
      (b.participantId, b.poolBalance)), Map.size_ofList_eq_length, List.map_map]
    exact hrecomputed.participants
  refine ⟨⟨⟨hkeys, ?_⟩, hlength, ?_, hindices, ?_, ?_⟩, LockPackageV1.limits_of_validate hvalidate⟩
  · exact fun s hs => EncryptedSubmissionV1.wellFormed_of_admitted (hvalid.admitted s hs)
  · exact hlength.trans hvalid.memberCount.symm
  · show r.postBalances.length = package.balances.length
    rw [hrecomputed.postBalances, hnetted.postBalances_length, hsize]
  · show r.residual.Proper
    rw [hrecomputed.residual, hresidual]
    exact n.residual_proper

/-! ### Lengths -/

section Lengths

variable {host : Host} {codec : Bincode host}

theorem LockPackageV1.encodeWire_of_wellFormed (canonical : codec.Canonical)
    {package : LockPackageV1 host} (h : package.WellFormed codec)
    (hsubmissions : package.submissions.length ≤ maxBatchMembers)
    (hbalances : package.balances.length ≤ maxBatchMembers) :
    ∃ bytes, package.encodeWire = .ok bytes ∧ bytes.length ≤ 49788 := by
  obtain ⟨publicKeys, hserialize, hkeysMax, -⟩ := canonical.keys _ h.keys
  obtain ⟨keysLen, hkeysLen⟩ := exists_word (hkeysMax.trans_lt (by decide))
  obtain ⟨submissionCount, hsubmissionCount⟩ := exists_word (hsubmissions.trans_lt (by decide))
  obtain ⟨balanceCount, hbalanceCount⟩ := exists_word (hbalances.trans_lt (by decide))
  refine ⟨_, encodeWire_eq_ok.mpr ⟨publicKeys, keysLen, submissionCount, balanceCount, hsubmissions,
    hbalances, hserialize, hkeysMax, hkeysLen, hsubmissionCount, hbalanceCount, rfl⟩, ?_⟩
  rw [wireBytes_length h]
  have hwidth : package.submissions.length * encryptedSubmissionV1Len ≤ 44096 :=
    (Nat.mul_le_mul_right _ hsubmissions).trans_eq rfl
  unfold maxEpochPublicKeysLen at hkeysMax
  unfold maxBatchMembers at hbalances
  omega

theorem encodeShare_fits (canonical : codec.Canonical) (share : ReleasedShareV1 host) :
    ∃ part, encodeShare codec share = .ok part ∧ part.length ≤ 516 := by
  obtain ⟨encoded, hserialize, hmax, -⟩ := canonical.share share.share
  obtain ⟨shareLen, hshareLen⟩ := exists_word (hmax.trans_lt (by decide))
  have hwire : share.encodeWire codec = .ok (share.wireBytes encoded shareLen) :=
    ReleasedShareV1.encodeWire_eq_ok.mpr ⟨encoded, shareLen, hserialize, hshareLen, rfl⟩
  have hlength := share.wireBytes_length encoded shareLen
  have hfits : (share.wireBytes encoded shareLen).length ≤ maxReleasedShareWireLen := by
    rw [hlength]
    unfold maxReleasedShareWireLen
    omega
  obtain ⟨encodedLen, hencodedLen⟩ := exists_word (hfits.trans_lt (by decide))
  refine ⟨le32 encodedLen ++ share.wireBytes encoded shareLen, ?_, ?_⟩
  · rw [encodeShare]
    refine (bind_of_ok (mapError_eq_ok.mpr hwire) _).trans ?_
    refine (rejectIf_bind_of_not (not_lt.mpr hfits)).trans ?_
    exact bind_of_ok (okOr_eq_ok.mpr (count32_eq_some.mpr hencodedLen)) _
  · rw [List.length_append, le32_length, hlength]
    omega

theorem encodeEvidence_all (canonical : codec.Canonical)
    (evidence : List (DecryptionEvidenceV1 host)) :
    ∃ parts, List.Forall₂ (fun e part => encodeEvidence codec e = .ok part) evidence parts ∧
      parts.flatten.length ≤ evidence.length * 1032 := by
  induction evidence with
  | nil => exact ⟨[], .nil, by simp⟩
  | cons e evidence ih =>
    obtain ⟨parts, hparts, hlength⟩ := ih
    obtain ⟨first, hfirst, hfirstLength⟩ := encodeShare_fits canonical e.first
    obtain ⟨second, hsecond, hsecondLength⟩ := encodeShare_fits canonical e.second
    have hevidence : encodeEvidence codec e = .ok (first ++ second) :=
      (bind_of_ok hfirst _).trans (bind_of_ok hsecond _)
    refine ⟨(first ++ second) :: parts, .cons hevidence hparts, ?_⟩
    rw [List.flatten_cons, List.length_append, List.length_append, List.length_cons]
    omega

theorem SettlementRequestV1.encodeWire_of_wellFormed (canonical : codec.Canonical)
    {request : SettlementRequestV1 host} (h : request.WellFormed codec)
    (hsubmissions : request.package.submissions.length ≤ maxBatchMembers)
    (hbalances : request.package.balances.length ≤ maxBatchMembers) :
    ∃ bytes, request.encodeWire codec = .ok bytes ∧ bytes.length ≤ 119118 := by
  obtain ⟨package, hpackage, hpackageMax⟩ :=
    LockPackageV1.encodeWire_of_wellFormed canonical h.package hsubmissions hbalances
  obtain ⟨parts, hparts, hpartsMax⟩ := encodeEvidence_all canonical request.decryptionEvidence
  have hevidence := h.evidence
  have hpost := h.balances
  have hpostLength := Tables.length_flatMap fun b (_ : b ∈ request.postBalances) =>
    encodeSettlementBalance_length b
  unfold maxBatchMembers at hsubmissions hbalances
  obtain ⟨packageLen, hpackageLen⟩ := exists_word (hpackageMax.trans_lt (by decide))
  obtain ⟨evidenceCount, hevidenceCount⟩ :=
    exists_word ((hevidence.trans_le hsubmissions).trans_lt (by decide))
  obtain ⟨balanceCount, hbalanceCount⟩ :=
    exists_word ((hpost.trans_le hbalances).trans_lt (by decide))
  refine ⟨_, encodeWire_eq_ok.mpr ⟨package, packageLen, parts, evidenceCount, balanceCount, hpackage,
    hpackageLen, hparts, hevidenceCount, hbalanceCount, rfl⟩, ?_⟩
  simp only [wireBytes, List.length_append, List.length_singleton, le32_length,
    ByteVec.length_bytes, hpostLength]
  omega

end Lengths

/-! ### Frames -/

inductive KeyperProcessError where
  | input
  deriving DecidableEq

def boundShareLen : Nat := 73

def maxSignLockRequestLen : Nat := 64 * 1024

def maxReleaseRequestLen : Nat := 64 * 1024

def maxSettlementRequestLen : Nat := 128 * 1024

def maxSettlementFrameLen : Nat := boundShareLen + maxSettlementRequestLen

section Frames

variable {host : Host} (codec : Bincode host)

def appendBoundShare (share : KeyperSecretShare host) : Except KeyperProcessError Bytes := do
  let secretBytes ← okOr (codec.serializeSecret share.secret) .input
  let encoded := [1] ++ share.epochAccount.bytes ++ le64 (UInt64.ofNat share.index) ++ secretBytes
  rejectIf (encoded.length ≠ boundShareLen) .input
  .ok encoded

/-- What `run_keyper_sign_lock` sends. -/
def signLockRequest (share : KeyperSecretShare host) (package : LockPackageV1 host) :
    Except KeyperProcessError Bytes := do
  let package ← package.encodeWire.mapError fun _ => .input
  let packageLen ← okOr (count32 package.length) .input
  let secret ← appendBoundShare codec share
  let encoded := secret ++ le32 packageLen ++ package
  rejectIf (encoded.length > maxSignLockRequestLen) .input
  .ok encoded

/-- What `run_keyper_release_share` sends. -/
def releaseShareRequest (share : KeyperSecretShare host) (package : LockPackageV1 host)
    (memberIndex : Nat) : Except KeyperProcessError Bytes := do
  let package ← package.encodeWire.mapError fun _ => .input
  let secret ← appendBoundShare codec share
  let index ← okOr (count32 memberIndex) .input
  let packageLen ← okOr (count32 package.length) .input
  let encoded := secret ++ le32 index ++ le32 packageLen ++ package
  rejectIf (encoded.length > maxReleaseRequestLen) .input
  .ok encoded

/-- What `run_keyper_sign_settlement` sends. -/
def signSettlementRequest (share : KeyperSecretShare host) (request : SettlementRequestV1 host) :
    Except KeyperProcessError Bytes := do
  let requestBytes ← (request.encodeWire codec).mapError fun _ => .input
  rejectIf (requestBytes.length > maxSettlementRequestLen) .input
  let secret ← appendBoundShare codec share
  let encoded := secret ++ requestBytes
  rejectIf (encoded.length > maxSettlementFrameLen) .input
  .ok encoded

variable {codec}

theorem appendBoundShare_ok (canonical : codec.Canonical) (share : KeyperSecretShare host) :
    ∃ secret, appendBoundShare codec share = .ok secret ∧ secret.length = boundShareLen := by
  obtain ⟨secretBytes, hserialize, hlength⟩ := canonical.secret share.secret
  have hbound : ([1] ++ share.epochAccount.bytes ++ le64 (UInt64.ofNat share.index) ++
      secretBytes).length = boundShareLen := by
    simp [hlength, boundShareLen]
  refine ⟨_, ?_, hbound⟩
  rw [appendBoundShare]
  refine (bind_of_ok (okOr_eq_ok.mpr hserialize) _).trans ?_
  exact rejectIf_bind_of_not (not_not.mpr hbound)

theorem package_frames (canonical : codec.Canonical) (share : KeyperSecretShare host)
    {package : LockPackageV1 host} (h : package.WellFormed codec)
    (hsubmissions : package.submissions.length ≤ maxBatchMembers)
    (hbalances : package.balances.length ≤ maxBatchMembers) :
    (∃ frame, signLockRequest codec share package = .ok frame ∧
      frame.length ≤ maxSignLockRequestLen) ∧
    ∀ memberIndex < 2 ^ 32, ∃ frame, releaseShareRequest codec share package memberIndex = .ok frame ∧
      frame.length ≤ maxReleaseRequestLen := by
  obtain ⟨bytes, hbytes, hmax⟩ :=
    LockPackageV1.encodeWire_of_wellFormed canonical h hsubmissions hbalances
  obtain ⟨secret, hsecret, hsecretLength⟩ := appendBoundShare_ok canonical share
  have hcount : count32 bytes.length = some (UInt32.ofNat bytes.length) := if_pos (by omega)
  unfold boundShareLen at hsecretLength
  constructor
  · have hfits : (secret ++ le32 (UInt32.ofNat bytes.length) ++ bytes).length ≤
        maxSignLockRequestLen := by
      simp only [List.length_append, le32_length, maxSignLockRequestLen]
      omega
    refine ⟨_, ?_, hfits⟩
    rw [signLockRequest]
    refine (bind_of_ok (mapError_eq_ok.mpr hbytes) _).trans ?_
    refine (bind_of_ok (okOr_eq_ok.mpr hcount) _).trans ?_
    refine (bind_of_ok hsecret _).trans ?_
    exact rejectIf_bind_of_not (not_lt.mpr hfits)
  · intro memberIndex hindex
    have hfits : (secret ++ le32 (UInt32.ofNat memberIndex) ++ le32 (UInt32.ofNat bytes.length) ++
        bytes).length ≤ maxReleaseRequestLen := by
      simp only [List.length_append, le32_length, maxReleaseRequestLen]
      omega
    refine ⟨_, ?_, hfits⟩
    rw [releaseShareRequest]
    refine (bind_of_ok (mapError_eq_ok.mpr hbytes) _).trans ?_
    refine (bind_of_ok hsecret _).trans ?_
    refine (bind_of_ok (okOr_eq_ok.mpr (if_pos hindex)) _).trans ?_
    refine (bind_of_ok (okOr_eq_ok.mpr hcount) _).trans ?_
    exact rejectIf_bind_of_not (not_lt.mpr hfits)

theorem settlement_frame (canonical : codec.Canonical) (share : KeyperSecretShare host)
    {request : SettlementRequestV1 host} (h : request.WellFormed codec)
    (hsubmissions : request.package.submissions.length ≤ maxBatchMembers)
    (hbalances : request.package.balances.length ≤ maxBatchMembers) :
    ∃ frame, signSettlementRequest codec share request = .ok frame ∧
      frame.length ≤ maxSettlementFrameLen := by
  obtain ⟨bytes, hbytes, hmax⟩ :=
    SettlementRequestV1.encodeWire_of_wellFormed canonical h hsubmissions hbalances
  obtain ⟨secret, hsecret, hsecretLength⟩ := appendBoundShare_ok canonical share
  have hrequest : bytes.length ≤ maxSettlementRequestLen := by
    unfold maxSettlementRequestLen
    omega
  have hfits : (secret ++ bytes).length ≤ maxSettlementFrameLen := by
    rw [List.length_append, hsecretLength, maxSettlementFrameLen]
    omega
  refine ⟨_, ?_, hfits⟩
  rw [signSettlementRequest]
  refine (bind_of_ok (mapError_eq_ok.mpr hbytes) _).trans ?_
  refine (rejectIf_bind_of_not (not_lt.mpr hrequest)).trans ?_
  refine (bind_of_ok hsecret _).trans ?_
  exact rejectIf_bind_of_not (not_lt.mpr hfits)

end Frames

/-! ### The formats are exact -/

theorem wire_round_trip {host : Host} {codec : Bincode host} (canonical : codec.Canonical) :
    (∀ package : LockPackageV1 host, package.Made codec →
      package.submissions.length ≤ maxBatchMembers → package.balances.length ≤ maxBatchMembers →
      (∃ bytes, package.encodeWire = .ok bytes ∧
        LockPackageV1.decodeWire codec bytes = pure package) ∧
      ∀ share, (∃ frame, signLockRequest codec share package = .ok frame ∧
          frame.length ≤ maxSignLockRequestLen) ∧
        ∀ memberIndex < 2 ^ 32, ∃ frame,
          releaseShareRequest codec share package memberIndex = .ok frame ∧
            frame.length ≤ maxReleaseRequestLen) ∧
    (∀ package evidence nonce confirmed request,
      codec.threshold package.epochPublicKeys.keys = 1 →
      (∀ e ∈ evidence, e.first.index < 2 ^ 64 ∧ e.second.index < 2 ^ 64) →
      SettlementRequestV1.build package evidence nonce confirmed = .ok request →
      (∃ bytes, request.encodeWire codec = .ok bytes ∧
        SettlementRequestV1.decodeWire codec bytes = pure request) ∧
      ∀ share, ∃ frame, signSettlementRequest codec share request = .ok frame ∧
        frame.length ≤ maxSettlementFrameLen) ∧
    (∀ bytes, (LockPackageV1.decodeWire codec bytes).Ends ∧
      ∀ package, LockPackageV1.decodeWire codec bytes = pure package →
        package.encodeWire = .ok bytes) ∧
    (∀ bytes, (SettlementRequestV1.decodeWire codec bytes).Ends ∧
      ∀ request, SettlementRequestV1.decodeWire codec bytes = pure request →
        request.encodeWire codec = .ok bytes) := by
  refine ⟨?_, ?_, ?_, ?_⟩
  · intro package hmade hsubmissions hbalances
    have hwell := hmade.wellFormed
    obtain ⟨bytes, hbytes, -⟩ :=
      LockPackageV1.encodeWire_of_wellFormed canonical hwell hsubmissions hbalances
    exact ⟨⟨bytes, hbytes, (LockPackageV1.decodeWire_eq_pure canonical).mpr ⟨hwell, hbytes⟩⟩,
      fun share => package_frames canonical share hwell hsubmissions hbalances⟩
  · intro package evidence nonce confirmed request hkeys hindices hbuild
    obtain ⟨hwell, hsubmissions, hbalances⟩ :=
      SettlementRequestV1.wellFormed_of_build hkeys hindices hbuild
    obtain ⟨bytes, hbytes, -⟩ :=
      SettlementRequestV1.encodeWire_of_wellFormed canonical hwell hsubmissions hbalances
    exact ⟨⟨bytes, hbytes, (SettlementRequestV1.decodeWire_eq_pure canonical).mpr ⟨hwell, hbytes⟩⟩,
      fun share => settlement_frame canonical share hwell hsubmissions hbalances⟩
  · exact fun bytes => ⟨LockPackageV1.decodeWire_ends bytes,
      fun package h => ((LockPackageV1.decodeWire_eq_pure canonical).mp h).2⟩
  · exact fun bytes => ⟨SettlementRequestV1.decodeWire_ends bytes,
      fun request h => ((SettlementRequestV1.decodeWire_eq_pure canonical).mp h).2⟩

namespace Sample

open Threshold

/-- Elements of the field as one byte each, secret shares padded to 32. -/
def codec : Bincode host where
  deserializeKeys
    | [a, b] => if a < 5 ∧ b < 5 then some ⟨a.toNat, b.toNat⟩ else none
    | _ => none
  threshold _ := 1
  serializeShare (x : F) := some [UInt8.ofNat x.val]
  deserializeShare
    | [a] => if a < 5 then some (a.toNat : F) else none
    | _ => none
  serializeSecret (x : F) := some (UInt8.ofNat x.val :: List.replicate 31 0)

theorem codec_canonical : codec.Canonical := by
  have hread : ∀ x : F, UInt8.ofNat x.val < 5 ∧ ((UInt8.ofNat x.val).toNat : F) = x := by decide
  have hwrite : ∀ a : UInt8, a < 5 → UInt8.ofNat ((a.toNat : F).val) = a := by
    intro a ha
    rw [ZMod.val_natCast_of_lt (UInt8.lt_iff_toNat_lt.mp ha), UInt8.ofNat_toNat]
  refine ⟨?_, ?_, ?_, ?_, fun (s : F) => ⟨_, rfl, by simp⟩⟩
  · intro l _
    refine ⟨l.encode, rfl, (by decide : 2 ≤ 1024), ?_⟩
    refine (if_pos ⟨(hread l.secret).1, (hread l.slope).1⟩).trans ?_
    rw [(hread l.secret).2, (hread l.slope).2]
    rfl
  · intro l encoded h
    simp only [codec] at h
    split at h
    · split_ifs at h with hlt
      cases h
      show some [_, _] = _
      rw [hwrite _ hlt.1, hwrite _ hlt.2]
    · cases h
  · intro (x : F)
    refine ⟨_, rfl, (by decide : 1 ≤ 403), ?_⟩
    refine (if_pos (hread x).1).trans ?_
    rw [(hread x).2]
  · intro x encoded h
    simp only [codec] at h
    split at h
    · split_ifs at h with hlt
      cases h
      show some [_] = _
      rw [hwrite _ hlt]
    · cases h

theorem package_made : (package [1, 2, 3, 4]).Made codec := by
  have hwell : ∀ s ∈ (package [1, 2, 3, 4]).submissions,
      (s.authorization.version = authorizationVersion ∧
        host.validKey s.authorization.operatorKey = true ∧
        host.validKey s.authorization.tradingKey = true) ∧
        s.ciphertext.length = encryptedIntentV1Len := by decide +kernel
  refine ⟨rfl, fun s hs => ?_, fun s hs => (hwell s hs).2⟩
  obtain ⟨hversion, hoperator, htrading⟩ := (hwell s hs).1
  exact .read (FundedAuthorizationV1.decode_eq_pure.mpr ⟨⟨hversion, hoperator, htrading⟩, rfl⟩)

theorem evidence_indices {first second : Nat} {members : List UInt8}
    {e : DecryptionEvidenceV1 host} (h : e ∈ evidence first second members) :
    e.first.index = first ∧ e.second.index = second := by
  have hrelease : ∀ {index ciphertext a},
      ((secretShare index).release epoch packageDigest ciphertext).toOption = some a →
        a.index = index := by
    intro index ciphertext a ha
    have hok := eq_ok_of_toOption ha
    simp only [KeyperSecretShare.release, bind_ok, okOr_eq_ok] at hok
    obtain ⟨_, -, _, -, hok⟩ := hok
    cases hok
    rfl
  obtain ⟨member, -, hmember⟩ := List.mem_filterMap.mp h
  simp only [Option.bind_eq_bind, Option.bind_eq_some_iff] at hmember
  obtain ⟨a, ha, b, hb, hnew⟩ := hmember
  obtain ⟨hfirst, hsecond⟩ := DecryptionEvidenceV1.new_eq_ok.mp (eq_ok_of_toOption hnew)
  rw [hfirst, hsecond]
  exact ⟨hrelease ha, hrelease hb⟩

theorem build_request : ∃ r, SettlementRequestV1.build (package [1, 2, 3, 4])
    (evidence 0 1 [1, 2, 3, 4]) (key 90) packageLock = .ok r := by
  have hresidual := recomputed_residual
  cases hr : recomputed with
  | error e =>
    rw [hr] at hresidual
    cases hresidual
  | ok r =>
    simp only [recomputed, request] at hr
    exact ⟨_, bind_of_ok hr _⟩

end Sample

theorem wire_round_trip_sample :
    (∃ bytes, (Sample.package [1, 2, 3, 4]).encodeWire = .ok bytes ∧
      LockPackageV1.decodeWire Sample.codec bytes = pure (Sample.package [1, 2, 3, 4])) ∧
    ∃ request bytes, SettlementRequestV1.build (Sample.package [1, 2, 3, 4])
        (Sample.evidence 0 1 [1, 2, 3, 4]) (Sample.key 90) Sample.packageLock = .ok request ∧
      request.encodeWire Sample.codec = .ok bytes ∧
      SettlementRequestV1.decodeWire Sample.codec bytes = pure request := by
  obtain ⟨hpackage, hrequest, -, -⟩ := wire_round_trip Sample.codec_canonical
  refine ⟨(hpackage _ Sample.package_made (by decide) (by decide)).1, ?_⟩
  obtain ⟨request, hbuild⟩ := Sample.build_request
  have hindices : ∀ e ∈ Sample.evidence 0 1 [1, 2, 3, 4],
      e.first.index < 2 ^ 64 ∧ e.second.index < 2 ^ 64 := by
    intro e he
    obtain ⟨hfirst, hsecond⟩ := Sample.evidence_indices he
    rw [hfirst, hsecond]
    decide
  obtain ⟨⟨bytes, hencode, hdecode⟩, -⟩ := hrequest _ _ _ _ request rfl hindices hbuild
  exact ⟨request, bytes, hbuild, hencode, hdecode⟩

end Kageb
