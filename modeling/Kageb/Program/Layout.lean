import Kageb.Lib.Offsets
import Kageb.Program.Instruction

/-! The formats as the program computes them: records written into zeroed buffers and read from byte
strings at counted offsets. They are the formats of the model, and no access is out of range. -/

namespace Kageb

open Binary Checks

/-! ### Payloads and configurations -/

def EpochConfigurationV1.encodeAt (c : EpochConfigurationV1) : Option Bytes :=
  written 263 <|
    [(0, [1]), (1, c.pool.bytes), (33, c.epochId.bytes), (65, c.baseMint.bytes),
      (97, c.quoteMint.bytes), (129, le64 c.baseLotAtoms), (137, le64 c.quoteAtomsPerLot),
      (145, le32 c.minimumCount), (149, [c.lockThreshold]), (150, [c.settlementThreshold])] ++
    consecutive 151 (c.keypers.toList.map ByteVec.bytes) ++
    [(247, le64 c.lockDeadline.toUInt64), (255, le64 c.abortDeadline.toUInt64)]

def EpochConfigurationV1.decodeAt (bytes : Bytes) : Guarded Unit EpochConfigurationV1 := do
  Guarded.check (rejectIf (bytes.length ≠ 263) ())
  let version ← Guarded.byte bytes 0
  Guarded.check (rejectIf (version ≠ 1) ())
  let first ← Guarded.array 32 bytes 151 ()
  let second ← Guarded.array 32 bytes 183 ()
  let third ← Guarded.array 32 bytes 215 ()
  let pool ← Guarded.array 32 bytes 1 ()
  let epochId ← Guarded.array 32 bytes 33 ()
  let baseMint ← Guarded.array 32 bytes 65 ()
  let quoteMint ← Guarded.array 32 bytes 97 ()
  let baseLotAtoms ← Guarded.array 8 bytes 129 ()
  let quoteAtomsPerLot ← Guarded.array 8 bytes 137 ()
  let minimumCount ← Guarded.array 4 bytes 145 ()
  let lockThreshold ← Guarded.byte bytes 149
  let settlementThreshold ← Guarded.byte bytes 150
  let lockDeadline ← Guarded.array 8 bytes 247 ()
  let abortDeadline ← Guarded.array 8 bytes 255 ()
  return {
    pool, epochId, baseMint, quoteMint
    baseLotAtoms := Guarded.word64 baseLotAtoms
    quoteAtomsPerLot := Guarded.word64 quoteAtomsPerLot
    minimumCount := Guarded.word32 minimumCount
    lockThreshold, settlementThreshold
    keypers := ⟨first, second, third⟩
    lockDeadline := (Guarded.word64 lockDeadline).toInt64
    abortDeadline := (Guarded.word64 abortDeadline).toInt64 }

/-- The fields of a configuration one after another. -/
theorem EpochConfigurationV1.encode_eq (c : EpochConfigurationV1) :
    c.encode = [1] ++ (c.pool.bytes ++ (c.epochId.bytes ++ (c.baseMint.bytes ++
      (c.quoteMint.bytes ++ (le64 c.baseLotAtoms ++ (le64 c.quoteAtomsPerLot ++
      (le32 c.minimumCount ++ ([c.lockThreshold] ++ ([c.settlementThreshold] ++
      ((c.keypers.first.bytes ++ (c.keypers.second.bytes ++ c.keypers.third.bytes)) ++
      (le64 c.lockDeadline.toUInt64 ++ le64 c.abortDeadline.toUInt64))))))))))) := rfl

theorem EpochConfigurationV1.encode_length (c : EpochConfigurationV1) : c.encode.length = 263 := by
  simp [encode_eq]

theorem EpochConfigurationV1.encodeAt_eq (c : EpochConfigurationV1) :
    c.encodeAt = some c.encode := by
  rw [encodeAt, written_eq]
  · simp only [rendered, consecutive, Keypers.toList, List.map_cons, List.map_nil, List.cons_append,
      List.nil_append, List.length_cons, List.length_nil, ByteVec.length_bytes, le64_length,
      le32_length, Nat.reduceAdd, Nat.reduceSub, List.replicate_zero, List.append_nil, encode_eq,
      List.append_assoc]
  · simp [LeftToRight, consecutive, Keypers.toList]

theorem EpochConfigurationV1.decodeAt_eq (bytes : Bytes) :
    decodeAt bytes = Guarded.check (okOr (decode bytes) ()) := by
  refine Guarded.eq_read (c := layout) ?_
  by_cases hlength : bytes.length = 263
  · by_cases hversion : bytes[0] = 1
    · refine .inl ?_
      simp (disch := omega) only [decodeAt, Guarded.byte_eq, Guarded.array_eq, pure_bind,
        Guarded.reject_of_not, hversion, ne_eq, not_true_eq_false]
      refine ⟨_, rfl, Eq.trans ?_ (encode_eq _).symm⟩
      -- the fields are the slices of the string from left to right
      simp only [Guarded.arrayAt_bytes, le64_word64, le32_word32, UInt64.toUInt64_toInt64,
        List.append_assoc, Nat.reduceAdd, ← hversion]
      simp (disch := omega) only [slice_to_end, slice_append_drop, singleton_append_drop,
        List.drop_zero]
    · refine .inr ⟨?_, ?_⟩
      · rw [decodeAt, Guarded.reject_of_not (by omega), Guarded.byte_eq (by omega), pure_bind,
          Guarded.reject_of hversion]
      · rintro c rfl
        exact hversion rfl
  · refine .inr ⟨by rw [decodeAt, Guarded.reject_of hlength], ?_⟩
    rintro c rfl
    exact hlength c.encode_length

def LockPayloadV1.encodeAt (p : LockPayloadV1) : Option Bytes :=
  written 173
    [(0, [1]), (1, p.epochAccount.bytes), (33, p.configurationHash.bytes),
      (65, p.preBalanceRoot.bytes), (97, p.memberRoot.bytes), (129, le32 p.memberCount),
      (133, le64 p.lockDeadline.toUInt64), (141, p.lockNonce.bytes)]

def LockPayloadV1.decodeAt (bytes : Bytes) : Guarded Unit LockPayloadV1 := do
  Guarded.check (rejectIf (bytes.length ≠ 173) ())
  let version ← Guarded.byte bytes 0
  Guarded.check (rejectIf (version ≠ 1) ())
  let epochAccount ← Guarded.array 32 bytes 1 ()
  let configurationHash ← Guarded.array 32 bytes 33 ()
  let preBalanceRoot ← Guarded.array 32 bytes 65 ()
  let memberRoot ← Guarded.array 32 bytes 97 ()
  let memberCount ← Guarded.array 4 bytes 129 ()
  let lockDeadline ← Guarded.array 8 bytes 133 ()
  let lockNonce ← Guarded.array 32 bytes 141 ()
  return {
    epochAccount, configurationHash, preBalanceRoot, memberRoot
    memberCount := Guarded.word32 memberCount
    lockDeadline := (Guarded.word64 lockDeadline).toInt64
    lockNonce }

theorem LockPayloadV1.encode_eq (p : LockPayloadV1) :
    p.encode = [1] ++ (p.epochAccount.bytes ++ (p.configurationHash.bytes ++
      (p.preBalanceRoot.bytes ++ (p.memberRoot.bytes ++ (le32 p.memberCount ++
      (le64 p.lockDeadline.toUInt64 ++ p.lockNonce.bytes)))))) := rfl

theorem LockPayloadV1.encode_length (p : LockPayloadV1) : p.encode.length = 173 := by
  simp [encode_eq]

theorem LockPayloadV1.encodeAt_eq (p : LockPayloadV1) : p.encodeAt = some p.encode := by
  rw [encodeAt, written_eq]
  · simp only [rendered, List.length_cons, List.length_nil, ByteVec.length_bytes, le64_length,
      le32_length, Nat.reduceAdd, Nat.reduceSub, List.replicate_zero, List.nil_append,
      List.append_nil, encode_eq]
  · simp [LeftToRight]

theorem LockPayloadV1.decodeAt_eq (bytes : Bytes) :
    decodeAt bytes = Guarded.check (okOr (decode bytes) ()) := by
  refine Guarded.eq_read (c := layout) ?_
  by_cases hlength : bytes.length = 173
  · by_cases hversion : bytes[0] = 1
    · refine .inl ?_
      simp (disch := omega) only [decodeAt, Guarded.byte_eq, Guarded.array_eq, pure_bind,
        Guarded.reject_of_not, hversion, ne_eq, not_true_eq_false]
      refine ⟨_, rfl, Eq.trans ?_ (encode_eq _).symm⟩
      simp only [Guarded.arrayAt_bytes, le64_word64, le32_word32, UInt64.toUInt64_toInt64,
        Nat.reduceAdd, ← hversion]
      simp (disch := omega) only [slice_to_end, slice_append_drop, singleton_append_drop,
        List.drop_zero]
    · refine .inr ⟨?_, ?_⟩
      · rw [decodeAt, Guarded.reject_of_not (by omega), Guarded.byte_eq (by omega), pure_bind,
          Guarded.reject_of hversion]
      · rintro p rfl
        exact hversion rfl
  · refine .inr ⟨by rw [decodeAt, Guarded.reject_of hlength], ?_⟩
    rintro p rfl
    exact hlength p.encode_length

def SettlementPayloadV1.encodeAt (p : SettlementPayloadV1) : Option Bytes :=
  written 374 <|
    [(0, [1]), (1, p.epochAccount.bytes), (33, p.lockDigest.bytes), (65, p.resultCommitment.bytes),
      (97, [p.residualSide]), (98, le32 p.residualLots), (102, le64 p.baseLotAtoms),
      (110, le64 p.quoteAtomsPerLot)] ++
    consecutive 118 ([p.baseMint, p.quoteMint, p.poolBaseVault, p.poolQuoteVault,
      p.venueBaseAccount, p.venueQuoteAccount, p.venueAuthority, p.settlementNonce].map
      ByteVec.bytes)

def SettlementPayloadV1.decodeAt (bytes : Bytes) : Guarded Unit SettlementPayloadV1 := do
  Guarded.check (rejectIf (bytes.length ≠ 374) ())
  let version ← Guarded.byte bytes 0
  Guarded.check (rejectIf (version ≠ 1) ())
  let epochAccount ← Guarded.array 32 bytes 1 ()
  let lockDigest ← Guarded.array 32 bytes 33 ()
  let resultCommitment ← Guarded.array 32 bytes 65 ()
  let residualSide ← Guarded.byte bytes 97
  let residualLots ← Guarded.array 4 bytes 98 ()
  let baseLotAtoms ← Guarded.array 8 bytes 102 ()
  let quoteAtomsPerLot ← Guarded.array 8 bytes 110 ()
  let baseMint ← Guarded.array 32 bytes 118 ()
  let quoteMint ← Guarded.array 32 bytes 150 ()
  let poolBaseVault ← Guarded.array 32 bytes 182 ()
  let poolQuoteVault ← Guarded.array 32 bytes 214 ()
  let venueBaseAccount ← Guarded.array 32 bytes 246 ()
  let venueQuoteAccount ← Guarded.array 32 bytes 278 ()
  let venueAuthority ← Guarded.array 32 bytes 310 ()
  let settlementNonce ← Guarded.array 32 bytes 342 ()
  return {
    epochAccount, lockDigest, resultCommitment, residualSide
    residualLots := Guarded.word32 residualLots
    baseLotAtoms := Guarded.word64 baseLotAtoms
    quoteAtomsPerLot := Guarded.word64 quoteAtomsPerLot
    baseMint, quoteMint, poolBaseVault, poolQuoteVault, venueBaseAccount, venueQuoteAccount
    venueAuthority, settlementNonce }

theorem SettlementPayloadV1.encode_eq (p : SettlementPayloadV1) :
    p.encode = [1] ++ (p.epochAccount.bytes ++ (p.lockDigest.bytes ++ (p.resultCommitment.bytes ++
      ([p.residualSide] ++ (le32 p.residualLots ++ (le64 p.baseLotAtoms ++
      (le64 p.quoteAtomsPerLot ++ (p.baseMint.bytes ++ (p.quoteMint.bytes ++
      (p.poolBaseVault.bytes ++ (p.poolQuoteVault.bytes ++ (p.venueBaseAccount.bytes ++
      (p.venueQuoteAccount.bytes ++ (p.venueAuthority.bytes ++
      p.settlementNonce.bytes)))))))))))))) := rfl

theorem SettlementPayloadV1.encode_length (p : SettlementPayloadV1) : p.encode.length = 374 := by
  simp [encode_eq]

theorem SettlementPayloadV1.encodeAt_eq (p : SettlementPayloadV1) :
    p.encodeAt = some p.encode := by
  rw [encodeAt, written_eq]
  · simp only [rendered, consecutive, List.map_cons, List.map_nil, List.cons_append, List.nil_append,
      List.length_cons, List.length_nil, ByteVec.length_bytes, le64_length, le32_length,
      Nat.reduceAdd, Nat.reduceSub, List.replicate_zero, List.append_nil, encode_eq]
  · simp [LeftToRight, consecutive]

theorem SettlementPayloadV1.decodeAt_eq (bytes : Bytes) :
    decodeAt bytes = Guarded.check (okOr (decode bytes) ()) := by
  refine Guarded.eq_read (c := layout) ?_
  by_cases hlength : bytes.length = 374
  · by_cases hversion : bytes[0] = 1
    · refine .inl ?_
      simp (disch := omega) only [decodeAt, Guarded.byte_eq, Guarded.array_eq, pure_bind,
        Guarded.reject_of_not, hversion, ne_eq, not_true_eq_false]
      refine ⟨_, rfl, Eq.trans ?_ (encode_eq _).symm⟩
      simp only [Guarded.arrayAt_bytes, le64_word64, le32_word32, Nat.reduceAdd, ← hversion]
      simp (disch := omega) only [slice_to_end, slice_append_drop, singleton_append_drop,
        List.drop_zero]
    · refine .inr ⟨?_, ?_⟩
      · rw [decodeAt, Guarded.reject_of_not (by omega), Guarded.byte_eq (by omega), pure_bind,
          Guarded.reject_of hversion]
      · rintro p rfl
        exact hversion rfl
  · refine .inr ⟨by rw [decodeAt, Guarded.reject_of hlength], ?_⟩
    rintro p rfl
    exact hlength p.encode_length

/-! ### Accounts -/

def requireHeaderAndReserved (data discriminator : Bytes) (reservedStart : Nat) :
    Guarded ProgramError Unit := do
  Guarded.check (rejectIf (data.length ≠ stateLen) .invalidAccountData)
  let head ← Guarded.slice data 0 8
  Guarded.check (rejectIf (head ≠ discriminator) .invalidAccountData)
  let version ← Guarded.byte data 8
  Guarded.check (rejectIf (version ≠ stateVersion) .invalidAccountData)
  let reserved ← Guarded.slice data reservedStart data.length
  Guarded.check (rejectIf (∃ b ∈ reserved, b ≠ 0) .invalidAccountData)

/-- What `requireHeaderAndReserved` asks of an account. -/
structure Headed (data discriminator : Bytes) (reservedStart : Nat) : Prop where
  length : data.length = stateLen
  head : slice data 0 8 = discriminator
  version : data[8]? = some stateVersion
  reserved : data.drop reservedStart = List.replicate (stateLen - reservedStart) 0

theorem requireHeaderAndReserved_cases (data discriminator : Bytes) {reservedStart : Nat}
    (hstart : reservedStart ≤ stateLen) :
    requireHeaderAndReserved data discriminator reservedStart = pure () ∧
        Headed data discriminator reservedStart ∨
      requireHeaderAndReserved data discriminator reservedStart =
          Guarded.check (.error .invalidAccountData) ∧
        ¬Headed data discriminator reservedStart := by
  unfold requireHeaderAndReserved
  by_cases hlength : data.length = stateLen
  case neg => exact .inr ⟨Guarded.reject_of hlength, fun h => hlength h.length⟩
  have hlong : 384 = data.length := hlength.symm
  rw [Guarded.reject_of_not (not_not.mpr hlength), Guarded.slice_eq (by omega) (by omega), pure_bind]
  by_cases hhead : slice data 0 8 = discriminator
  case neg => exact .inr ⟨Guarded.reject_of hhead, fun h => hhead h.head⟩
  rw [Guarded.reject_of_not (not_not.mpr hhead), Guarded.byte_eq (by omega), pure_bind]
  by_cases hversion : data[8] = stateVersion
  case neg =>
    refine .inr ⟨Guarded.reject_of hversion, fun h => hversion ?_⟩
    exact Option.some.inj ((List.getElem?_eq_getElem (by omega)).symm.trans h.version)
  rw [Guarded.reject_of_not (not_not.mpr hversion), Guarded.slice_eq (by omega) (le_refl _),
    pure_bind, slice_to_end (le_refl _)]
  have hreserved : data.drop reservedStart = List.replicate (stateLen - reservedStart) 0 ↔
      ¬∃ b ∈ data.drop reservedStart, b ≠ 0 := by
    rw [List.eq_replicate_iff, List.length_drop, hlength]
    push Not
    exact and_iff_right rfl
  by_cases hzero : ∃ b ∈ data.drop reservedStart, b ≠ 0
  · refine .inr ⟨?_, fun h => hreserved.mp h.reserved hzero⟩
    rw [rejectIf, if_pos hzero]
  · refine .inl ⟨?_, hlength, hhead, ?_, hreserved.mpr hzero⟩
    · rw [rejectIf, if_neg hzero]
      rfl
    · rw [List.getElem?_eq_getElem (by omega), hversion]

def PoolStateV1.encodeAt (s : PoolStateV1) : Option Bytes :=
  written stateLen <|
    [(0, poolDiscriminator), (8, [stateVersion]), (9, [s.poolBump]), (10, [s.vaultBump]),
      (11, [s.lockThreshold]), (12, [s.settlementThreshold])] ++
    consecutive 16 ([s.operator, s.baseMint, s.quoteMint, s.poolBaseVault, s.poolQuoteVault,
      s.venueAuthority, s.venueBaseAccount, s.venueQuoteAccount, s.keypers.first, s.keypers.second,
      s.keypers.third].map ByteVec.bytes ++ [le64 s.baseLotAtoms])

def PoolStateV1.decodeAt (data : Bytes) : Guarded ProgramError PoolStateV1 := do
  requireHeaderAndReserved data poolDiscriminator 376
  let offset := 16
  let poolBump ← Guarded.byte data 9
  let vaultBump ← Guarded.byte data 10
  let lockThreshold ← Guarded.byte data 11
  let settlementThreshold ← Guarded.byte data 12
  let (operator, offset) ← Guarded.take 32 data offset .invalidAccountData
  let (baseMint, offset) ← Guarded.take 32 data offset .invalidAccountData
  let (quoteMint, offset) ← Guarded.take 32 data offset .invalidAccountData
  let (poolBaseVault, offset) ← Guarded.take 32 data offset .invalidAccountData
  let (poolQuoteVault, offset) ← Guarded.take 32 data offset .invalidAccountData
  let (venueAuthority, offset) ← Guarded.take 32 data offset .invalidAccountData
  let (venueBaseAccount, offset) ← Guarded.take 32 data offset .invalidAccountData
  let (venueQuoteAccount, offset) ← Guarded.take 32 data offset .invalidAccountData
  let (first, offset) ← Guarded.take 32 data offset .invalidAccountData
  let (second, offset) ← Guarded.take 32 data offset .invalidAccountData
  let (third, offset) ← Guarded.take 32 data offset .invalidAccountData
  let (baseLotAtoms, offset) ← Guarded.take 8 data offset .invalidAccountData
  let gap ← Guarded.slice data 13 16
  Guarded.check (rejectIf (gap ≠ [0, 0, 0] ∨ offset ≠ 376) .invalidAccountData)
  return {
    poolBump, vaultBump, lockThreshold, settlementThreshold, operator, baseMint, quoteMint
    poolBaseVault, poolQuoteVault, venueAuthority, venueBaseAccount, venueQuoteAccount
    keypers := ⟨first, second, third⟩
    baseLotAtoms := Guarded.word64 baseLotAtoms }

theorem PoolStateV1.encode_eq (s : PoolStateV1) :
    s.encode = poolDiscriminator ++ ([stateVersion] ++ ([s.poolBump] ++ ([s.vaultBump] ++
      ([s.lockThreshold] ++ ([s.settlementThreshold] ++ ([0, 0, 0] ++ (s.operator.bytes ++
      (s.baseMint.bytes ++ (s.quoteMint.bytes ++ (s.poolBaseVault.bytes ++
      (s.poolQuoteVault.bytes ++ (s.venueAuthority.bytes ++ (s.venueBaseAccount.bytes ++
      (s.venueQuoteAccount.bytes ++ (s.keypers.first.bytes ++ (s.keypers.second.bytes ++
      (s.keypers.third.bytes ++ (le64 s.baseLotAtoms ++
      List.replicate 8 0)))))))))))))))))) := by
  simp only [encode, layout, Codec.tagged, Codec.iso, Codec.via, Codec.pair, Codec.padded,
    Codec.byte, Codec.array, Codec.u64, Keypers.layout, Equiv.coe_fn_mk, List.append_assoc]

theorem PoolStateV1.encodeAt_eq (s : PoolStateV1) : s.encodeAt = some s.encode := by
  rw [encodeAt, written_eq]
  · simp only [rendered, consecutive, List.map_cons, List.map_nil, List.cons_append,
      List.nil_append, List.length_cons, List.length_nil, ByteVec.length_bytes, le64_length,
      poolDiscriminator, stateLen, Nat.reduceAdd, Nat.reduceSub, List.replicate, encode_eq]
  · simp [LeftToRight, consecutive, poolDiscriminator, stateLen]

theorem PoolStateV1.encode_headed (s : PoolStateV1) : Headed s.encode poolDiscriminator 376 where
  length := s.encode_length
  head := rfl
  version := rfl
  reserved := by
    rw [encode_eq]
    simp only [← List.append_assoc]
    exact List.drop_left' (by simp [poolDiscriminator])

theorem PoolStateV1.decodeAt_eq (data : Bytes) :
    decodeAt data = Guarded.check (decode data) := by
  refine Guarded.eq_read (c := layout) ?_
  unfold decodeAt
  obtain ⟨hok, hheaded⟩ | ⟨herror, hheaded⟩ :=
    requireHeaderAndReserved_cases data poolDiscriminator (show 376 ≤ stateLen by decide)
  · have hlength : 384 = data.length := hheaded.length.symm
    rw [hok, pure_bind]
    simp (disch := omega) only [Guarded.byte_eq, Guarded.take_eq, Guarded.slice_eq, pure_bind,
      Nat.reduceAdd, ne_eq, not_true_eq_false, or_false]
    by_cases hgap : slice data 13 16 = [0, 0, 0]
    · rw [Guarded.reject_of_not (not_not.mpr hgap)]
      refine .inl ⟨_, rfl, Eq.trans ?_ (encode_eq _).symm⟩
      have hversion : data[8] = stateVersion := Option.some.inj
        ((List.getElem?_eq_getElem (by omega)).symm.trans hheaded.version)
      have hreserved : List.replicate 8 0 = data.drop 376 := hheaded.reserved.symm
      simp only [Guarded.arrayAt_bytes, le64_word64, Nat.reduceAdd, ← hversion, ← hheaded.head,
        ← hgap, hreserved]
      simp (disch := omega) only [slice_append_drop, singleton_append_drop, List.drop_zero]
    · refine .inr ⟨Guarded.reject_of hgap, ?_⟩
      rintro s rfl
      exact hgap rfl
  · refine .inr ⟨by rw [herror]; rfl, ?_⟩
    rintro s rfl
    exact hheaded s.encode_headed

def EpochStateV1.encodeAt (s : EpochStateV1) : Option Bytes :=
  written stateLen <|
    [(0, epochDiscriminator), (8, [stateVersion]), (9, [s.epochBump]),
      (10, [s.terminalState.toByte]), (11, [s.residualSide])] ++
    consecutive 16 ([s.pool, s.epochId, s.configurationHash, s.preBalanceRoot, s.memberRoot,
      s.lockDigest, s.resultCommitment, s.settlementDigest, s.lockNonce, s.settlementNonce].map
      ByteVec.bytes ++
      [le32 s.memberCount, le32 s.minimumCount, le32 s.residualLots, le64 s.baseLotAtoms,
        le64 s.quoteAtomsPerLot, le64 s.lockDeadline.toUInt64, le64 s.abortDeadline.toUInt64])

def EpochStateV1.decodeAt (data : Bytes) : Guarded ProgramError EpochStateV1 := do
  requireHeaderAndReserved data epochDiscriminator 380
  let gap ← Guarded.slice data 12 16
  Guarded.check (rejectIf (gap ≠ [0, 0, 0, 0]) .invalidAccountData)
  let offset := 16
  let epochBump ← Guarded.byte data 9
  let state ← Guarded.byte data 10
  let terminalState ← Guarded.check (okOr (EpochTerminalState.ofByte? state) .invalidAccountData)
  let residualSide ← Guarded.byte data 11
  let (pool, offset) ← Guarded.take 32 data offset .invalidAccountData
  let (epochId, offset) ← Guarded.take 32 data offset .invalidAccountData
  let (configurationHash, offset) ← Guarded.take 32 data offset .invalidAccountData
  let (preBalanceRoot, offset) ← Guarded.take 32 data offset .invalidAccountData
  let (memberRoot, offset) ← Guarded.take 32 data offset .invalidAccountData
  let (lockDigest, offset) ← Guarded.take 32 data offset .invalidAccountData
  let (resultCommitment, offset) ← Guarded.take 32 data offset .invalidAccountData
  let (settlementDigest, offset) ← Guarded.take 32 data offset .invalidAccountData
  let (lockNonce, offset) ← Guarded.take 32 data offset .invalidAccountData
  let (settlementNonce, offset) ← Guarded.take 32 data offset .invalidAccountData
  let (memberCount, offset) ← Guarded.take 4 data offset .invalidAccountData
  let (minimumCount, offset) ← Guarded.take 4 data offset .invalidAccountData
  let (residualLots, offset) ← Guarded.take 4 data offset .invalidAccountData
  let (baseLotAtoms, offset) ← Guarded.take 8 data offset .invalidAccountData
  let (quoteAtomsPerLot, offset) ← Guarded.take 8 data offset .invalidAccountData
  let (lockDeadline, offset) ← Guarded.take 8 data offset .invalidAccountData
  let (abortDeadline, offset) ← Guarded.take 8 data offset .invalidAccountData
  Guarded.check (rejectIf (offset ≠ 380) .invalidAccountData)
  return {
    epochBump, terminalState, residualSide, pool, epochId, configurationHash, preBalanceRoot
    memberRoot, lockDigest, resultCommitment, settlementDigest, lockNonce, settlementNonce
    memberCount := Guarded.word32 memberCount
    minimumCount := Guarded.word32 minimumCount
    residualLots := Guarded.word32 residualLots
    baseLotAtoms := Guarded.word64 baseLotAtoms
    quoteAtomsPerLot := Guarded.word64 quoteAtomsPerLot
    lockDeadline := (Guarded.word64 lockDeadline).toInt64
    abortDeadline := (Guarded.word64 abortDeadline).toInt64 }

theorem EpochStateV1.encode_eq (s : EpochStateV1) :
    s.encode = epochDiscriminator ++ ([stateVersion] ++ ([s.epochBump] ++
      ([s.terminalState.toByte] ++ ([s.residualSide] ++ ([0, 0, 0, 0] ++ (s.pool.bytes ++
      (s.epochId.bytes ++ (s.configurationHash.bytes ++ (s.preBalanceRoot.bytes ++
      (s.memberRoot.bytes ++ (s.lockDigest.bytes ++ (s.resultCommitment.bytes ++
      (s.settlementDigest.bytes ++ (s.lockNonce.bytes ++ (s.settlementNonce.bytes ++
      (le32 s.memberCount ++ (le32 s.minimumCount ++ (le32 s.residualLots ++
      (le64 s.baseLotAtoms ++ (le64 s.quoteAtomsPerLot ++ (le64 s.lockDeadline.toUInt64 ++
      (le64 s.abortDeadline.toUInt64 ++ List.replicate 4 0)))))))))))))))))))))) := by
  simp only [encode, layout, Codec.tagged, Codec.iso, Codec.via, Codec.pair, Codec.padded,
    Codec.byte, Codec.array, Codec.u32, Codec.u64, Codec.i64, EpochTerminalState.layout,
    Equiv.coe_fn_mk, List.append_assoc, List.replicate]

theorem EpochStateV1.encodeAt_eq (s : EpochStateV1) : s.encodeAt = some s.encode := by
  rw [encodeAt, written_eq]
  · simp only [rendered, consecutive, List.map_cons, List.map_nil, List.cons_append,
      List.nil_append, List.length_cons, List.length_nil, ByteVec.length_bytes, le64_length,
      le32_length, epochDiscriminator, stateLen, Nat.reduceAdd, Nat.reduceSub, List.replicate,
      encode_eq]
  · simp [LeftToRight, consecutive, epochDiscriminator, stateLen]

theorem EpochStateV1.encode_headed (s : EpochStateV1) :
    Headed s.encode epochDiscriminator 380 where
  length := s.encode_length
  head := rfl
  version := rfl
  reserved := by
    rw [encode_eq]
    simp only [← List.append_assoc]
    exact List.drop_left' (by simp [epochDiscriminator])

theorem EpochStateV1.decodeAt_eq (data : Bytes) :
    decodeAt data = Guarded.check (decode data) := by
  refine Guarded.eq_read (c := layout) ?_
  unfold decodeAt
  obtain ⟨hok, hheaded⟩ | ⟨herror, hheaded⟩ :=
    requireHeaderAndReserved_cases data epochDiscriminator (show 380 ≤ stateLen by decide)
  case inr =>
    refine .inr ⟨by rw [herror]; rfl, ?_⟩
    rintro s rfl
    exact hheaded s.encode_headed
  have hlength : 384 = data.length := hheaded.length.symm
  rw [hok, pure_bind]
  simp (disch := omega) only [Guarded.byte_eq, Guarded.take_eq, Guarded.slice_eq, pure_bind,
    Nat.reduceAdd, ne_eq, not_true_eq_false]
  by_cases hgap : slice data 12 16 = [0, 0, 0, 0]
  case neg =>
    refine .inr ⟨Guarded.reject_of hgap, ?_⟩
    rintro s rfl
    exact hgap rfl
  rw [Guarded.reject_of_not (not_not.mpr hgap)]
  cases hstate : EpochTerminalState.ofByte? data[10] with
  | none =>
    refine .inr ⟨rfl, ?_⟩
    rintro s rfl
    cases hstate.symm.trans s.terminalState.ofByte?_toByte
  | some state =>
    refine .inl ⟨_, rfl, Eq.trans ?_ (encode_eq _).symm⟩
    have hversion : data[8] = stateVersion := Option.some.inj
      ((List.getElem?_eq_getElem (by omega)).symm.trans hheaded.version)
    have hreserved : List.replicate 4 0 = data.drop 380 := hheaded.reserved.symm
    simp only [Guarded.arrayAt_bytes, le64_word64, le32_word32, UInt64.toUInt64_toInt64,
      Nat.reduceAdd, ← hversion, ← hheaded.head, ← hgap, hreserved,
      EpochTerminalState.toByte_of_ofByte? hstate]
    simp (disch := omega) only [slice_append_drop, singleton_append_drop, List.drop_zero]

/-! ### Instructions -/

def InitializePoolArgs.encodeAt (args : InitializePoolArgs) : Option Bytes :=
  written 107 <|
    [(0, [0]), (1, [args.lockThreshold]), (2, [args.settlementThreshold]),
      (3, le64 args.baseLotAtoms)] ++
    consecutive 11 (args.keypers.toList.map ByteVec.bytes)

def CreateEpochArgs.encodeAt (args : CreateEpochArgs) : Option Bytes :=
  written 61
    [(0, [1]), (1, args.epochId.bytes), (33, le32 args.minimumCount),
      (37, le64 args.quoteAtomsPerLot), (45, le64 args.lockDeadline.toUInt64),
      (53, le64 args.abortDeadline.toUInt64)]

def encodeSettlement (payload : CompactSettlementPayload) : Option Bytes :=
  written 70
    [(0, [3]), (1, payload.resultCommitment.bytes), (33, [payload.residualSide]),
      (34, le32 payload.residualLots), (38, payload.settlementNonce.bytes)]

namespace KagebInstruction

def encodeAt : KagebInstruction → Option Bytes
  | initializePool args => args.encodeAt
  | createEpoch args => args.encodeAt
  | lock payload => payload.encodeAt.map fun bytes => [2] ++ bytes
  | settle payload => encodeSettlement payload
  | expire => some [4]
  | abort => some [5]

def invalid : ProgramError := KagebError.invalidInstruction

def decodeInitializePool (data : Bytes) : Guarded ProgramError KagebInstruction := do
  let first ← Guarded.array 32 data 11 invalid
  let second ← Guarded.array 32 data 43 invalid
  let third ← Guarded.array 32 data 75 invalid
  let lockThreshold ← Guarded.byte data 1
  let settlementThreshold ← Guarded.byte data 2
  let baseLotAtoms ← Guarded.array 8 data 3 invalid
  return .initializePool {
    lockThreshold, settlementThreshold
    baseLotAtoms := Guarded.word64 baseLotAtoms
    keypers := ⟨first, second, third⟩ }

def decodeCreateEpoch (data : Bytes) : Guarded ProgramError KagebInstruction := do
  let epochId ← Guarded.array 32 data 1 invalid
  let minimumCount ← Guarded.array 4 data 33 invalid
  let quoteAtomsPerLot ← Guarded.array 8 data 37 invalid
  let lockDeadline ← Guarded.array 8 data 45 invalid
  let abortDeadline ← Guarded.array 8 data 53 invalid
  return .createEpoch {
    epochId
    minimumCount := Guarded.word32 minimumCount
    quoteAtomsPerLot := Guarded.word64 quoteAtomsPerLot
    lockDeadline := (Guarded.word64 lockDeadline).toInt64
    abortDeadline := (Guarded.word64 abortDeadline).toInt64 }

def decodeLock (data : Bytes) : Guarded ProgramError KagebInstruction := do
  let payload ← Guarded.slice data 1 data.length
  (ExceptT.adapt (fun _ => invalid) (LockPayloadV1.decodeAt payload)).map .lock

def decodeSettle (data : Bytes) : Guarded ProgramError KagebInstruction := do
  let resultCommitment ← Guarded.array 32 data 1 invalid
  let residualSide ← Guarded.byte data 33
  let residualLots ← Guarded.array 4 data 34 invalid
  let settlementNonce ← Guarded.array 32 data 38 invalid
  return .settle {
    resultCommitment, residualSide
    residualLots := Guarded.word32 residualLots
    settlementNonce }

/-- `match data.first()`, with the length as the guard of each arm. -/
def decodeAt (data : Bytes) : Guarded ProgramError KagebInstruction :=
  match data[0]? with
  | none => Guarded.check (.error invalid)
  | some tag =>
    if tag = 0 ∧ data.length = 107 then decodeInitializePool data
    else if tag = 1 ∧ data.length = 61 then decodeCreateEpoch data
    else if tag = 2 ∧ data.length = 1 + 173 then decodeLock data
    else if tag = 3 ∧ data.length = 70 then decodeSettle data
    else if tag = 4 ∧ data.length = 1 then pure .expire
    else if tag = 5 ∧ data.length = 1 then pure .abort
    else Guarded.check (.error invalid)

theorem encodeAt_eq (i : KagebInstruction) : i.encodeAt = some i.encode := by
  cases i with
  | initializePool args =>
    show args.encodeAt = _
    rw [InitializePoolArgs.encodeAt, written_eq]
    · simp only [rendered, consecutive, Keypers.toList, List.map_cons, List.map_nil,
        List.cons_append, List.nil_append, List.length_cons, List.length_nil, ByteVec.length_bytes,
        le64_length, Nat.reduceAdd, Nat.reduceSub, List.replicate_zero, List.append_nil]
      rfl
    · simp [LeftToRight, consecutive, Keypers.toList]
  | createEpoch args =>
    show args.encodeAt = _
    rw [CreateEpochArgs.encodeAt, written_eq]
    · simp only [rendered, List.length_cons, List.length_nil, ByteVec.length_bytes, le64_length,
        le32_length, Nat.reduceAdd, Nat.reduceSub, List.replicate_zero, List.nil_append,
        List.append_nil]
      rfl
    · simp [LeftToRight]
  | lock payload =>
    rw [encodeAt, payload.encodeAt_eq]
    rfl
  | settle payload =>
    show encodeSettlement payload = _
    rw [encodeSettlement, written_eq]
    · simp only [rendered, List.length_cons, List.length_nil, ByteVec.length_bytes, le32_length,
        Nat.reduceAdd, Nat.reduceSub, List.replicate_zero, List.nil_append, List.append_nil]
      rfl
    · simp [LeftToRight]
  | expire => rfl
  | abort => rfl

/-- The first byte of an instruction. -/
def tag : KagebInstruction → UInt8
  | initializePool _ => 0
  | createEpoch _ => 1
  | lock _ => 2
  | settle _ => 3
  | expire => 4
  | abort => 5

def width : KagebInstruction → Nat
  | initializePool _ => 107
  | createEpoch _ => 61
  | lock _ => 1 + 173
  | settle _ => 70
  | expire => 1
  | abort => 1

theorem encode_tag (i : KagebInstruction) : i.encode[0]? = some i.tag := by
  cases i <;> rfl

theorem encode_width (i : KagebInstruction) : i.encode.length = i.width := by
  cases i with
  | initializePool args =>
    have h : InitializePoolArgs.layout.Width 106 := Codec.Width.iso
      (Codec.byte_width.pair <| Codec.byte_width.pair <| Codec.u64_width.pair Keypers.layout_width) _
    exact congrArg (· + 1) (h args)
  | createEpoch args =>
    have h : CreateEpochArgs.layout.Width 60 := Codec.Width.iso
      ((Codec.array_width 32).pair <| Codec.u32_width.pair <| Codec.u64_width.pair <|
        Codec.i64_width.pair Codec.i64_width) _
    exact congrArg (· + 1) (h args)
  | lock payload =>
    rw [encode, List.length_cons, payload.encode_length]
    rfl
  | settle payload =>
    have h : CompactSettlementPayload.layout.Width 69 := Codec.Width.iso
      ((Codec.array_width 32).pair <| Codec.byte_width.pair <|
        Codec.u32_width.pair (Codec.array_width 32)) _
    exact congrArg (· + 1) (h payload)
  | expire => rfl
  | abort => rfl

theorem decode_encode (i : KagebInstruction) : decode i.encode = .ok i := by
  cases i with
  | initializePool args => simp [decode, encode, okOr]
  | createEpoch args => simp [decode, encode, okOr]
  | lock payload =>
    have hread : LockPayloadV1.decode payload.encode = some payload := Codec.read_encode ..
    simp [decode, encode, hread, okOr]
  | settle payload => simp [decode, encode, okOr]
  | expire => rfl
  | abort => rfl

theorem decode_eq_ok {data : Bytes} {i : KagebInstruction} :
    decode data = .ok i ↔ data = i.encode := by
  refine ⟨fun h => ?_, fun h => h ▸ decode_encode i⟩
  have hread := okOr_eq_ok.mp h
  cases data with
  | nil => cases hread
  | cons b rest =>
    dsimp only at hread
    split_ifs at hread with h0 h1 h2 h3 h4 hexpire h5 habort
    · obtain ⟨args, hargs, rfl⟩ := Option.map_eq_some_iff.mp hread
      rw [h0, Codec.read_eq_some.mp hargs, encode]
    · obtain ⟨args, hargs, rfl⟩ := Option.map_eq_some_iff.mp hread
      rw [h1, Codec.read_eq_some.mp hargs, encode]
    · obtain ⟨payload, hpayload, rfl⟩ := Option.map_eq_some_iff.mp hread
      rw [h2, Codec.read_eq_some.mp hpayload, encode, LockPayloadV1.encode]
    · obtain ⟨payload, hpayload, rfl⟩ := Option.map_eq_some_iff.mp hread
      rw [h3, Codec.read_eq_some.mp hpayload, encode]
    · cases hread
      rw [h4, hexpire, encode]
    · cases hread
      rw [h5, habort, encode]

theorem encode_initializePool (args : InitializePoolArgs) :
    (initializePool args).encode = [0] ++ ([args.lockThreshold] ++ ([args.settlementThreshold] ++
      (le64 args.baseLotAtoms ++ (args.keypers.first.bytes ++ (args.keypers.second.bytes ++
      args.keypers.third.bytes))))) := rfl

theorem encode_createEpoch (args : CreateEpochArgs) :
    (createEpoch args).encode = [1] ++ (args.epochId.bytes ++ (le32 args.minimumCount ++
      (le64 args.quoteAtomsPerLot ++ (le64 args.lockDeadline.toUInt64 ++
      le64 args.abortDeadline.toUInt64)))) := rfl

theorem encode_settle (payload : CompactSettlementPayload) :
    (settle payload).encode = [3] ++ (payload.resultCommitment.bytes ++ ([payload.residualSide] ++
      (le32 payload.residualLots ++ payload.settlementNonce.bytes))) := rfl

theorem head_append_drop {data : Bytes} {b : UInt8} (h : data[0]? = some b) :
    data = [b] ++ data.drop 1 := by
  cases data with
  | nil => cases h
  | cons c cs => cases h; rfl

theorem decodeInitializePool_eq {data : Bytes} (htag : data[0]? = some 0)
    (hlength : data.length = 107) :
    ∃ i, decodeInitializePool data = pure i ∧ data = i.encode := by
  simp (disch := omega) only [decodeInitializePool, Guarded.byte_eq, Guarded.array_eq, pure_bind]
  refine ⟨_, rfl, (head_append_drop htag).trans ?_⟩
  simp only [encode_initializePool, Guarded.arrayAt_bytes, le64_word64, Nat.reduceAdd]
  simp (disch := omega) only [slice_to_end, slice_append_drop, singleton_append_drop]

theorem decodeCreateEpoch_eq {data : Bytes} (htag : data[0]? = some 1) (hlength : data.length = 61) :
    ∃ i, decodeCreateEpoch data = pure i ∧ data = i.encode := by
  simp (disch := omega) only [decodeCreateEpoch, Guarded.array_eq, pure_bind]
  refine ⟨_, rfl, (head_append_drop htag).trans ?_⟩
  simp only [encode_createEpoch, Guarded.arrayAt_bytes, le64_word64, le32_word32,
    UInt64.toUInt64_toInt64, Nat.reduceAdd]
  simp (disch := omega) only [slice_to_end, slice_append_drop]

theorem decodeSettle_eq {data : Bytes} (htag : data[0]? = some 3) (hlength : data.length = 70) :
    ∃ i, decodeSettle data = pure i ∧ data = i.encode := by
  simp (disch := omega) only [decodeSettle, Guarded.byte_eq, Guarded.array_eq, pure_bind]
  refine ⟨_, rfl, (head_append_drop htag).trans ?_⟩
  simp only [encode_settle, Guarded.arrayAt_bytes, le32_word32, Nat.reduceAdd]
  simp (disch := omega) only [slice_to_end, slice_append_drop, singleton_append_drop]

/-- The version of the payload is the one check that a lock of the right length can still fail. -/
theorem decodeLock_cases {data : Bytes} (htag : data[0]? = some 2) (hlength : data.length = 1 + 173) :
    (∃ i, decodeLock data = pure i ∧ data = i.encode) ∨
      decodeLock data = Guarded.check (.error invalid) ∧
        LockPayloadV1.decode (data.drop 1) = none := by
  rw [decodeLock, Guarded.slice_eq (by omega) (le_refl _), pure_bind, slice_to_end (le_refl _),
    LockPayloadV1.decodeAt_eq]
  cases hdecode : LockPayloadV1.decode (data.drop 1) with
  | none => exact .inr ⟨rfl, rfl⟩
  | some payload =>
    refine .inl ⟨.lock payload, rfl, (head_append_drop htag).trans ?_⟩
    rw [Codec.read_eq_some.mp hdecode]
    rfl

theorem ne_encode {data : Bytes}
    (h : ∀ i : KagebInstruction, ¬(data[0]? = some i.tag ∧ data.length = i.width))
    (i : KagebInstruction) : data ≠ i.encode := by
  rintro rfl
  exact h i ⟨i.encode_tag, i.encode_width⟩

theorem decodeAt_eq (data : Bytes) : decodeAt data = Guarded.check (decode data) := by
  refine Guarded.eq_check (e := invalid) (fun i => decode_eq_ok) ?_ ?_
  · intro e he
    exact (okOr_eq_error.mp he).2.symm
  unfold decodeAt
  cases htag : data[0]? with
  | none => exact .inr ⟨rfl, ne_encode fun i h => nomatch htag.symm.trans h.1⟩
  | some b =>
    dsimp only
    split_ifs with h0 h1 h2 h3 h4 h5
    · exact .inl (decodeInitializePool_eq (h0.1 ▸ htag) h0.2)
    · exact .inl (decodeCreateEpoch_eq (h1.1 ▸ htag) h1.2)
    · refine (decodeLock_cases (h2.1 ▸ htag) h2.2).imp_right fun ⟨herror, hnone⟩ => ⟨herror, ?_⟩
      rintro i rfl
      obtain rfl : b = i.tag := Option.some.inj (htag.symm.trans i.encode_tag)
      cases i with
      | lock payload => cases hnone.symm.trans (Codec.read_encode LockPayloadV1.layout payload)
      | initializePool | createEpoch | settle | expire | abort => simp [tag] at h2
    · exact .inl (decodeSettle_eq (h3.1 ▸ htag) h3.2)
    · refine .inl ⟨.expire, rfl, (head_append_drop (h4.1 ▸ htag)).trans ?_⟩
      rw [List.drop_of_length_le (by omega)]
      rfl
    · refine .inl ⟨.abort, rfl, (head_append_drop (h5.1 ▸ htag)).trans ?_⟩
      rw [List.drop_of_length_le (by omega)]
      rfl
    · refine .inr ⟨rfl, ne_encode ?_⟩
      rintro i ⟨htag', hwidth⟩
      obtain rfl : b = i.tag := Option.some.inj (htag.symm.trans htag')
      cases i with
      | initializePool => exact h0 ⟨rfl, hwidth⟩
      | createEpoch => exact h1 ⟨rfl, hwidth⟩
      | lock => exact h2 ⟨rfl, hwidth⟩
      | settle => exact h3 ⟨rfl, hwidth⟩
      | expire => exact h4 ⟨rfl, hwidth⟩
      | abort => exact h5 ⟨rfl, hwidth⟩

end KagebInstruction

/-- The writers and the readers of the program agree byte for byte: what is written is read back,
what is read is what would be written, and no access is out of range. A string is at most one kind of
account, and its first byte says which instruction it is. -/
theorem formats_exact :
    Exact PoolStateV1.encodeAt PoolStateV1.decodeAt ∧
    Exact EpochStateV1.encodeAt EpochStateV1.decodeAt ∧
    Exact KagebInstruction.encodeAt KagebInstruction.decodeAt ∧
    Exact EpochConfigurationV1.encodeAt EpochConfigurationV1.decodeAt ∧
    Exact LockPayloadV1.encodeAt LockPayloadV1.decodeAt ∧
    Exact SettlementPayloadV1.encodeAt SettlementPayloadV1.decodeAt ∧
    (∀ bs p e, ¬(PoolStateV1.decodeAt bs = pure p ∧ EpochStateV1.decodeAt bs = pure e)) ∧
    ∀ bs i, KagebInstruction.decodeAt bs = pure i → bs[0]? = some i.tag := by
  have hpool : Exact PoolStateV1.encodeAt PoolStateV1.decodeAt :=
    .of_decode (fun _ _ => PoolStateV1.decode_eq_ok) PoolStateV1.encodeAt_eq PoolStateV1.decodeAt_eq
  have hepoch : Exact EpochStateV1.encodeAt EpochStateV1.decodeAt :=
    .of_decode (fun _ _ => EpochStateV1.decode_eq_ok) EpochStateV1.encodeAt_eq
      EpochStateV1.decodeAt_eq
  have hinstruction : Exact KagebInstruction.encodeAt KagebInstruction.decodeAt :=
    .of_decode (fun _ _ => KagebInstruction.decode_eq_ok) KagebInstruction.encodeAt_eq
      KagebInstruction.decodeAt_eq
  refine ⟨hpool, hepoch, hinstruction, ?_, ?_, ?_, ?_, ?_⟩
  · exact .of_decode (fun _ _ => okOr_eq_ok.trans Codec.read_eq_some)
      EpochConfigurationV1.encodeAt_eq EpochConfigurationV1.decodeAt_eq
  · exact .of_decode (fun _ _ => okOr_eq_ok.trans Codec.read_eq_some) LockPayloadV1.encodeAt_eq
      LockPayloadV1.decodeAt_eq
  · exact .of_decode (fun _ _ => okOr_eq_ok.trans Codec.read_eq_some)
      SettlementPayloadV1.encodeAt_eq SettlementPayloadV1.decodeAt_eq
  · rintro bs p e ⟨hp, he⟩
    have hp' := hpool.reads bs p hp
    have he' := hepoch.reads bs e he
    rw [PoolStateV1.encodeAt_eq] at hp'
    rw [EpochStateV1.encodeAt_eq] at he'
    exact p.encode_ne_epoch e (Option.some.inj (hp'.trans he'.symm))
  · intro bs i hi
    have hwrite := hinstruction.reads bs i hi
    rw [KagebInstruction.encodeAt_eq] at hwrite
    rw [← Option.some.inj hwrite, i.encode_tag]

end Kageb
