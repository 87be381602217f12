import HostedEngineHa.InfoBlock

/-! What `parse_meta_block` accepts, read backwards: re-encoding a valid record gives the
block's bytes back exactly when its name field is the canonical `64p` one. -/
namespace HostedEngineHa.BlockBackend

theorem unpackFrom_eq_ok (size : Nat) (buffer : Bytes) (offset : Nat) (bytes : Bytes)
    (unpacked : unpackFrom size buffer offset = .ok bytes) :
    offset + size ≤ buffer.length ∧ bytes = readAt buffer offset size := by
  unfold unpackFrom at unpacked
  split at unpacked
  · exact ⟨by assumption, (Except.ok.inj unpacked).symm⟩
  · cases unpacked

theorem readAt_record (block : Bytes) (seek : Nat) (inside : seek + dataSize ≤ block.length) :
    readAt block seek dataSize = packPiece (unpackUnsigned (readAt block seek 8),
      unpackUnsigned (readAt block (seek + 8) 8)) := by
  have first : (readAt block seek 8).length = 8 := by
    simp only [length_readAt, dataSize] at inside ⊢; omega
  rw [← packPiece_unpack (readAt block seek dataSize)
    (by simp only [length_readAt, dataSize] at inside ⊢; omega)]
  simp only [dataSize, show 16 = 8 + 8 from rfl, readAt_add, List.take_left' first,
    List.drop_left' first]

theorem scanPieces_eq_ok (block : Bytes) (records seek : Nat) (pieces : List Piece) (last : Nat)
    (fits : seek + dataSize * records ≤ block.length)
    (scanned : scanPieces block records seek = .ok (pieces, last)) :
    last = seek + dataSize * (pieces.length + 1) ∧
      readAt block seek (dataSize * (pieces.length + 1)) =
        (pieces.map packPiece).flatten ++ packPiece (0, 0) := by
  induction records generalizing seek pieces with
  | zero => cases scanned
  | succ records ih =>
    have record := readAt_record block seek (by rw [Nat.mul_succ] at fits; omega)
    simp only [scanPieces] at scanned
    split at scanned
    · rename_i sentinel
      rw [sentinel.1, sentinel.2] at record
      cases scanned
      simp [record]
    · cases rest : scanPieces block records (seek + dataSize) with
      | error error => simp [rest, Except.map] at scanned
      | ok result =>
        obtain ⟨pieces', last'⟩ := result
        simp only [rest, Except.map, Except.ok.injEq, Prod.mk.injEq] at scanned
        obtain ⟨rfl, rfl⟩ := scanned
        obtain ⟨lastEq, bytes⟩ := ih (seek + dataSize) pieces' (by rw [Nat.mul_succ] at fits; omega)
          rest
        refine ⟨by rw [lastEq, List.length_cons]; ring, ?_⟩
        rw [List.length_cons, show dataSize * (pieces'.length + 1 + 1) =
          dataSize + dataSize * (pieces'.length + 1) by ring, readAt_add, record, bytes]
        simp

theorem parseMetaBlock_eq_ok (block : Bytes) (info : BlockInfo)
    (parsed : parseMetaBlock block = .ok info) :
    ∃ stored, info.name = unpackPascal (readAt block 8 64) ∧
      packUnsigned 8 info.next ++ readAt block 8 64 ++ (info.pieces.map packPiece).flatten ++
        packPiece (0, 0) ++ packUnsigned 4 stored <+: block ∧
      info.valid = decide (crc32 (packUnsigned 8 info.next ++ readAt block 8 64 ++
        (info.pieces.map packPiece).flatten ++ packPiece (0, 0)) = stored) := by
  simp only [parseMetaBlock, bind, Except.bind] at parsed
  split at parsed
  · cases parsed
  rename_i header readHeader
  split at parsed
  · cases parsed
  rename_i scanned readPieces
  obtain ⟨pieces, last⟩ := scanned
  split at parsed
  · cases parsed
  rename_i expected readCrc
  cases parsed
  obtain ⟨headerFits, rfl⟩ := unpackFrom_eq_ok _ _ _ _ readHeader
  obtain ⟨crcFits, rfl⟩ := unpackFrom_eq_ok _ _ _ _ readCrc
  obtain ⟨rfl, records⟩ := scanPieces_eq_ok block _ headerSize pieces last
    (by simp only [headerSize, dataSize] at headerFits ⊢; omega) readPieces
  have nextField : (readAt block 0 8).length = 8 := by
    simp only [length_readAt, headerSize] at headerFits ⊢; omega
  have header : readAt block 0 headerSize = readAt block 0 8 ++ readAt block 8 64 := by
    rw [show headerSize = 8 + 64 from rfl, readAt_add]
  have next : packUnsigned 8 (unpackUnsigned (readAt block 0 8)) = readAt block 0 8 := by
    simpa [nextField] using packUnsigned_unpackUnsigned (readAt block 0 8)
  have crcField : (readAt block (headerSize + dataSize * (pieces.length + 1)) 4).length = 4 := by
    simp only [length_readAt]; omega
  have crc := packUnsigned_unpackUnsigned (readAt block (headerSize + dataSize *
    (pieces.length + 1)) 4)
  rw [crcField] at crc
  have record : block.take (headerSize + dataSize * (pieces.length + 1)) =
      readAt block 0 8 ++ readAt block 8 64 ++ (pieces.map packPiece).flatten ++ packPiece (0, 0) := by
    rw [← List.drop_zero block, ← readAt, readAt_add, header, Nat.zero_add, records]
    simp
  refine ⟨unpackUnsigned (readAt block (headerSize + dataSize * (pieces.length + 1)) 4), ?_, ?_, ?_⟩
  · rw [header, List.drop_left' nextField]
  · rw [header, List.take_left' nextField, next, crc, ← record, readAt, ← List.take_add]
    exact List.take_prefix _ _
  · rw [header, List.take_left' nextField, next, ← record]
    exact Bool.eq_iff_iff.mpr (by simp only [beq_iff_eq, decide_eq_true_eq])

theorem readAt_of_front (front block : Bytes) (pos n : Nat) (isPrefix : front <+: block)
    (within : pos + n ≤ front.length) : readAt block pos n = readAt front pos n := by
  obtain ⟨rest, rfl⟩ := isPrefix
  exact readAt_append_of_le front rest pos n within

theorem readAt_infoBlockBytes_name (next : Nat) (name : Bytes) (pieces : List Piece) :
    readAt (infoBlockBytes next name pieces) 8 64 = packPascal name := by
  have fields := readAt_middle (packUnsigned 8 next) (packPascal name)
    ((pieces.map packPiece).flatten ++ packPiece (0, 0) ++
      packUnsigned 4 (crc32 (recordBytes next name pieces)))
  simp only [length_packUnsigned, length_packPascal] at fields
  simpa [infoBlockBytes, recordBytes] using fields

/-- Re-encoding a valid record as `create_info_blocks` lays a block out, with
`BlockStructHeader.pack`, `BlockStructData.pack` and `BlockCRC.pack` of the new CRC, gives the
block's bytes from offset 0 through its CRC exactly when the block's name field is the one the
header packer writes for the decoded name. -/
theorem infoBlockBytes_prefix_iff (block : Bytes) (next : Nat) (name : Bytes)
    (pieces : List Piece) (parsed : parseMetaBlock block = .ok ⟨next, name, pieces, true⟩) :
    infoBlockBytes next name pieces <+: block ↔ readAt block 8 64 = packPascal name := by
  obtain ⟨stored, -, isPrefix, valid⟩ := parseMetaBlock_eq_ok block _ parsed
  constructor
  · intro reencoded
    rw [readAt_of_front _ _ 8 64 reencoded (by simp [infoBlockBytes, headerSize]; omega),
      readAt_infoBlockBytes_name]
  · intro canonical
    rw [canonical] at isPrefix valid
    have sameCrc : crc32 (recordBytes next name pieces) = stored := of_decide_eq_true valid.symm
    rwa [infoBlockBytes, sameCrc]

theorem infoBlockBytes_prefix_iff_one_piece :
    parseMetaBlock (infoBlockBytes 0 [] [(1, 1)] ++ List.replicate 404 0) =
        .ok ⟨0, [], [(1, 1)], true⟩ ∧
      (infoBlockBytes 0 [] [(1, 1)] <+: infoBlockBytes 0 [] [(1, 1)] ++ List.replicate 404 0 ↔
        readAt (infoBlockBytes 0 [] [(1, 1)] ++ List.replicate 404 0) 8 64 = packPascal []) :=
  have parsed := parseMetaBlock_infoBlockBytes 0 [] [(1, 1)] (List.replicate 404 0) (by decide)
    (by decide) (by decide) (by decide)
  ⟨parsed, infoBlockBytes_prefix_iff _ 0 [] [(1, 1)] parsed⟩

/-- The record of an info block whose name field has the length byte 64 before 63 zero bytes:
`64p` caps the length at 63, so the name is those 63 bytes, as it is for the length byte 63
that `BlockStructHeader.pack` writes. -/
def overlongNameRecord : Bytes :=
  packUnsigned 8 0 ++ 64 :: (List.replicate 63 0 ++ packPiece (1, 1) ++ packPiece (0, 0))

def overlongNameBlock : Bytes :=
  overlongNameRecord ++ (packUnsigned 4 (crc32 overlongNameRecord) ++ List.replicate 404 0)

theorem reencode_overlongName_differs :
    parseMetaBlock overlongNameBlock = .ok ⟨0, List.replicate 63 0, [(1, 1)], true⟩ ∧
      parseMetaBlock (infoBlockBytes 0 (List.replicate 63 0) [(1, 1)] ++ List.replicate 404 0) =
        .ok ⟨0, List.replicate 63 0, [(1, 1)], true⟩ ∧
      ¬ infoBlockBytes 0 (List.replicate 63 0) [(1, 1)] <+: overlongNameBlock ∧
      crc32 (recordBytes 0 (List.replicate 63 0) [(1, 1)]) ≠ crc32 overlongNameRecord := by
  have shape : overlongNameRecord = (packUnsigned 8 0 ++ 64 :: List.replicate 63 0) ++
      ([(1, 1)].map packPiece).flatten ++ packPiece (0, 0) := by
    simp only [overlongNameRecord, List.map_cons, List.map_nil, List.flatten_cons,
      List.flatten_nil, List.append_nil, List.append_assoc, List.cons_append]
  have canonical : recordBytes 0 (List.replicate 63 0) [(1, 1)] =
      packUnsigned 8 0 ++ 63 :: (List.replicate 63 0 ++ packPiece (1, 1) ++ packPiece (0, 0)) :=
    rfl
  have parsed : parseMetaBlock overlongNameBlock = .ok ⟨0, List.replicate 63 0, [(1, 1)], true⟩ := by
    rw [overlongNameBlock, shape, parseMetaBlock_layout _ [(1, 1)] _ _ (by decide) (crc32_lt _)
      (by decide) (by decide)]
    simp only [beq_self_eq_true]
    rfl
  refine ⟨parsed, parseMetaBlock_infoBlockBytes 0 _ [(1, 1)] _ (by decide) (by decide) (by decide)
    (by decide), fun reencoded => ?_, ?_⟩
  · have field := readAt_of_front _ _ 8 64 reencoded
      (by simp [infoBlockBytes, headerSize, dataSize])
    rw [readAt_infoBlockBytes_name, overlongNameBlock, readAt_append_of_le _ _ 8 64 (by decide)]
      at field
    revert field
    decide
  · rw [canonical, overlongNameRecord]
    exact crc32_ne_of_byte_ne _ _ 63 64 (by decide)

end HostedEngineHa.BlockBackend
