import HostedEngineHa.Services

/-! Corruption detection in `get_services`: a changed byte of a block's header, record or CRC
is caught; one in the `(0, 0)` sentinel can let stale bytes parse as valid. -/
namespace HostedEngineHa.BlockBackend

theorem getServicesStep_congr (device changed : Bytes) (offset position : Nat)
    (services : Services)
    (same : readAt changed position blocksize = readAt device position blocksize) :
    getServicesStep changed offset position services =
      getServicesStep device offset position services := by
  simp only [getServicesStep, same]

theorem getServicesStep_of_invalid (device : Bytes) (offset position : Nat) (services : Services)
    (parsed : BlockInfo) (parse : parseMetaBlock (readAt device position blocksize) = .ok parsed)
    (invalid : parsed.valid = false) :
    getServicesStep device offset position services =
      .raise (.corrupted (position + (readAt device position blocksize).length)) := by
  simp [getServicesStep, parse, invalid]

/-- A device that agrees with a laid-out chain on its first `i` blocks runs the loop through
them as the chain does, and reaches block `i` with their table. -/
theorem getServicesLoop_chain_prefix (device changed : Bytes) (records : List InfoRecord)
    (layout : ChainLayout device records) (i : Nat) (bound : i < records.length)
    (agree : ∀ j < i,
      readAt changed (j * blocksize) blocksize = readAt device (j * blocksize) blocksize)
    (fuel j : Nat) (reached : j ≤ i) :
    getServicesLoop changed 0 fuel (j * blocksize) (recordTable (records.take j)) =
      if fuel ≤ i - j then none
      else getServicesLoop changed 0 (fuel - (i - j)) (i * blocksize)
        (recordTable (records.take i)) := by
  induction fuel generalizing j with
  | zero => simp [getServicesLoop]
  | succ fuel ih =>
    rcases Nat.eq_or_lt_of_le reached with rfl | before
    · simp
    · rw [getServicesLoop_succ, getServicesStep_congr _ _ _ _ _ (agree j before),
        getServicesStep_chain device records layout j (by omega)]
      simp only [if_pos (show j + 1 < records.length by omega)]
      rw [ih (j + 1) before]
      by_cases early : fuel ≤ i - (j + 1)
      · rw [if_pos early, if_pos (by omega)]
      · rw [if_neg early, if_neg (by omega), show fuel - (i - (j + 1)) = fuel + 1 - (i - j) by omega]

theorem parseMetaBlock_set_record (next : Nat) (name : Bytes) (piece : Piece) (tail : Bytes)
    (k : Nat) (inRecord : k < headerSize + dataSize) (byte : UInt8)
    (changed : (infoBlockBytes next name [piece])[k]? ≠ some byte)
    (keepsRecord : readAt ((infoBlockBytes next name [piece]).set k byte) headerSize dataSize ≠
      List.replicate dataSize 0) :
    ∃ parsed, parseMetaBlock ((infoBlockBytes next name [piece]).set k byte ++ tail) =
      .ok parsed ∧ parsed.valid = false := by
  set headerAndPiece := packUnsigned 8 next ++ packPascal name ++ packPiece piece
  have length : headerAndPiece.length = headerSize + dataSize := by
    simp [headerAndPiece, headerSize, dataSize]
  have record : recordBytes next name [piece] = headerAndPiece ++ packPiece (0, 0) := by
    simp [recordBytes, headerAndPiece]
  have layout : (infoBlockBytes next name [piece]).set k byte = headerAndPiece.set k byte ++
      (packPiece (0, 0) ++ packUnsigned 4 (crc32 (recordBytes next name [piece]))) := by
    rw [infoBlockBytes, record, List.append_assoc, List.set_append_left _ _ (by omega)]
  set header := (headerAndPiece.set k byte).take headerSize
  set pieceBytes := (headerAndPiece.set k byte).drop headerSize
  have pieceLength : pieceBytes.length = dataSize := by simp [pieceBytes, length]
  have split : headerAndPiece.set k byte = header ++
      ([(unpackUnsigned (pieceBytes.take 8), unpackUnsigned (pieceBytes.drop 8))].map
        packPiece).flatten := by
    simp only [List.map_cons, List.map_nil, List.flatten_cons, List.flatten_nil, List.append_nil,
      packPiece_unpack pieceBytes pieceLength, header, pieceBytes, List.take_append_drop]
  have notSentinel : (unpackUnsigned (pieceBytes.take 8), unpackUnsigned (pieceBytes.drop 8)) ≠
      (0, 0) := by
    intro zero
    apply keepsRecord
    rw [layout, readAt, List.drop_append_of_le_length (by simp [length]), List.take_left' pieceLength,
      ← packPiece_unpack pieceBytes pieceLength, zero, packPiece_zero]
  have bounded : ∀ p ∈ [(unpackUnsigned (pieceBytes.take 8), unpackUnsigned (pieceBytes.drop 8))],
      p.1 < 2 ^ 64 ∧ p.2 < 2 ^ 64 := by
    simp only [List.mem_singleton, forall_eq]
    exact ⟨by simpa [pieceLength, dataSize] using unpackUnsigned_lt (pieceBytes.take 8),
      by simpa [pieceLength, dataSize] using unpackUnsigned_lt (pieceBytes.drop 8)⟩
  have parse := parseMetaBlock_layout header _ (crc32 (recordBytes next name [piece])) tail
    (by simp [header, length]) (crc32_lt _) bounded (by simpa using notSentinel)
  simp only [List.append_assoc] at parse
  rw [layout, split]
  simp only [List.append_assoc]
  refine ⟨_, parse, ?_⟩
  have bound : k < headerAndPiece.length := by omega
  obtain ⟨before, after, whole, -, changedAt⟩ := @List.exists_of_set _ k byte headerAndPiece bound
  have different : byte ≠ headerAndPiece[k] := fun same => changed (by
    rw [infoBlockBytes, record, List.append_assoc, List.getElem?_append_left (by omega),
      List.getElem?_eq_getElem bound, same])
  rw [beq_eq_false_iff_ne, ← List.append_assoc, ← split, record, changedAt, whole,
    List.append_assoc, List.append_assoc, List.cons_append, List.cons_append]
  exact crc32_ne_of_byte_ne before _ byte _ different

theorem parseMetaBlock_set_crc (next : Nat) (name : Bytes) (piece : Piece) (tail : Bytes)
    (nextBound : next < 2 ^ 64) (short : name.length ≤ 63)
    (pieceBound : piece.1 < 2 ^ 64 ∧ piece.2 < 2 ^ 64) (started : piece ≠ (0, 0))
    (k : Nat) (inCrc : headerSize + 2 * dataSize ≤ k ∧ k < headerSize + 2 * dataSize + 4)
    (byte : UInt8) (changed : (infoBlockBytes next name [piece])[k]? ≠ some byte) :
    ∃ parsed, parseMetaBlock ((infoBlockBytes next name [piece]).set k byte ++ tail) =
      .ok parsed ∧ parsed.valid = false := by
  have recordLength : (recordBytes next name [piece]).length = headerSize + 2 * dataSize := by
    simp; omega
  set stored := (packUnsigned 4 (crc32 (recordBytes next name [piece]))).set
    (k - (recordBytes next name [piece]).length) byte
  have repack : packUnsigned 4 (unpackUnsigned stored) = stored := by
    simpa [stored] using packUnsigned_unpackUnsigned stored
  have layout : (infoBlockBytes next name [piece]).set k byte =
      recordBytes next name [piece] ++ packUnsigned 4 (unpackUnsigned stored) := by
    rw [infoBlockBytes, List.set_append_right _ _ (by omega), repack]
  have parse := parseMetaBlock_recordBytes next name [piece] (unpackUnsigned stored) tail
    nextBound short (by simpa [stored] using unpackUnsigned_lt stored) (by simpa using pieceBound)
    (by simpa using started)
  rw [layout, List.append_assoc, parse]
  refine ⟨_, rfl, ?_⟩
  rw [beq_eq_false_iff_ne]
  intro same
  apply changed
  rw [infoBlockBytes, List.getElem?_append_right (by omega), same, repack,
    List.getElem?_set_self (by simp; omega)]

/-- A single changed byte in the header, the data-area record or the CRC of info block `i`
that `create` wrote over any prior content, as long as it leaves the record other than
sixteen zero bytes, is detected: `get_services` runs as before through blocks `0 .. i - 1`
and raises `BlockBackendCorruptedException` at block `i`, never returning a table. -/
theorem getServices_detects_changed_byte (serviceMap : List (Bytes × Nat)) (device : Bytes)
    (distinct : (serviceMap.map Prod.fst).Nodup) (short : ∀ entry ∈ serviceMap, entry.1.length ≤ 63)
    (fits : ∀ record ∈ infoRecords serviceMap, record.start < 2 ^ 64 ∧ record.length < 2 ^ 64)
    (i k : Nat) (block : i < serviceMap.length) (covered : k < 88 ∨ 104 ≤ k ∧ k < 108)
    (byte : UInt8)
    (changed : (writeBlocks device ((infoRecords serviceMap).map InfoRecord.bytes))[i * blocksize + k]?
      ≠ some byte)
    (keepsRecord : readAt ((writeBlocks device ((infoRecords serviceMap).map InfoRecord.bytes)).set
      (i * blocksize + k) byte) (i * blocksize + headerSize) dataSize ≠ List.replicate dataSize 0)
    (fuel : Nat) :
    (fuel ≤ i → getServices fuel ((writeBlocks device
        ((infoRecords serviceMap).map InfoRecord.bytes)).set (i * blocksize + k) byte) 0 = none) ∧
      (i < fuel → ∃ position, getServices fuel ((writeBlocks device
        ((infoRecords serviceMap).map InfoRecord.bytes)).set (i * blocksize + k) byte) 0 =
          some (.error (.corrupted position))) := by
  set written := writeBlocks device ((infoRecords serviceMap).map InfoRecord.bytes)
  set records := infoRecords serviceMap
  have layout : ChainLayout written records := chainLayout_create serviceMap device distinct short fits
  have bound : i < records.length := by rw [length_infoRecords]; exact block
  have inBlock : k < records[i].bytes.length := by rw [length_infoRecordBytes]; omega
  obtain ⟨tail, read⟩ := layout.blocks i bound
  have readChanged : readAt (written.set (i * blocksize + k) byte) (i * blocksize) blocksize =
      records[i].bytes.set k byte ++ tail := by
    rw [readAt_set, read, List.set_append_left _ _ inBlock]
  have changedBlock : records[i].bytes[k]? ≠ some byte := by
    rw [← List.getElem?_append_left inBlock, ← read, getElem?_readAt,
      if_pos (by simp only [blocksize]; omega)]
    exact changed
  have keeps : readAt (records[i].bytes.set k byte) headerSize dataSize ≠
      List.replicate dataSize 0 := by
    rw [← readAt_append_of_le _ tail _ _ (by simp [length_infoRecordBytes, headerSize, dataSize]),
      ← readChanged, readAt_readAt _ _ _ _ _ (by simp [headerSize, dataSize, blocksize])]
    exact keepsRecord
  obtain ⟨parsed, parse, invalid⟩ : ∃ parsed,
      parseMetaBlock (records[i].bytes.set k byte ++ tail) = .ok parsed ∧ parsed.valid = false := by
    obtain ⟨⟨nextBound, startBound, lengthBound⟩, short, started⟩ :=
      layout.wellFormed records[i] (List.getElem_mem bound)
    rcases covered with inRecord | inCrc
    · exact parseMetaBlock_set_record _ _ _ tail k (by simp only [headerSize, dataSize]; omega) byte
        changedBlock keeps
    · exact parseMetaBlock_set_crc _ _ _ tail nextBound short ⟨startBound, lengthBound⟩
        (by simp [started]) k (by simp only [headerSize, dataSize]; omega) byte changedBlock
  have step := getServicesStep_of_invalid (written.set (i * blocksize + k) byte) 0 (i * blocksize)
    (recordTable (records.take i)) parsed (by rw [readChanged]; exact parse) invalid
  have loop := getServicesLoop_chain_prefix written (written.set (i * blocksize + k) byte) records
    layout i bound (fun j before => readAt_set_of_apart _ _ _ _ _
      (.inr (by simp only [blocksize]; omega))) fuel 0 (Nat.zero_le i)
  simp only [Nat.zero_mul, List.take_zero, Nat.sub_zero] at loop
  rw [getServices, show ([] : Services) = recordTable [] from rfl, loop]
  refine ⟨fun early => if_pos early, fun late => ?_⟩
  obtain ⟨rest, more⟩ : ∃ rest, fuel - i = rest + 1 := ⟨fuel - i - 1, by omega⟩
  rw [if_neg (by omega), more, getServicesLoop_succ, step]
  exact ⟨_, rfl⟩

def metadataName : Bytes := [109, 101, 116, 97, 100, 97, 116, 97]

def metadataServiceMap : List (Bytes × Nat) := [(metadataName, 1048576)]

theorem getServices_detects_changed_next_byte :
    (metadataServiceMap.map Prod.fst).Nodup ∧ (∀ entry ∈ metadataServiceMap, entry.1.length ≤ 63) ∧
      (∀ record ∈ infoRecords metadataServiceMap,
        record.start < 2 ^ 64 ∧ record.length < 2 ^ 64) ∧
      0 < metadataServiceMap.length ∧
      (writeBlocks (List.replicate 108 0)
        ((infoRecords metadataServiceMap).map InfoRecord.bytes))[0 * blocksize + 0]? ≠ some 1 ∧
      readAt ((writeBlocks (List.replicate 108 0)
        ((infoRecords metadataServiceMap).map InfoRecord.bytes)).set (0 * blocksize + 0) 1)
          (0 * blocksize + headerSize) dataSize ≠ List.replicate dataSize 0 ∧
      ∃ position, getServices 1 ((writeBlocks (List.replicate 108 0)
        ((infoRecords metadataServiceMap).map InfoRecord.bytes)).set (0 * blocksize + 0) 1) 0 =
          some (.error (.corrupted position)) := by
  have distinct : (metadataServiceMap.map Prod.fst).Nodup := by decide
  have short : ∀ entry ∈ metadataServiceMap, entry.1.length ≤ 63 := by decide
  have fits : ∀ record ∈ infoRecords metadataServiceMap,
      record.start < 2 ^ 64 ∧ record.length < 2 ^ 64 := by decide
  have block : 0 < metadataServiceMap.length := by decide
  have changed : (writeBlocks (List.replicate 108 0)
      ((infoRecords metadataServiceMap).map InfoRecord.bytes))[0 * blocksize + 0]? ≠ some 1 := by
    decide
  have keeps : readAt ((writeBlocks (List.replicate 108 0)
      ((infoRecords metadataServiceMap).map InfoRecord.bytes)).set (0 * blocksize + 0) 1)
        (0 * blocksize + headerSize) dataSize ≠ List.replicate dataSize 0 := by
    decide
  exact ⟨distinct, short, fits, block, changed, keeps,
    (getServices_detects_changed_byte metadataServiceMap (List.replicate 108 0) distinct short fits
      0 0 block (.inl (by decide)) 1 changed keeps 1).2 block⟩

def metadataCrc : Nat := crc32 (recordBytes 0 metadataName [(1, 2048)])

/-- What the scan reads from that block once byte 95, the last byte of the sentinel's start,
is changed to 1: the service's piece, the sentinel turned into the piece `(1, 0)`, and the stored
CRC followed by four prior bytes as the start of a third piece. -/
def sentinelForgedPieces : List Piece :=
  [(1, 2048), (1, 0), (unpackUnsigned (packUnsigned 4 metadataCrc ++ [0, 0, 0, 1]), 0)]

/-- Prior device content whose bytes after the 108 that `create` writes complete those pieces,
followed by a sentinel and the CRC of everything before it. -/
def sentinelStaleDevice : Bytes :=
  List.replicate 108 0 ++ ([0, 0, 0, 1] ++ List.replicate 8 0 ++ packPiece (0, 0) ++
    packUnsigned 4 (crc32 (recordBytes 0 metadataName sentinelForgedPieces)))

theorem getServices_accepts_changed_sentinel :
    (metadataServiceMap.map Prod.fst).Nodup ∧ (∀ entry ∈ metadataServiceMap, entry.1.length ≤ 63) ∧
      (∀ record ∈ infoRecords metadataServiceMap,
        record.start < 2 ^ 64 ∧ record.length < 2 ^ 64) ∧
      (writeBlocks sentinelStaleDevice
        ((infoRecords metadataServiceMap).map InfoRecord.bytes))[0 * blocksize + 95]? = some 0 ∧
      getServices 1 ((writeBlocks sentinelStaleDevice
        ((infoRecords metadataServiceMap).map InfoRecord.bytes)).set (0 * blocksize + 95) 1) 0 =
        some (.ok [(metadataName, sentinelForgedPieces)]) := by
  have records : infoRecords metadataServiceMap = [⟨0, metadataName, 1, 2048⟩] := rfl
  set header := packUnsigned 8 0 ++ packPascal metadataName
  have written : writeBlocks sentinelStaleDevice
      ((infoRecords metadataServiceMap).map InfoRecord.bytes) =
      header ++ packPiece (1, 2048) ++ (packPiece (0, 0) ++ (packUnsigned 4 metadataCrc ++
        ([0, 0, 0, 1] ++ List.replicate 8 0 ++ packPiece (0, 0) ++
          packUnsigned 4 (crc32 (recordBytes 0 metadataName sentinelForgedPieces))))) := by
    rw [records, List.map_singleton, writeBlocks, writeBlocksFrom, writeBlocksFrom, Nat.zero_mul,
      sentinelStaleDevice, writeAt_zero_append _ _ _ (by rw [length_infoRecordBytes]; rfl)]
    simp only [InfoRecord.bytes, infoBlockBytes, recordBytes, metadataCrc, header, List.map_cons,
      List.map_nil, List.flatten_cons, List.flatten_nil, List.append_nil, List.append_assoc]
  have headerLength : (header ++ packPiece (1, 2048)).length = 88 := by simp [header, dataSize]
  have setAt : 0 * blocksize + 95 = (header ++ packPiece (1, 2048)).length + 7 := by
    rw [headerLength]; rfl
  have third : packPiece (unpackUnsigned (packUnsigned 4 metadataCrc ++ [0, 0, 0, 1]), 0) =
      packUnsigned 4 metadataCrc ++ [0, 0, 0, 1] ++ List.replicate 8 0 := by
    rw [packPiece, show packUnsigned 8 (unpackUnsigned (packUnsigned 4 metadataCrc ++ [0, 0, 0, 1])) =
      packUnsigned 4 metadataCrc ++ [0, 0, 0, 1] by
        simpa using packUnsigned_unpackUnsigned (packUnsigned 4 metadataCrc ++ [0, 0, 0, 1])]
    rfl
  have forged : header ++ packPiece (1, 2048) ++ (packPiece (1, 0) ++ (packUnsigned 4 metadataCrc ++
      ([0, 0, 0, 1] ++ List.replicate 8 0 ++ packPiece (0, 0) ++
        packUnsigned 4 (crc32 (recordBytes 0 metadataName sentinelForgedPieces))))) =
      infoBlockBytes 0 metadataName sentinelForgedPieces := by
    simp only [infoBlockBytes, recordBytes, sentinelForgedPieces, List.map_cons, List.map_nil,
      List.flatten_cons, List.flatten_nil, List.append_nil, third, List.append_assoc, header]
  have bounded : ∀ p ∈ sentinelForgedPieces, p.1 < 2 ^ 64 ∧ p.2 < 2 ^ 64 := by
    have thirdBound : unpackUnsigned (packUnsigned 4 metadataCrc ++ [0, 0, 0, 1]) < 2 ^ 64 := by
      simpa using unpackUnsigned_lt (packUnsigned 4 metadataCrc ++ [0, 0, 0, 1])
    simp only [sentinelForgedPieces, List.mem_cons, List.mem_singleton, List.not_mem_nil, or_false]
    rintro p (rfl | rfl | rfl)
    exacts [⟨by decide, by decide⟩, ⟨by decide, by decide⟩, ⟨thirdBound, by decide⟩]
  have noSentinel : ∀ p ∈ sentinelForgedPieces, p ≠ (0, 0) := by
    have low : unpackUnsigned [0, 0, 0, 1] = 1 := rfl
    simp [sentinelForgedPieces, unpackUnsigned_append, low]
  have read : readAt (infoBlockBytes 0 metadataName sentinelForgedPieces) 0 blocksize =
      infoBlockBytes 0 metadataName sentinelForgedPieces ++ [] := by
    rw [readAt, List.drop_zero, List.append_nil, List.take_of_length_le
      (by simp [infoBlockBytes, sentinelForgedPieces, headerSize, dataSize, blocksize])]
  rw [written, setAt]
  refine ⟨by decide, by decide, by decide, ?_, ?_⟩
  · rw [List.getElem?_append_right (by omega), Nat.add_sub_cancel_left,
      List.getElem?_append_left (by simp [dataSize])]
    rfl
  · rw [List.set_append_right _ _ (by omega), Nat.add_sub_cancel_left,
      List.set_append_left _ _ (by simp [dataSize]),
      show (packPiece (0, 0)).set 7 1 = packPiece (1, 0) by decide, forged, getServices,
      getServicesLoop_succ, getServicesStep_of_block _ 0 0 [] 0 metadataName sentinelForgedPieces []
        read (by decide) (by decide) bounded noSentinel]
    rfl

end HostedEngineHa.BlockBackend
