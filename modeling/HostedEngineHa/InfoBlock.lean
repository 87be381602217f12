import HostedEngineHa.Crc32
import Mathlib.Data.List.Sort

/-! The self-describing info-block format of `BlockBackend`: `parse_meta_block`, and
`create_info_blocks` with its block count `bc`, which divides through a Python float. -/
namespace HostedEngineHa.BlockBackend

/-- `StorageBackend._blocksize`. -/
def blocksize : Nat := 512

def headerSize : Nat := 72

def dataSize : Nat := 16

abbrev Piece := Nat × Nat

/-- `BlockInfo = namedtuple("BlockInfo", ("next", "name", "pieces", "valid"))`. -/
structure BlockInfo where
  next : Nat
  name : Bytes
  pieces : List Piece
  valid : Bool
  deriving DecidableEq, Repr

/-- The exceptions raised on the block backend's paths, by class. `corrupted` carries the
file position in `"CRC for block ending at %d does not match data!"`. -/
inductive Raised where
  | structError (error : StructError)
  | overflowError
  | corrupted (position : Nat)
  | valueError
  deriving DecidableEq, Repr

/-- The `while True` loop of `parse_meta_block` from `seek`, where `records` counts the whole
16-byte records left in the block: `unpack_from` raises exactly when none is left. -/
def scanPieces (block : Bytes) : Nat → Nat → Except StructError (List Piece × Nat)
  | 0, _ => .error .shortBuffer
  | records + 1, seek =>
    let start := unpackUnsigned (readAt block seek 8)
    let size := unpackUnsigned (readAt block (seek + 8) 8)
    if start = size ∧ size = 0 then .ok ([], seek + dataSize)
    else (scanPieces block records (seek + dataSize)).map
      fun (pieces, seek) => ((start, size) :: pieces, seek)

def parseMetaBlock (block : Bytes) : Except StructError BlockInfo := do
  let header ← unpackFrom headerSize block 0
  let (pieces, seek) ← scanPieces block ((block.length - headerSize) / dataSize) headerSize
  let crc := crc32 (block.take seek)
  let expected ← unpackFrom 4 block seek
  return ⟨unpackUnsigned (header.take 8), unpackPascal (header.drop 8), pieces,
    crc == unpackUnsigned expected⟩

/-- `BlockStructHeader.pack(next, name)`. -/
def packHeader (next : Nat) (name : Bytes) : Except StructError Bytes := do
  return (← packQ next) ++ packPascal name

/-- `BlockStructData.pack(start, size)`. -/
def packData (start size : Nat) : Except StructError Bytes := do
  return (← packQ start) ++ (← packQ size)

/-- How many low bits `float(n)` drops: halvings until fewer than 53 significant bits are
left. Each halving at least halves `n`, so `n` of them always suffice. -/
def droppedBits (n : Nat) : Nat := go n n
where
  go : Nat → Nat → Nat
    | 0, _ => 0
    | fuel + 1, n => if n < 2 ^ 53 then 0 else go fuel (n / 2) + 1

/-- `float(n)` for a Python integer: `n` rounded to 53 significant bits, ties to even. -/
def roundToDouble (n : Nat) : Nat :=
  let shift := droppedBits n
  let kept := n / 2 ^ shift
  let dropped := n % 2 ^ shift
  let half := 2 ^ shift / 2
  (if half < dropped ∨ (dropped = half ∧ 0 < half ∧ kept % 2 = 1) then kept + 1 else kept)
    * 2 ^ shift

/-- The value of `bc(size) = int(math.ceil(size / float(512)))` when it does not overflow:
dividing a double by 512 is exact, so only the conversion `float(size)` rounds. -/
def blockCount (size : Nat) : Nat := (roundToDouble size + blocksize - 1) / blocksize

/-- `bc`: the conversion raises `OverflowError` past the largest double. -/
def bc (size : Nat) : Except Raised Nat :=
  if 2 ^ 1024 ≤ roundToDouble size then .error .overflowError else .ok (blockCount size)

/-- `range(1, data_start) + [0]`. -/
def nextLinks (count : Nat) : List Nat := List.range' 1 (count - 1) ++ [0]

/-- `service_list.sort(key=itemgetter(1))`, a stable sort on the size. -/
def sortBySize (serviceMap : List (Bytes × Nat)) : List (Bytes × Nat) :=
  serviceMap.insertionSort fun a b => a.2 ≤ b.2

/-- The loop of `create_info_blocks` over `zip(next_links, service_list)`. -/
def infoBlocksFrom : List Nat → List (Bytes × Nat) → Nat → Except Raised (List Bytes)
  | nextId :: links, (service, size) :: services, dataStart => do
    let blockLen ← bc size
    let raw ← (do
      return (← packHeader nextId service) ++ (← packData dataStart blockLen) ++
        (← packData 0 0)).mapError .structError
    let crc ← (packL (crc32 raw)).mapError .structError
    let blocks ← infoBlocksFrom links services (dataStart + blockLen)
    return (raw ++ crc) :: blocks
  | _, _, _ => return []

/-- `create_info_blocks(service_map)`, the map given as its `items()` in iteration order. -/
def createInfoBlocks (serviceMap : List (Bytes × Nat)) : Except Raised (List Bytes) :=
  infoBlocksFrom (nextLinks serviceMap.length) (sortBySize serviceMap) serviceMap.length

/-- The fields `create_info_blocks` packs into one info block. -/
structure InfoRecord where
  next : Nat
  name : Bytes
  start : Nat
  length : Nat
  deriving DecidableEq, Repr

def recordsFrom : List Nat → List (Bytes × Nat) → Nat → List InfoRecord
  | nextId :: links, (service, size) :: services, dataStart =>
    ⟨nextId, service, dataStart, blockCount size⟩ ::
      recordsFrom links services (dataStart + blockCount size)
  | _, _, _ => []

@[simp] theorem recordsFrom_nil_links (services : List (Bytes × Nat)) (dataStart : Nat) :
    recordsFrom [] services dataStart = [] := by
  cases services <;> rfl

@[simp] theorem recordsFrom_nil_services (links : List Nat) (dataStart : Nat) :
    recordsFrom links [] dataStart = [] := by
  cases links <;> rfl

@[simp] theorem recordsFrom_cons (nextId : Nat) (links : List Nat) (service : Bytes) (size : Nat)
    (services : List (Bytes × Nat)) (dataStart : Nat) :
    recordsFrom (nextId :: links) ((service, size) :: services) dataStart =
      ⟨nextId, service, dataStart, blockCount size⟩ ::
        recordsFrom links services (dataStart + blockCount size) := rfl

/-- The records of `create_info_blocks(service_map)`, in block order. -/
def infoRecords (serviceMap : List (Bytes × Nat)) : List InfoRecord :=
  recordsFrom (nextLinks serviceMap.length) (sortBySize serviceMap) serviceMap.length

def packPiece (piece : Piece) : Bytes := packUnsigned 8 piece.1 ++ packUnsigned 8 piece.2

/-- Header, data-area records and the `(0, 0)` sentinel: the bytes the CRC covers. -/
def recordBytes (next : Nat) (name : Bytes) (pieces : List Piece) : Bytes :=
  packUnsigned 8 next ++ packPascal name ++ (pieces.map packPiece).flatten ++ packPiece (0, 0)

/-- An info block as `create_info_blocks` lays it out: the record bytes and their CRC. -/
def infoBlockBytes (next : Nat) (name : Bytes) (pieces : List Piece) : Bytes :=
  recordBytes next name pieces ++ packUnsigned 4 (crc32 (recordBytes next name pieces))

@[simp] theorem length_packPiece (piece : Piece) : (packPiece piece).length = dataSize := by
  simp [packPiece, dataSize]

@[simp] theorem length_flatten_packPiece (pieces : List Piece) :
    ((pieces.map packPiece).flatten).length = dataSize * pieces.length := by
  induction pieces <;> simp [*, Nat.mul_succ, Nat.add_comm]

theorem unpackUnsigned_packUnsigned_of_lt (width value : Nat) (bound : value < 256 ^ width) :
    unpackUnsigned (packUnsigned width value) = value := by
  rw [unpackUnsigned_packUnsigned, Nat.mod_eq_of_lt bound]

theorem packPiece_zero : packPiece (0, 0) = List.replicate dataSize 0 := by decide

theorem packPiece_unpack (bytes : Bytes) (length : bytes.length = dataSize) :
    packPiece (unpackUnsigned (bytes.take 8), unpackUnsigned (bytes.drop 8)) = bytes := by
  have first : packUnsigned 8 (unpackUnsigned (bytes.take 8)) = bytes.take 8 := by
    simpa [length, dataSize] using packUnsigned_unpackUnsigned (bytes.take 8)
  have second : packUnsigned 8 (unpackUnsigned (bytes.drop 8)) = bytes.drop 8 := by
    simpa [length, dataSize] using packUnsigned_unpackUnsigned (bytes.drop 8)
  rw [packPiece, first, second, List.take_append_drop]

theorem readAt_packPiece (pre tail : Bytes) (piece : Piece)
    (bounded : piece.1 < 2 ^ 64 ∧ piece.2 < 2 ^ 64) :
    unpackUnsigned (readAt (pre ++ (packPiece piece ++ tail)) pre.length 8) = piece.1 ∧
      unpackUnsigned (readAt (pre ++ (packPiece piece ++ tail)) (pre.length + 8) 8) = piece.2 := by
  have first := readAt_middle pre (packUnsigned 8 piece.1) (packUnsigned 8 piece.2 ++ tail)
  have second := readAt_middle (packUnsigned 8 piece.1) (packUnsigned 8 piece.2) tail
  simp only [length_packUnsigned] at first second
  simp only [packPiece, List.append_assoc, first, readAt_append, second]
  exact ⟨unpackUnsigned_packUnsigned_of_lt 8 _ bounded.1,
    unpackUnsigned_packUnsigned_of_lt 8 _ bounded.2⟩

/-- The scan loop over packed records followed by the sentinel decodes exactly those records
and stops right after the sentinel. -/
theorem scanPieces_packed (pre tail : Bytes) (pieces : List Piece) (records : Nat)
    (enough : pieces.length < records)
    (bounded : ∀ p ∈ pieces, p.1 < 2 ^ 64 ∧ p.2 < 2 ^ 64) (noSentinel : ∀ p ∈ pieces, p ≠ (0, 0)) :
    scanPieces (pre ++ ((pieces.map packPiece).flatten ++ (packPiece (0, 0) ++ tail))) records
      pre.length = .ok (pieces, pre.length + dataSize * (pieces.length + 1)) := by
  induction pieces generalizing pre records with
  | nil =>
    obtain ⟨records, rfl⟩ : ∃ r, records = r + 1 := ⟨records - 1, by omega⟩
    obtain ⟨start, size⟩ := readAt_packPiece pre tail (0, 0) (by decide)
    dsimp only at start size
    simp only [scanPieces, List.map_nil, List.flatten_nil, List.nil_append, start, size, and_self,
      if_true, List.length_nil, Nat.zero_add, Nat.mul_one]
  | cons piece pieces ih =>
    obtain ⟨records, rfl⟩ : ∃ r, records = r + 1 := ⟨records - 1, by omega⟩
    obtain ⟨start, size⟩ := readAt_packPiece pre
      ((pieces.map packPiece).flatten ++ (packPiece (0, 0) ++ tail)) piece (bounded piece (by simp))
    have notSentinel : ¬ (piece.1 = piece.2 ∧ piece.2 = 0) :=
      fun ⟨same, zero⟩ => noSentinel piece (by simp) (Prod.ext (same.trans zero) zero)
    have rest := ih (pre ++ packPiece piece) records (Nat.lt_of_succ_lt_succ enough)
      (fun p member => bounded p (by simp [member])) (fun p member => noSentinel p (by simp [member]))
    simp only [List.append_assoc, List.length_append, length_packPiece] at rest
    simp only [List.map_cons, List.flatten_cons, List.append_assoc] at start size ⊢
    rw [scanPieces]
    simp only [start, size, if_neg notSentinel, rest, Except.map, List.length_cons]
    congr 2
    simp only [dataSize]
    omega

@[simp] theorem length_recordBytes (next : Nat) (name : Bytes) (pieces : List Piece) :
    (recordBytes next name pieces).length = headerSize + dataSize * (pieces.length + 1) := by
  simp only [recordBytes, List.length_append, length_packUnsigned, length_packPascal,
    length_flatten_packPiece, length_packPiece, headerSize, dataSize]
  omega

theorem parseMetaBlock_layout (header : Bytes) (pieces : List Piece) (crc : Nat) (tail : Bytes)
    (headerLength : header.length = headerSize) (crcBound : crc < 2 ^ 32)
    (bounded : ∀ p ∈ pieces, p.1 < 2 ^ 64 ∧ p.2 < 2 ^ 64) (noSentinel : ∀ p ∈ pieces, p ≠ (0, 0)) :
    parseMetaBlock (header ++ (pieces.map packPiece).flatten ++ packPiece (0, 0) ++
        (packUnsigned 4 crc ++ tail)) =
      .ok ⟨unpackUnsigned (header.take 8), unpackPascal (header.drop 8), pieces,
        crc32 (header ++ (pieces.map packPiece).flatten ++ packPiece (0, 0)) == crc⟩ := by
  set record := header ++ (pieces.map packPiece).flatten ++ packPiece (0, 0)
  have recordLength : record.length = headerSize + dataSize * (pieces.length + 1) := by
    simp only [record, List.length_append, headerLength, length_flatten_packPiece,
      length_packPiece]
    ring
  have block : record ++ (packUnsigned 4 crc ++ tail) = header ++
      ((pieces.map packPiece).flatten ++ (packPiece (0, 0) ++ (packUnsigned 4 crc ++ tail))) := by
    simp [record]
  have total : (record ++ (packUnsigned 4 crc ++ tail)).length =
      headerSize + dataSize * (pieces.length + 1) + 4 + tail.length := by
    simp only [List.length_append, recordLength, length_packUnsigned]; omega
  have readHeader : unpackFrom headerSize (record ++ (packUnsigned 4 crc ++ tail)) 0 =
      .ok header := by
    rw [unpackFrom, if_pos (by omega), block, List.drop_zero, ← headerLength, List.take_left]
  have scan := scanPieces_packed header (packUnsigned 4 crc ++ tail) pieces
    ((headerSize + dataSize * (pieces.length + 1) + 4 + tail.length - headerSize) / dataSize)
    (by simp only [dataSize]; omega) bounded noSentinel
  have seek : header.length + dataSize * (pieces.length + 1) = record.length := by
    rw [headerLength, recordLength]
  rw [← block, seek, headerLength] at scan
  have readCrc : unpackFrom 4 (record ++ (packUnsigned 4 crc ++ tail)) record.length =
      .ok (packUnsigned 4 crc) := by
    rw [unpackFrom, if_pos (by simp)]
    simp
  simp only [parseMetaBlock, readHeader, total, scan, bind, Except.bind, readCrc, List.take_left,
    unpackUnsigned_packUnsigned_of_lt 4 crc crcBound, pure, Except.pure]

theorem parseMetaBlock_recordBytes (next : Nat) (name : Bytes) (pieces : List Piece) (crc : Nat)
    (tail : Bytes) (nextBound : next < 2 ^ 64) (short : name.length ≤ 63)
    (crcBound : crc < 2 ^ 32) (bounded : ∀ p ∈ pieces, p.1 < 2 ^ 64 ∧ p.2 < 2 ^ 64)
    (noSentinel : ∀ p ∈ pieces, p ≠ (0, 0)) :
    parseMetaBlock (recordBytes next name pieces ++ (packUnsigned 4 crc ++ tail)) =
      .ok ⟨next, name, pieces, crc32 (recordBytes next name pieces) == crc⟩ := by
  have nextField : unpackUnsigned ((packUnsigned 8 next ++ packPascal name).take 8) = next := by
    simpa using unpackUnsigned_packUnsigned_of_lt 8 next nextBound
  have nameField : unpackPascal ((packUnsigned 8 next ++ packPascal name).drop 8) = name := by
    simpa using unpackPascal_packPascal name short
  rw [recordBytes, parseMetaBlock_layout _ pieces crc tail (by simp [headerSize]) crcBound bounded
    noSentinel, nextField, nameField]

theorem parseMetaBlock_infoBlockBytes (next : Nat) (name : Bytes) (pieces : List Piece)
    (tail : Bytes) (nextBound : next < 2 ^ 64) (short : name.length ≤ 63)
    (bounded : ∀ p ∈ pieces, p.1 < 2 ^ 64 ∧ p.2 < 2 ^ 64)
    (noSentinel : ∀ p ∈ pieces, p ≠ (0, 0)) :
    parseMetaBlock (infoBlockBytes next name pieces ++ tail) = .ok ⟨next, name, pieces, true⟩ := by
  rw [infoBlockBytes, List.append_assoc, parseMetaBlock_recordBytes next name pieces _ tail
    nextBound short (crc32_lt _) bounded noSentinel]
  simp

/-- The block `create_info_blocks` packs for a record: one data-area record. -/
def InfoRecord.bytes (record : InfoRecord) : Bytes :=
  infoBlockBytes record.next record.name [(record.start, record.length)]

def InfoRecord.Packable (record : InfoRecord) : Prop :=
  record.next < 2 ^ 64 ∧ record.start < 2 ^ 64 ∧ record.length < 2 ^ 64

theorem packQ_of_lt (value : Nat) (bound : value < 2 ^ 64) :
    packQ value = .ok (packUnsigned 8 value) := if_pos bound

theorem packL_crc32 (data : Bytes) : packL (crc32 data) = .ok (packUnsigned 4 (crc32 data)) :=
  if_pos (crc32_lt data)

theorem packHeader_of_lt (next : Nat) (name : Bytes) (bound : next < 2 ^ 64) :
    packHeader next name = .ok (packUnsigned 8 next ++ packPascal name) := by
  simp only [packHeader, packQ_of_lt next bound]
  rfl

theorem packData_of_lt (piece : Piece) (bounded : piece.1 < 2 ^ 64 ∧ piece.2 < 2 ^ 64) :
    packData piece.1 piece.2 = .ok (packPiece piece) := by
  simp only [packData, packQ_of_lt _ bounded.1, packQ_of_lt _ bounded.2]
  rfl

/-- `parse_meta_block` on a block laid out with the source's own packers: the bytes of
`BlockStructHeader.pack(next, name)`, of `BlockStructData.pack` for each pair and for the
sentinel, which are sixteen zero bytes, of `BlockCRC.pack(c)`, then any trailing bytes. The
fields come back as packed, and the block is valid exactly when `c` is the CRC of everything
before it. -/
theorem parseMetaBlock_of_packed (next : Nat) (name : Bytes) (pieces : List Piece) (c : Nat)
    (trailing : Bytes) (nextBound : next < 2 ^ 64) (short : name.length ≤ 63)
    (bounded : ∀ p ∈ pieces, p.1 < 2 ^ 64 ∧ p.2 < 2 ^ 64) (noSentinel : ∀ p ∈ pieces, p ≠ (0, 0))
    (crcBound : c < 2 ^ 32) :
    packHeader next name = .ok (packUnsigned 8 next ++ packPascal name) ∧
      (∀ p ∈ pieces, packData p.1 p.2 = .ok (packPiece p)) ∧
      packPiece (0, 0) = List.replicate 16 0 ∧ packL c = .ok (packUnsigned 4 c) ∧
      parseMetaBlock (recordBytes next name pieces ++ (packUnsigned 4 c ++ trailing)) =
        .ok ⟨next, name, pieces, decide (c = crc32 (recordBytes next name pieces))⟩ := by
  refine ⟨packHeader_of_lt next name nextBound, fun p member => packData_of_lt p (bounded p member),
    packPiece_zero, if_pos crcBound, ?_⟩
  rw [parseMetaBlock_recordBytes next name pieces c trailing nextBound short crcBound bounded
    noSentinel]
  congr 2
  exact Bool.eq_iff_iff.mpr (by simp only [beq_iff_eq, decide_eq_true_eq]; exact eq_comm)

theorem parseMetaBlock_of_packed_one_piece :
    parseMetaBlock (recordBytes 1 [] [(2, 3)] ++ (packUnsigned 4 0 ++ List.replicate 404 0)) =
      .ok ⟨1, [], [(2, 3)], decide (0 = crc32 (recordBytes 1 [] [(2, 3)]))⟩ :=
  (parseMetaBlock_of_packed 1 [] [(2, 3)] 0 (List.replicate 404 0) (by decide) (by decide)
    (by decide) (by decide) (by decide)).2.2.2.2

theorem bc_of_packable (size : Nat) (bound : blockCount size < 2 ^ 64) :
    bc size = .ok (blockCount size) := by
  simp only [blockCount, blocksize] at bound
  exact if_neg (by omega)

theorem infoBlocksFrom_cons_of_packable (nextId : Nat) (links : List Nat) (service : Bytes)
    (size : Nat) (services : List (Bytes × Nat)) (dataStart : Nat)
    (packable : (⟨nextId, service, dataStart, blockCount size⟩ : InfoRecord).Packable) :
    infoBlocksFrom (nextId :: links) ((service, size) :: services) dataStart =
      (infoBlocksFrom links services (dataStart + blockCount size)).map
        (InfoRecord.bytes ⟨nextId, service, dataStart, blockCount size⟩ :: ·) := by
  obtain ⟨nextBound, startBound, lengthBound⟩ := packable
  simp only [infoBlocksFrom, bc_of_packable size lengthBound, packHeader, packData,
    packQ_of_lt _ nextBound, packQ_of_lt _ startBound, packQ_of_lt _ lengthBound,
    packQ_of_lt 0 (by decide), packL_crc32, bind, Except.bind, pure, Except.pure, Except.mapError]
  cases infoBlocksFrom links services (dataStart + blockCount size) <;>
    simp [Except.map, InfoRecord.bytes, infoBlockBytes, recordBytes, packPiece]

theorem infoBlocksFrom_cons_of_not_packable (nextId : Nat) (links : List Nat) (service : Bytes)
    (size : Nat) (services : List (Bytes × Nat)) (dataStart : Nat)
    (unpackable : ¬ (⟨nextId, service, dataStart, blockCount size⟩ : InfoRecord).Packable) :
    ∃ raised, infoBlocksFrom (nextId :: links) ((service, size) :: services) dataStart =
      .error raised := by
  by_cases overflow : 2 ^ 1024 ≤ roundToDouble size
  · exact ⟨_, by rw [infoBlocksFrom, bc, if_pos overflow]; rfl⟩
  have counted : bc size = .ok (blockCount size) := if_neg overflow
  by_cases first : nextId < 2 ^ 64 <;> by_cases second : dataStart < 2 ^ 64 <;>
    by_cases third : blockCount size < 2 ^ 64
  · exact absurd ⟨first, second, third⟩ unpackable
  all_goals
    simp only [Nat.reducePow] at first second third
    simp [infoBlocksFrom, counted, packHeader, packData, packQ, first, second, third, bind,
      Except.bind, pure, Except.pure, Except.mapError]

theorem infoBlocksFrom_ok (links : List Nat) (services : List (Bytes × Nat)) (dataStart : Nat)
    (blocks : List Bytes) (packed : infoBlocksFrom links services dataStart = .ok blocks) :
    blocks = (recordsFrom links services dataStart).map InfoRecord.bytes ∧
      ∀ record ∈ recordsFrom links services dataStart, record.Packable := by
  induction services generalizing links dataStart blocks with
  | nil =>
    cases links <;> cases packed <;> exact ⟨rfl, by simp [recordsFrom]⟩
  | cons entry services ih =>
    obtain ⟨service, size⟩ := entry
    cases links with
    | nil => cases packed; exact ⟨rfl, by simp [recordsFrom]⟩
    | cons nextId links =>
      by_cases packable : (⟨nextId, service, dataStart, blockCount size⟩ : InfoRecord).Packable
      · rw [infoBlocksFrom_cons_of_packable _ _ _ _ _ _ packable] at packed
        cases rest : infoBlocksFrom links services (dataStart + blockCount size) with
        | error raised => simp [rest, Except.map] at packed
        | ok rest' =>
          simp only [rest, Except.map, Except.ok.injEq] at packed
          obtain ⟨restBytes, restPackable⟩ := ih links _ _ rest
          subst packed
          refine ⟨by simp [recordsFrom, restBytes], ?_⟩
          simp only [recordsFrom, List.mem_cons, forall_eq_or_imp]
          exact ⟨packable, restPackable⟩
      · obtain ⟨raised, failed⟩ := infoBlocksFrom_cons_of_not_packable _ _ _ _ _ _ packable
        rw [failed] at packed
        cases packed

theorem infoBlocksFrom_of_packable (links : List Nat) (services : List (Bytes × Nat))
    (dataStart : Nat) (packable : ∀ record ∈ recordsFrom links services dataStart, record.Packable) :
    infoBlocksFrom links services dataStart =
      .ok ((recordsFrom links services dataStart).map InfoRecord.bytes) := by
  induction services generalizing links dataStart with
  | nil => cases links <;> rfl
  | cons entry services ih =>
    obtain ⟨service, size⟩ := entry
    cases links with
    | nil => rfl
    | cons nextId links =>
      simp only [recordsFrom, List.mem_cons, forall_eq_or_imp] at packable
      rw [infoBlocksFrom_cons_of_packable _ _ _ _ _ _ packable.1, ih _ _ packable.2]
      rfl

/-- `create_info_blocks` returns normally exactly when every packed field fits `!Q`, and then
returns the bytes of its records. -/
theorem createInfoBlocks_ok_iff (serviceMap : List (Bytes × Nat)) (blocks : List Bytes) :
    createInfoBlocks serviceMap = .ok blocks ↔
      (∀ record ∈ infoRecords serviceMap, record.Packable) ∧
        blocks = (infoRecords serviceMap).map InfoRecord.bytes := by
  constructor
  · intro packed
    obtain ⟨bytes, packable⟩ := infoBlocksFrom_ok _ _ _ _ packed
    exact ⟨packable, bytes⟩
  · rintro ⟨packable, rfl⟩
    exact infoBlocksFrom_of_packable _ _ _ packable

theorem length_recordsFrom (links : List Nat) (services : List (Bytes × Nat)) (dataStart : Nat) :
    (recordsFrom links services dataStart).length = min links.length services.length := by
  induction services generalizing links dataStart with
  | nil => simp
  | cons entry services ih =>
    obtain ⟨service, size⟩ := entry
    cases links <;> simp only [recordsFrom_nil_links, recordsFrom_cons, List.length_nil,
      List.length_cons, ih, Nat.zero_min, Nat.succ_min_succ]

theorem recordsFrom_map_next (links : List Nat) (services : List (Bytes × Nat)) (dataStart : Nat)
    (aligned : links.length = services.length) :
    (recordsFrom links services dataStart).map InfoRecord.next = links := by
  induction services generalizing links dataStart with
  | nil => cases links <;> simp_all
  | cons entry services ih =>
    obtain ⟨service, size⟩ := entry
    cases links with
    | nil => cases aligned
    | cons nextId links =>
      simp only [recordsFrom, List.map_cons, ih links _ (Nat.succ.inj aligned)]

theorem recordsFrom_map_name (links : List Nat) (services : List (Bytes × Nat)) (dataStart : Nat)
    (aligned : links.length = services.length) :
    (recordsFrom links services dataStart).map InfoRecord.name = services.map Prod.fst := by
  induction services generalizing links dataStart with
  | nil => cases links <;> simp_all
  | cons entry services ih =>
    obtain ⟨service, size⟩ := entry
    cases links with
    | nil => cases aligned
    | cons nextId links =>
      simp only [recordsFrom, List.map_cons, ih links _ (Nat.succ.inj aligned)]

theorem start_of_mem_recordsFrom (links : List Nat) (services : List (Bytes × Nat))
    (dataStart : Nat) (record : InfoRecord) (member : record ∈ recordsFrom links services dataStart) :
    dataStart ≤ record.start := by
  induction services generalizing links dataStart with
  | nil => cases links <;> simp [recordsFrom] at member
  | cons entry services ih =>
    obtain ⟨service, size⟩ := entry
    cases links with
    | nil => simp [recordsFrom] at member
    | cons nextId links =>
      simp only [recordsFrom, List.mem_cons] at member
      rcases member with rfl | member
      · exact le_refl _
      · exact le_trans (Nat.le_add_right _ _) (ih _ _ member)

theorem length_nextLinks (count : Nat) (positive : 0 < count) :
    (nextLinks count).length = count := by
  simp [nextLinks]
  omega

theorem getElem_nextLinks (count j : Nat) (bound : j < (nextLinks count).length) :
    (nextLinks count)[j] = if j + 1 < count then j + 1 else 0 := by
  simp only [nextLinks, List.length_append, List.length_range', List.length_singleton] at bound
  by_cases last : j + 1 < count
  · simp only [nextLinks]
    rw [List.getElem_append_left (by simp; omega), List.getElem_range', if_pos last]
    omega
  · simp only [nextLinks]
    rw [List.getElem_append_right (by simp; omega)]
    simp [last]

theorem length_infoRecords (serviceMap : List (Bytes × Nat)) :
    (infoRecords serviceMap).length = serviceMap.length := by
  rcases Nat.eq_zero_or_pos serviceMap.length with empty | positive
  · simp [List.length_eq_zero.mp empty, infoRecords, sortBySize, recordsFrom, nextLinks]
  · simp [infoRecords, length_recordsFrom, length_nextLinks _ positive, sortBySize]

theorem infoRecords_next (serviceMap : List (Bytes × Nat)) (j : Nat)
    (bound : j < (infoRecords serviceMap).length) :
    (infoRecords serviceMap)[j].next =
      if j + 1 < serviceMap.length then j + 1 else 0 := by
  have positive : 0 < serviceMap.length := by rw [length_infoRecords] at bound; omega
  have links := recordsFrom_map_next (nextLinks serviceMap.length) (sortBySize serviceMap)
    serviceMap.length (by simp [length_nextLinks _ positive, sortBySize])
  have next := List.getElem_of_eq links (by simpa [infoRecords] using bound)
  rw [List.getElem_map] at next
  simp only [infoRecords, next, getElem_nextLinks]

theorem infoRecords_names (serviceMap : List (Bytes × Nat)) :
    ((infoRecords serviceMap).map InfoRecord.name).Perm (serviceMap.map Prod.fst) := by
  rcases Nat.eq_zero_or_pos serviceMap.length with empty | positive
  · simp [List.length_eq_zero.mp empty, infoRecords, sortBySize, recordsFrom, nextLinks]
  · rw [infoRecords, recordsFrom_map_name _ _ _ (by simp [length_nextLinks _ positive, sortBySize])]
    exact (List.perm_insertionSort _ serviceMap).map Prod.fst

theorem infoRecords_start (serviceMap : List (Bytes × Nat)) (record : InfoRecord)
    (member : record ∈ infoRecords serviceMap) : serviceMap.length ≤ record.start :=
  start_of_mem_recordsFrom _ _ _ record member

end HostedEngineHa.BlockBackend
