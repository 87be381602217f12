import HostedEngineHa.InfoBlock

/-! `BlockBackend.get_services`, an unbounded loop over the info-block chain modelled one
iteration at a time on fuel, and the write loop of `BlockBackend.create`. -/
namespace HostedEngineHa.BlockBackend

/-- The `services` dict of `get_services`, in insertion order. -/
abbrev Services := List (Bytes × List Piece)

/-- `services.setdefault(name, []); services[name].extend(pieces)`. -/
def addPieces : Services → Bytes → List Piece → Services
  | [], name, pieces => [(name, pieces)]
  | (key, existing) :: rest, name, pieces =>
    if key = name then (key, existing ++ pieces) :: rest
    else (key, existing) :: addPieces rest name pieces

/-- What one iteration of the loop of `get_services` does. -/
inductive Iteration where
  | raise (raised : Raised)
  | done (services : Services)
  | advance (position : Nat) (services : Services)
  deriving DecidableEq, Repr

def getServicesStep (device : Bytes) (offset position : Nat) (services : Services) : Iteration :=
  let block := readAt device position blocksize
  match parseMetaBlock block with
  | .error error => .raise (.structError error)
  | .ok parsed =>
    if !parsed.valid then .raise (.corrupted (position + block.length))
    else
      let services := addPieces services parsed.name parsed.pieces
      if parsed.next = 0 then .done services
      else .advance (offset + parsed.next * blocksize) services

/-- The first `fuel` iterations of the loop. -/
def getServicesLoop (device : Bytes) (offset : Nat) :
    Nat → Nat → Services → Option (Except Raised Services)
  | 0, _, _ => none
  | fuel + 1, position, services =>
    match getServicesStep device offset position services with
    | .raise raised => some (.error raised)
    | .done services => some (.ok services)
    | .advance position services => getServicesLoop device offset fuel position services

/-- `get_services(block_device_fo)` on a file positioned at `offset`, within `fuel`
iterations. -/
def getServices (fuel : Nat) (device : Bytes) (offset : Nat) : Option (Except Raised Services) :=
  getServicesLoop device offset fuel offset []

def writeBlocksFrom : Nat → Bytes → List Bytes → Bytes
  | _, device, [] => device
  | idx, device, block :: blocks =>
    writeBlocksFrom (idx + 1) (writeAt device (idx * blocksize) block) blocks

/-- The write loop of `create`: `dev.seek(idx * blocksize); dev.write(b)` for every block, on a
device that is not truncated (a block device). -/
def writeBlocks (device : Bytes) (blocks : List Bytes) : Bytes := writeBlocksFrom 0 device blocks

theorem headerSize_le_of_parseMetaBlock (block : Bytes) (parsed : BlockInfo)
    (ok : parseMetaBlock block = .ok parsed) : headerSize ≤ block.length := by
  by_contra short
  simp [parseMetaBlock, unpackFrom, short, bind, Except.bind] at ok

theorem getServicesStep_eq_advance (device : Bytes) (offset position : Nat) (services : Services)
    (next : Nat) (table : Services)
    (goesOn : getServicesStep device offset position services = .advance next table) :
    ∃ parsed, parseMetaBlock (readAt device position blocksize) = .ok parsed ∧
      parsed.valid = true ∧ parsed.next ≠ 0 ∧ next = offset + parsed.next * blocksize ∧
      table = addPieces services parsed.name parsed.pieces := by
  simp only [getServicesStep] at goesOn
  split at goesOn
  · cases goesOn
  · rename_i parsed ok
    by_cases valid : parsed.valid <;> by_cases last : parsed.next = 0 <;>
      simp [valid, last] at goesOn
    exact ⟨parsed, ok, valid, last, goesOn.1.symm, goesOn.2.symm⟩

theorem getServicesStep_of_block (device : Bytes) (offset position : Nat) (services : Services)
    (next : Nat) (name : Bytes) (pieces : List Piece) (tail : Bytes)
    (read : readAt device position blocksize = infoBlockBytes next name pieces ++ tail)
    (nextBound : next < 2 ^ 64) (short : name.length ≤ 63)
    (bounded : ∀ p ∈ pieces, p.1 < 2 ^ 64 ∧ p.2 < 2 ^ 64) (noSentinel : ∀ p ∈ pieces, p ≠ (0, 0)) :
    getServicesStep device offset position services =
      if next = 0 then .done (addPieces services name pieces)
      else .advance (offset + next * blocksize) (addPieces services name pieces) := by
  simp only [getServicesStep, read,
    parseMetaBlock_infoBlockBytes next name pieces tail nextBound short bounded noSentinel,
    Bool.not_true]
  rfl

theorem addPieces_fresh (services : Services) (name : Bytes) (pieces : List Piece)
    (fresh : name ∉ services.map Prod.fst) :
    addPieces services name pieces = services ++ [(name, pieces)] := by
  induction services with
  | nil => rfl
  | cons entry services ih =>
    obtain ⟨key, existing⟩ := entry
    simp only [List.map_cons, List.mem_cons, not_or] at fresh
    simp [addPieces, Ne.symm fresh.1, ih fresh.2]

theorem getServicesLoop_succ (device : Bytes) (offset fuel position : Nat) (services : Services) :
    getServicesLoop device offset (fuel + 1) position services =
      match getServicesStep device offset position services with
      | .raise raised => some (.error raised)
      | .done services => some (.ok services)
      | .advance position services => getServicesLoop device offset fuel position services :=
  rfl

theorem getElem?_writeBlocksFrom_before (idx : Nat) (device : Bytes) (blocks : List Bytes)
    (i : Nat) (before : i < idx * blocksize) (inside : i < device.length) :
    (writeBlocksFrom idx device blocks)[i]? = device[i]? := by
  induction blocks generalizing idx device with
  | nil => rfl
  | cons block blocks ih =>
    rw [writeBlocksFrom, ih _ _ (by rw [Nat.succ_mul]; omega) (by simp; omega),
      getElem?_writeAt_before _ _ _ _ before inside]

theorem getElem?_writeBlocksFrom (idx : Nat) (device : Bytes) (blocks : List Bytes)
    (fit : ∀ block ∈ blocks, block.length ≤ blocksize) (j k : Nat) (bound : j < blocks.length)
    (within : k < blocks[j].length) :
    (writeBlocksFrom idx device blocks)[(idx + j) * blocksize + k]? = blocks[j][k]? := by
  induction blocks generalizing idx device j with
  | nil => simp at bound
  | cons block blocks ih =>
    cases j with
    | zero =>
      have fits := fit block (by simp)
      simp only [List.getElem_cons_zero] at within ⊢
      rw [Nat.add_zero, writeBlocksFrom, getElem?_writeBlocksFrom_before _ _ _ _ (by rw [Nat.succ_mul]; omega)
        (by simp; omega), getElem?_writeAt_within _ _ _ _ (by omega) (by omega)]
      simp
    | succ j =>
      rw [writeBlocksFrom, show (idx + (j + 1)) * blocksize + k = (idx + 1 + j) * blocksize + k by
        ring_nf]
      exact ih _ _ (fun b member => fit b (by simp [member])) j (by simpa using bound) within

theorem readAt_writeBlocks (device : Bytes) (blocks : List Bytes)
    (fit : ∀ block ∈ blocks, block.length ≤ blocksize) (j : Nat) (bound : j < blocks.length) :
    ∃ tail, readAt (writeBlocks device blocks) (j * blocksize) blocksize = blocks[j] ++ tail := by
  have bytes (k : Nat) (within : k < blocks[j].length) :
      (writeBlocks device blocks)[j * blocksize + k]? = blocks[j][k]? := by
    simpa using getElem?_writeBlocksFrom 0 device blocks fit j k bound within
  have fits := fit blocks[j] (List.getElem_mem bound)
  refine ⟨(readAt (writeBlocks device blocks) (j * blocksize) blocksize).drop blocks[j].length, ?_⟩
  conv_lhs => rw [← List.take_append_drop blocks[j].length
    (readAt (writeBlocks device blocks) (j * blocksize) blocksize)]
  congr 1
  apply List.ext_getElem?
  intro k
  rw [List.getElem?_take]
  split
  · rw [getElem?_readAt, if_pos (by omega), bytes k (by assumption)]
  · rw [List.getElem?_eq_none (by omega)]

/-- The table `get_services` builds from the records, in chain order. -/
def recordTable (records : List InfoRecord) : Services :=
  records.map fun record => (record.name, [(record.start, record.length)])

/-- A device laid out as `create` leaves it: the block of record `j` at block `j`, chained to
block `j + 1` and the last one to nothing, with distinct names, packable fields and data
areas away from block 0. -/
structure ChainLayout (device : Bytes) (records : List InfoRecord) : Prop where
  blocks : ∀ j (bound : j < records.length), ∃ tail,
    readAt device (j * blocksize) blocksize = records[j].bytes ++ tail
  links : ∀ j (bound : j < records.length),
    records[j].next = if j + 1 < records.length then j + 1 else 0
  distinct : (records.map InfoRecord.name).Nodup
  wellFormed : ∀ record ∈ records,
    record.Packable ∧ record.name.length ≤ 63 ∧ record.start ≠ 0

theorem name_not_mem_take (records : List InfoRecord) (distinct : (records.map InfoRecord.name).Nodup)
    (j : Nat) (bound : j < records.length) :
    records[j].name ∉ (recordTable (records.take j)).map Prod.fst := by
  intro member
  simp only [recordTable, List.map_map, Function.comp_def, List.mem_map] at member
  obtain ⟨record, taken, same⟩ := member
  obtain ⟨i, below, rfl⟩ := List.getElem_of_mem taken
  simp only [List.getElem_take, List.length_take] at below same
  have := (@List.Nodup.getElem_inj_iff _ _ distinct i (by simp; omega) j (by simpa using bound)).mp
    (by simpa using same)
  omega

theorem getServicesStep_chain (device : Bytes) (records : List InfoRecord)
    (layout : ChainLayout device records) (j : Nat) (bound : j < records.length) :
    getServicesStep device 0 (j * blocksize) (recordTable (records.take j)) =
      if j + 1 < records.length then .advance ((j + 1) * blocksize) (recordTable (records.take (j + 1)))
      else .done (recordTable records) := by
  obtain ⟨tail, read⟩ := layout.blocks j bound
  obtain ⟨⟨nextBound, startBound, lengthBound⟩, short, started⟩ :=
    layout.wellFormed records[j] (List.getElem_mem bound)
  have added : addPieces (recordTable (records.take j)) records[j].name
      [(records[j].start, records[j].length)] = recordTable (records.take (j + 1)) := by
    rw [addPieces_fresh _ _ _ (name_not_mem_take records layout.distinct j bound), recordTable,
      recordTable, List.take_succ, List.getElem?_eq_getElem bound, Option.toList_some,
      List.map_append, List.map_singleton]
  rw [getServicesStep_of_block _ _ _ _ _ _ _ tail read nextBound short
    (fun piece member => by simp only [List.mem_singleton] at member; exact member ▸ ⟨startBound, lengthBound⟩)
    (by simp [started]), added, layout.links j bound]
  by_cases more : j + 1 < records.length
  · simp [more]
  · simp [more, List.take_of_length_le (show records.length ≤ j + 1 by omega)]

/-- On such a device the loop returns the table of all records after exactly as many
iterations as there are records left, and is still running before that. -/
theorem getServicesLoop_chain (device : Bytes) (records : List InfoRecord)
    (layout : ChainLayout device records) (fuel j : Nat) (bound : j < records.length) :
    getServicesLoop device 0 fuel (j * blocksize) (recordTable (records.take j)) =
      if records.length ≤ j + fuel then some (.ok (recordTable records)) else none := by
  induction fuel generalizing j with
  | zero => simp [getServicesLoop, Nat.not_le.mpr bound]
  | succ fuel ih =>
    rw [getServicesLoop_succ, getServicesStep_chain device records layout j bound]
    by_cases more : j + 1 < records.length
    · simp only [if_pos more]
      rw [ih (j + 1) more]
      simp only [show j + 1 + fuel = j + (fuel + 1) by omega]
    · simp only [if_neg more, if_pos (show records.length ≤ j + (fuel + 1) by omega)]

theorem length_infoRecordBytes (record : InfoRecord) : record.bytes.length = 108 := by
  simp [InfoRecord.bytes, infoBlockBytes, headerSize, dataSize]

theorem next_le_of_mem_infoRecords (serviceMap : List (Bytes × Nat)) (record : InfoRecord)
    (member : record ∈ infoRecords serviceMap) : record.next ≤ serviceMap.length := by
  obtain ⟨j, bound, rfl⟩ := List.getElem_of_mem member
  rw [infoRecords_next serviceMap j bound, length_infoRecords] at *
  split <;> omega

/-- `create` on any prior content lays the table out as a chain of its records. -/
theorem chainLayout_create (serviceMap : List (Bytes × Nat)) (device : Bytes)
    (distinct : (serviceMap.map Prod.fst).Nodup) (short : ∀ entry ∈ serviceMap, entry.1.length ≤ 63)
    (fits : ∀ record ∈ infoRecords serviceMap, record.start < 2 ^ 64 ∧ record.length < 2 ^ 64) :
    ChainLayout (writeBlocks device ((infoRecords serviceMap).map InfoRecord.bytes))
      (infoRecords serviceMap) where
  blocks j bound := by
    have layout := readAt_writeBlocks device ((infoRecords serviceMap).map InfoRecord.bytes)
      (by simp [length_infoRecordBytes, blocksize]) j (by simpa using bound)
    simpa using layout
  links j bound := by rw [infoRecords_next serviceMap j bound, length_infoRecords]
  distinct := (infoRecords_names serviceMap).nodup_iff.mpr distinct
  wellFormed record member := by
    obtain ⟨startBound, lengthBound⟩ := fits record member
    have started := infoRecords_start serviceMap record member
    have named : record.name ∈ serviceMap.map Prod.fst :=
      (infoRecords_names serviceMap).subset (List.mem_map_of_mem _ member)
    obtain ⟨entry, entryMember, entryName⟩ := List.mem_map.mp named
    have nextBound := next_le_of_mem_infoRecords serviceMap record member
    have positive : 0 < serviceMap.length := List.length_pos_of_mem entryMember
    exact ⟨⟨by omega, startBound, lengthBound⟩, entryName ▸ short entry entryMember, by omega⟩

/-- Round trip of the info table: for a non-empty map with distinct short names whose packed
starts and counts fit `!Q`, `create_info_blocks` returns the blocks of its records, and after
`create` writes them over any prior content, `get_services` from offset 0 returns, after
exactly one iteration per service, the table sending each name of the map to the one piece
packed into its block. -/
theorem getServices_createInfoBlocks (serviceMap : List (Bytes × Nat)) (device : Bytes)
    (nonempty : serviceMap ≠ []) (distinct : (serviceMap.map Prod.fst).Nodup)
    (short : ∀ entry ∈ serviceMap, entry.1.length ≤ 63)
    (fits : ∀ record ∈ infoRecords serviceMap, record.start < 2 ^ 64 ∧ record.length < 2 ^ 64)
    (fuel : Nat) :
    createInfoBlocks serviceMap = .ok ((infoRecords serviceMap).map InfoRecord.bytes) ∧
      getServices fuel (writeBlocks device ((infoRecords serviceMap).map InfoRecord.bytes)) 0 =
        (if serviceMap.length ≤ fuel then some (.ok (recordTable (infoRecords serviceMap)))
          else none) ∧
      ((infoRecords serviceMap).map InfoRecord.name).Perm (serviceMap.map Prod.fst) := by
  have layout := chainLayout_create serviceMap device distinct short fits
  have positive : 0 < (infoRecords serviceMap).length := by
    rw [length_infoRecords]; exact List.length_pos.mpr nonempty
  refine ⟨(createInfoBlocks_ok_iff _ _).mpr ⟨fun record member => (layout.wellFormed record member).1,
    rfl⟩, ?_, infoRecords_names serviceMap⟩
  have loop := getServicesLoop_chain _ _ layout fuel 0 positive
  rw [length_infoRecords, Nat.zero_add] at loop
  simpa [getServices, recordTable] using loop

def scenarioServiceMap : List (Bytes × Nat) :=
  [([109, 101, 116, 97, 100, 97, 116, 97], 1048576),
    ([108, 111, 99, 107, 115, 112, 97, 99, 101], 1048576)]

theorem getServices_createInfoBlocks_scenario :
    scenarioServiceMap ≠ [] ∧ (scenarioServiceMap.map Prod.fst).Nodup ∧
      (∀ entry ∈ scenarioServiceMap, entry.1.length ≤ 63) ∧
      (∀ record ∈ infoRecords scenarioServiceMap,
        record.start < 2 ^ 64 ∧ record.length < 2 ^ 64) ∧
      getServices 2 (writeBlocks [] ((infoRecords scenarioServiceMap).map InfoRecord.bytes)) 0 =
        some (.ok (recordTable (infoRecords scenarioServiceMap))) := by
  have nonempty : scenarioServiceMap ≠ [] := by decide
  have distinct : (scenarioServiceMap.map Prod.fst).Nodup := by decide
  have short : ∀ entry ∈ scenarioServiceMap, entry.1.length ≤ 63 := by decide
  have fits : ∀ record ∈ infoRecords scenarioServiceMap,
      record.start < 2 ^ 64 ∧ record.length < 2 ^ 64 := by decide
  exact ⟨nonempty, distinct, short, fits, by
    simpa using (getServices_createInfoBlocks scenarioServiceMap [] nonempty distinct short fits 2).2.1⟩

end HostedEngineHa.BlockBackend
