import HostedEngineHa.Corruption
import HostedEngineHa.Reencode

/-! The chain law of `get_services` on any device: every name gets the pieces of its blocks in
chain order, and the first invalid block raises before any later one is read. -/
namespace HostedEngineHa.BlockBackend

/-- `blocks` is what the chain from `position` parses to: each block is read where the one
before it points, relative to `offset`, and only the last one has `next = 0`. -/
def ChainFrom (device : Bytes) (offset : Nat) : Nat → List BlockInfo → Prop
  | _, [] => True
  | position, block :: blocks =>
    parseMetaBlock (readAt device position blocksize) = .ok block ∧
      (block.next = 0 ↔ blocks = []) ∧
      ChainFrom device offset (offset + block.next * blocksize) blocks

def chainPositions (offset : Nat) : Nat → List BlockInfo → List Nat
  | _, [] => []
  | position, block :: blocks =>
    position :: chainPositions offset (offset + block.next * blocksize) blocks

def chainTable (services : Services) (blocks : List BlockInfo) : Services :=
  blocks.foldl (fun services block => addPieces services block.name block.pieces) services

def piecesNamed (name : Bytes) (blocks : List BlockInfo) : List Piece :=
  (blocks.filter fun block => block.name = name).flatMap BlockInfo.pieces

theorem lookup_cons_entry (key existing : Bytes) (values : List Piece) (services : Services) :
    ((existing, values) :: services).lookup key =
      if key = existing then some values else services.lookup key := by
  by_cases same : key = existing
  · simp [same]
  · simp [List.lookup_cons, beq_eq_false_iff_ne.mpr same, same]

theorem lookup_addPieces (services : Services) (key name : Bytes) (pieces : List Piece) :
    (addPieces services name pieces).lookup key =
      if key = name then some ((services.lookup key).getD [] ++ pieces)
      else services.lookup key := by
  induction services with
  | nil => by_cases same : key = name <;> simp [addPieces, lookup_cons_entry, same]
  | cons entry services ih =>
    obtain ⟨existing, values⟩ := entry
    by_cases here : existing = name
    · subst here
      by_cases same : key = existing <;> simp [addPieces, lookup_cons_entry, same]
    · by_cases same : key = existing
      · subst same
        simp [addPieces, lookup_cons_entry, here]
      · simp [addPieces, lookup_cons_entry, here, same, ih]

theorem mem_keys_addPieces (services : Services) (key name : Bytes) (pieces : List Piece) :
    key ∈ (addPieces services name pieces).map Prod.fst ↔
      key ∈ services.map Prod.fst ∨ key = name := by
  induction services with
  | nil => simp [addPieces]
  | cons entry services ih =>
    obtain ⟨existing, values⟩ := entry
    by_cases here : existing = name
    · subst here
      simp only [addPieces, ite_true, List.map_cons, List.mem_cons]
      exact (or_iff_left_of_imp Or.inl).symm
    · simp only [addPieces, if_neg here, List.map_cons, List.mem_cons, ih]
      exact or_assoc.symm

theorem nodup_keys_addPieces (services : Services) (name : Bytes) (pieces : List Piece)
    (distinct : (services.map Prod.fst).Nodup) :
    ((addPieces services name pieces).map Prod.fst).Nodup := by
  induction services with
  | nil => simp [addPieces]
  | cons entry services ih =>
    obtain ⟨existing, values⟩ := entry
    simp only [List.map_cons, List.nodup_cons] at distinct
    by_cases here : existing = name
    · simpa [addPieces, here] using distinct
    · simp only [addPieces, if_neg here, List.map_cons, List.nodup_cons, mem_keys_addPieces]
      exact ⟨fun member => member.elim distinct.1 here, ih distinct.2⟩

theorem piecesNamed_cons (name : Bytes) (block : BlockInfo) (blocks : List BlockInfo) :
    piecesNamed name (block :: blocks) =
      (if block.name = name then block.pieces else []) ++ piecesNamed name blocks := by
  by_cases same : block.name = name <;> simp [piecesNamed, List.filter_cons, same]

theorem piecesNamed_of_not_mem (name : Bytes) (blocks : List BlockInfo)
    (absent : name ∉ blocks.map BlockInfo.name) : piecesNamed name blocks = [] := by
  induction blocks with
  | nil => rfl
  | cons block blocks ih =>
    simp only [List.map_cons, List.mem_cons, not_or] at absent
    rw [piecesNamed_cons, if_neg (Ne.symm absent.1), ih absent.2]
    rfl

theorem lookup_chainTable (services : Services) (blocks : List BlockInfo) (key : Bytes) :
    (chainTable services blocks).lookup key =
      if key ∈ blocks.map BlockInfo.name then
        some ((services.lookup key).getD [] ++ piecesNamed key blocks)
      else services.lookup key := by
  induction blocks generalizing services with
  | nil => simp [chainTable]
  | cons block blocks ih =>
    have step : chainTable services (block :: blocks) =
        chainTable (addPieces services block.name block.pieces) blocks := rfl
    by_cases here : key = block.name
    · subst here
      by_cases later : block.name ∈ blocks.map BlockInfo.name
      · simp [step, ih, lookup_addPieces, piecesNamed_cons, later]
      · simp [step, ih, lookup_addPieces, piecesNamed_cons, later,
          piecesNamed_of_not_mem _ _ later]
    · simp [step, ih, lookup_addPieces, here, piecesNamed_cons, Ne.symm here]

theorem nodup_keys_chainTable (services : Services) (blocks : List BlockInfo)
    (distinct : (services.map Prod.fst).Nodup) : ((chainTable services blocks).map Prod.fst).Nodup := by
  induction blocks generalizing services with
  | nil => exact distinct
  | cons block blocks ih => exact ih _ (nodup_keys_addPieces _ _ _ distinct)

theorem getServicesStep_of_parsed (device : Bytes) (offset position : Nat) (services : Services)
    (block : BlockInfo) (parsed : parseMetaBlock (readAt device position blocksize) = .ok block)
    (valid : block.valid = true) :
    getServicesStep device offset position services =
      if block.next = 0 then .done (addPieces services block.name block.pieces)
      else .advance (offset + block.next * blocksize) (addPieces services block.name block.pieces) := by
  simp only [getServicesStep, parsed, valid, Bool.not_true]
  rfl

theorem getServicesLoop_of_chainFrom (device : Bytes) (offset : Nat) (blocks : List BlockInfo)
    (position : Nat) (services : Services) (fuel : Nat)
    (chain : ChainFrom device offset position blocks) (nonempty : blocks ≠ [])
    (valid : ∀ block ∈ blocks, block.valid = true) (enough : blocks.length ≤ fuel) :
    getServicesLoop device offset fuel position services = some (.ok (chainTable services blocks)) := by
  induction blocks generalizing position services fuel with
  | nil => exact absurd rfl nonempty
  | cons block blocks ih =>
    obtain ⟨parsed, last, rest⟩ := chain
    obtain ⟨fuel, rfl⟩ : ∃ f, fuel = f + 1 :=
      ⟨fuel - 1, by simp only [List.length_cons] at enough; omega⟩
    rw [getServicesLoop_succ, getServicesStep_of_parsed device offset position services block parsed
      (valid block (List.mem_cons_self _ _))]
    by_cases ends : block.next = 0
    · obtain rfl := last.mp ends
      simp [ends, chainTable]
    · rw [if_neg ends]
      exact ih _ _ _ rest (fun empty => ends (last.mpr empty))
        (fun other member => valid other (List.mem_cons_of_mem _ member))
        (Nat.le_of_succ_le_succ enough)

/-- Over a chain whose first invalid block comes after the valid blocks `before`, the loop
raises at that block, on every device that agrees with this one on the blocks read so far. -/
theorem getServicesLoop_of_invalid (device : Bytes) (offset : Nat) (before : List BlockInfo)
    (bad : BlockInfo) (after : List BlockInfo) (position : Nat)
    (chain : ChainFrom device offset position (before ++ bad :: after))
    (valid : ∀ block ∈ before, block.valid = true) (invalid : bad.valid = false) :
    ∃ raisedAt, ∀ (changed : Bytes) (services : Services) (fuel : Nat),
      (∀ p ∈ chainPositions offset position (before ++ [bad]),
        readAt changed p blocksize = readAt device p blocksize) → before.length < fuel →
      getServicesLoop changed offset fuel position services = some (.error (.corrupted raisedAt)) := by
  induction before generalizing position with
  | nil =>
    obtain ⟨parsed, -, -⟩ := chain
    refine ⟨position + (readAt device position blocksize).length,
      fun changed services fuel agree enough => ?_⟩
    obtain ⟨fuel, rfl⟩ : ∃ f, fuel = f + 1 := ⟨fuel - 1, by omega⟩
    rw [getServicesLoop_succ, getServicesStep_congr _ _ _ _ _ (agree position (by simp [chainPositions])),
      getServicesStep_of_invalid _ _ _ _ bad parsed invalid]
  | cons block before ih =>
    obtain ⟨parsed, last, rest⟩ := chain
    have links : block.next ≠ 0 := by simpa using last
    obtain ⟨raisedAt, raises⟩ := ih _ rest fun other member => valid other (List.mem_cons_of_mem _ member)
    refine ⟨raisedAt, fun changed services fuel agree enough => ?_⟩
    obtain ⟨fuel, rfl⟩ : ∃ f, fuel = f + 1 := ⟨fuel - 1, by omega⟩
    simp only [List.cons_append, chainPositions, List.mem_cons, forall_eq_or_imp] at agree
    rw [getServicesLoop_succ, getServicesStep_congr _ _ _ _ _ agree.1,
      getServicesStep_of_parsed device offset position services block parsed
        (valid block (List.mem_cons_self _ _)), if_neg links]
    exact raises changed _ fuel agree.2 (Nat.lt_of_succ_lt_succ enough)

/-- The chain law: on a chain of blocks read from offset `o`, `get_services` returns, after one
iteration per block, the table sending each name on the chain to the pieces of its blocks in
chain order; and if some block is invalid, it raises `BlockBackendCorruptedException` at the
first such block, on any device that agrees with this one on the blocks up to that one, so it
reads no block beyond it. -/
theorem getServices_chain_law (device : Bytes) (offset : Nat) (blocks : List BlockInfo)
    (chain : ChainFrom device offset offset blocks) (nonempty : blocks ≠ []) :
    ((∀ block ∈ blocks, block.valid = true) → ∀ fuel, blocks.length ≤ fuel →
      ∃ table, getServices fuel device offset = some (.ok table) ∧
        (table.map Prod.fst).Nodup ∧ ∀ name, table.lookup name =
          if name ∈ blocks.map BlockInfo.name then some (piecesNamed name blocks) else none) ∧
    (∀ before bad after, blocks = before ++ bad :: after →
      (∀ block ∈ before, block.valid = true) → bad.valid = false →
      ∃ raisedAt, ∀ changed : Bytes,
        (∀ p ∈ chainPositions offset offset (before ++ [bad]),
          readAt changed p blocksize = readAt device p blocksize) →
        ∀ fuel, before.length < fuel →
          getServices fuel changed offset = some (.error (.corrupted raisedAt))) := by
  refine ⟨fun valid fuel enough => ⟨chainTable [] blocks,
    getServicesLoop_of_chainFrom device offset blocks offset [] fuel chain nonempty valid enough,
    nodup_keys_chainTable [] blocks List.nodup_nil, fun name => ?_⟩, ?_⟩
  · simp [lookup_chainTable]
  · rintro before bad after rfl valid invalid
    obtain ⟨raisedAt, raises⟩ :=
      getServicesLoop_of_invalid device offset before bad after offset chain valid invalid
    exact ⟨raisedAt, fun changed agree fuel enough => raises changed [] fuel agree enough⟩

def padBlock (bytes : Bytes) : Bytes := bytes ++ List.replicate (blocksize - bytes.length) 0

theorem readAt_padBlock (bytes rest : Bytes) (fits : bytes.length ≤ blocksize) :
    readAt (padBlock bytes ++ rest) 0 blocksize = padBlock bytes ∧
      ∀ k n, readAt (padBlock bytes ++ rest) (blocksize + k) n = readAt rest k n := by
  have length : (padBlock bytes).length = blocksize := by
    simp only [padBlock, List.length_append, List.length_replicate]; omega
  refine ⟨?_, fun k n => ?_⟩
  · rw [readAt_append_of_le _ _ _ _ length.ge, readAt, List.drop_zero,
      List.take_of_length_le length.le]
  · rw [← length, readAt_append]

theorem readAt_take (device : Bytes) (m p n : Nat) (within : p + n ≤ m) :
    readAt (device.take m) p n = readAt device p n := by
  simp only [readAt, List.drop_take, List.take_take]
  congr 1
  omega

theorem parseMetaBlock_padBlock (next : Nat) (name : Bytes) (piece : Piece)
    (nextBound : next < 2 ^ 64) (short : name.length ≤ 63)
    (pieceBound : piece.1 < 2 ^ 64 ∧ piece.2 < 2 ^ 64) (started : piece ≠ (0, 0)) :
    parseMetaBlock (padBlock (infoBlockBytes next name [piece])) = .ok ⟨next, name, [piece], true⟩ :=
  parseMetaBlock_infoBlockBytes next name [piece] _ nextBound short (by simpa using pieceBound)
    (by simpa using started)

theorem length_infoBlockBytes_single (next : Nat) (name : Bytes) (piece : Piece) :
    (infoBlockBytes next name [piece]).length ≤ blocksize := by
  simp [infoBlockBytes, headerSize, dataSize, blocksize]

/-- Three padded blocks laid end to end, linked `0 → 1 → 2`, form a chain from offset 0. -/
theorem chainFrom_padBlocks (first second third : Bytes) (b₀ b₁ b₂ : BlockInfo)
    (fits : first.length ≤ blocksize ∧ second.length ≤ blocksize ∧ third.length ≤ blocksize)
    (parsed : parseMetaBlock (padBlock first) = .ok b₀ ∧ parseMetaBlock (padBlock second) = .ok b₁ ∧
      parseMetaBlock (padBlock third) = .ok b₂)
    (links : b₀.next = 1 ∧ b₁.next = 2 ∧ b₂.next = 0) :
    ChainFrom (padBlock first ++ (padBlock second ++ padBlock third)) 0 0 [b₀, b₁, b₂] := by
  obtain ⟨l₀, l₁, l₂⟩ := links
  have last := (readAt_padBlock third [] fits.2.2).1
  rw [List.append_nil] at last
  refine ⟨?_, by simp [l₀], ?_, by simp [l₁], ?_, by simp [l₂], trivial⟩
  · rw [(readAt_padBlock first _ fits.1).1]
    exact parsed.1
  · rw [l₀, show 0 + 1 * blocksize = blocksize + 0 from rfl, (readAt_padBlock first _ fits.1).2,
      (readAt_padBlock second _ fits.2.1).1]
    exact parsed.2.1
  · rw [l₁, show 0 + 2 * blocksize = blocksize + (blocksize + 0) from rfl,
      (readAt_padBlock first _ fits.1).2, (readAt_padBlock second _ fits.2.1).2, last]
    exact parsed.2.2

def staleCrcBlock : Bytes :=
  recordBytes 2 [98] [(4, 1)] ++ packUnsigned 4 ((crc32 (recordBytes 2 [98] [(4, 1)]) + 1) % 2 ^ 32)

/-- Three linked blocks, the first and last naming `a` and the middle one `b`. -/
def sharedNameDevice : Bytes :=
  padBlock (infoBlockBytes 1 [97] [(3, 1)]) ++
    (padBlock (infoBlockBytes 2 [98] [(4, 1)]) ++ padBlock (infoBlockBytes 0 [97] [(5, 1)]))

/-- The same chain with the middle block's CRC changed. -/
def staleCrcDevice : Bytes :=
  padBlock (infoBlockBytes 1 [97] [(3, 1)]) ++
    (padBlock staleCrcBlock ++ padBlock (infoBlockBytes 0 [97] [(5, 1)]))

theorem getServices_chain_law_linked_blocks :
    ChainFrom sharedNameDevice 0 0
        [⟨1, [97], [(3, 1)], true⟩, ⟨2, [98], [(4, 1)], true⟩, ⟨0, [97], [(5, 1)], true⟩] ∧
      (∃ table, getServices 3 sharedNameDevice 0 = some (.ok table) ∧
        table.lookup [97] = some [(3, 1), (5, 1)] ∧ table.lookup [98] = some [(4, 1)]) ∧
      ChainFrom staleCrcDevice 0 0
        [⟨1, [97], [(3, 1)], true⟩, ⟨2, [98], [(4, 1)], false⟩, ⟨0, [97], [(5, 1)], true⟩] ∧
      ∃ raisedAt, getServices 3 staleCrcDevice 0 = some (.error (.corrupted raisedAt)) ∧
        getServices 3 (staleCrcDevice.take (2 * blocksize)) 0 =
          some (.error (.corrupted raisedAt)) := by
  have fits := length_infoBlockBytes_single
  have staleFits : staleCrcBlock.length ≤ blocksize := by
    simp [staleCrcBlock, headerSize, dataSize, blocksize]
  have staleParse : parseMetaBlock (padBlock staleCrcBlock) = .ok ⟨2, [98], [(4, 1)], false⟩ := by
    have bound := crc32_lt (recordBytes 2 [98] [(4, 1)])
    rw [padBlock, staleCrcBlock, List.append_assoc, parseMetaBlock_recordBytes _ _ _ _ _ (by decide)
      (by decide) (Nat.mod_lt _ (by decide)) (by decide) (by decide), beq_eq_false_iff_ne.mpr (by omega)]
  have firstParse := parseMetaBlock_padBlock 1 [97] (3, 1) (by decide) (by decide) (by decide) (by decide)
  have lastParse := parseMetaBlock_padBlock 0 [97] (5, 1) (by decide) (by decide) (by decide) (by decide)
  have chainA : ChainFrom sharedNameDevice 0 0
      [⟨1, [97], [(3, 1)], true⟩, ⟨2, [98], [(4, 1)], true⟩, ⟨0, [97], [(5, 1)], true⟩] :=
    chainFrom_padBlocks _ _ _ _ _ _ ⟨fits _ _ _, fits _ _ _, fits _ _ _⟩ ⟨firstParse,
      parseMetaBlock_padBlock 2 [98] (4, 1) (by decide) (by decide) (by decide) (by decide),
      lastParse⟩ ⟨rfl, rfl, rfl⟩
  have chainB : ChainFrom staleCrcDevice 0 0
      [⟨1, [97], [(3, 1)], true⟩, ⟨2, [98], [(4, 1)], false⟩, ⟨0, [97], [(5, 1)], true⟩] :=
    chainFrom_padBlocks _ _ _ _ _ _ ⟨fits _ _ _, staleFits, fits _ _ _⟩
      ⟨firstParse, staleParse, lastParse⟩ ⟨rfl, rfl, rfl⟩
  obtain ⟨table, run, -, named⟩ := (getServices_chain_law sharedNameDevice 0 _ chainA (by simp)).1
    (by decide) 3 le_rfl
  obtain ⟨raisedAt, raises⟩ := (getServices_chain_law staleCrcDevice 0 _ chainB (by simp)).2
    [⟨1, [97], [(3, 1)], true⟩] ⟨2, [98], [(4, 1)], false⟩ [⟨0, [97], [(5, 1)], true⟩] rfl (by decide) rfl
  have truncated : ∀ p ∈ chainPositions 0 0 [⟨1, [97], [(3, 1)], true⟩, ⟨2, [98], [(4, 1)], false⟩],
      readAt (staleCrcDevice.take (2 * blocksize)) p blocksize = readAt staleCrcDevice p blocksize := by
    intro p member
    have within : p + blocksize ≤ 2 * blocksize := by
      simp only [chainPositions, List.mem_cons, List.mem_singleton, List.not_mem_nil, or_false] at member
      rcases member with rfl | rfl <;> decide
    exact readAt_take _ _ _ _ within
  refine ⟨chainA, ⟨table, run, ?_, ?_⟩, chainB, raisedAt, raises _ (fun _ _ => rfl) 3 (by decide),
    raises _ truncated 3 (by decide)⟩
  · rw [named]; decide
  · rw [named]; decide

theorem scanPieces_of_no_sentinel (block : Bytes) (records seek : Nat)
    (fits : seek + dataSize * records ≤ block.length)
    (noSentinel : ∀ i < records,
      readAt block (seek + dataSize * i) dataSize ≠ List.replicate dataSize 0) :
    scanPieces block records seek = .error .shortBuffer := by
  induction records generalizing seek with
  | zero => rfl
  | succ records ih =>
    have record := readAt_record block seek (by rw [Nat.mul_succ] at fits; omega)
    simp only [scanPieces]
    split
    · rename_i sentinel
      rw [sentinel.1, sentinel.2, packPiece_zero] at record
      exact absurd record (by simpa using noSentinel 0 (by omega))
    · rw [ih (seek + dataSize) (by rw [Nat.mul_succ] at fits; omega) fun i lt => by
        simpa [Nat.mul_succ, Nat.add_assoc, Nat.add_comm dataSize] using noSentinel (i + 1) (by omega)]
      rfl

theorem parseMetaBlock_of_no_sentinel (block : Bytes)
    (noSentinel : ∀ i < (block.length - headerSize) / dataSize,
      readAt block (headerSize + dataSize * i) dataSize ≠ List.replicate dataSize 0) :
    parseMetaBlock block = .error .shortBuffer := by
  by_cases short : block.length < headerSize
  · simp [parseMetaBlock, unpackFrom, Nat.not_le.mpr short, bind, Except.bind]
  · have scan := scanPieces_of_no_sentinel block _ headerSize
      (by simp only [headerSize, dataSize] at short ⊢; omega) noSentinel
    simp [parseMetaBlock, unpackFrom, Nat.not_lt.mp short, scan, bind, Except.bind]

/-- On a device too short for the first block's header, or whose first block has no
all-zero 16-byte record after the header, `get_services` fails with `struct.error`, not with
`BlockBackendCorruptedException`. -/
theorem getServices_raises_structError (device : Bytes) (offset fuel : Nat)
    (malformed : device.length < offset + headerSize ∨
      ∀ i < 27, readAt device (offset + headerSize + dataSize * i) dataSize ≠
        List.replicate dataSize 0) :
    getServices (fuel + 1) device offset = some (.error (.structError .shortBuffer)) := by
  have parsed : parseMetaBlock (readAt device offset blocksize) = .error .shortBuffer := by
    apply parseMetaBlock_of_no_sentinel
    intro i lt
    have bound : i < 27 ∧ offset + headerSize ≤ device.length := by
      simp only [length_readAt, headerSize, dataSize, blocksize] at lt ⊢
      omega
    have within : headerSize + dataSize * i + dataSize ≤ blocksize := by
      simp only [headerSize, dataSize, blocksize]
      omega
    rw [readAt_readAt _ _ _ _ _ within, ← Nat.add_assoc]
    exact malformed.elim (fun short => absurd bound.2 (Nat.not_le.mpr short)) (· i bound.1)
  simp only [getServices, getServicesLoop_succ, getServicesStep, parsed]

theorem getServices_raises_structError_on_empty :
    ([] : Bytes).length < 0 + headerSize ∧
      getServices 1 [] 0 = some (.error (.structError .shortBuffer)) :=
  ⟨by decide, getServices_raises_structError [] 0 0 (.inl (by decide))⟩

end HostedEngineHa.BlockBackend
