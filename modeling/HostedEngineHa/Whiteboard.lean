import HostedEngineHa.Struct
import Mathlib.Data.List.GetD

/-! The whiteboard I/O of `StorageBroker`: `put_stats` writes one host's slot and
`get_raw_stats_for_service_type` reads them all; system calls are parameters. -/
namespace HostedEngineHa.Whiteboard

/-- Modelled from the spec: `constants.HOST_SEGMENT_BYTES`, the size of one host's slot. -/
def hostSegmentBytes : Nat := 4096

/-- Modelled from the spec: the storage block size aligned buffers are a multiple of. -/
def storageBlockSize : Nat := 512

/-- Modelled from the spec: `util.aligned_buffer(size)`, a fresh zero-filled scratch buffer whose
length is `size` rounded up to a multiple of the storage block size. -/
def alignedBuffer (size : Nat) : Bytes :=
  List.replicate ((size + storageBlockSize - 1) / storageBlockSize * storageBlockSize) 0

/-- `str.ljust(width, '\0')`: right-padded with zeros, never truncated. -/
def ljust (data : Bytes) (width : Nat) : Bytes := data ++ List.replicate (width - data.length) 0

/-- `buffer.write(data)` at the start of a buffer at least as long as `data`. -/
def bufferWrite (buffer data : Bytes) : Bytes := data ++ buffer.drop data.length

structure RequestError where
  message : String
  deriving DecidableEq, Repr

/-- What the operating system does with one call: return, or raise an `EnvironmentError` whose
`str` is given. -/
abbrev Syscall (α : Type) := Except String α

/-- The calls `put_stats` makes: `os.open`, `os.lseek`, and the `os.write` behind
`uninterruptible`, given the number of bytes requested and returning the number written. The
helper retries on `EINTR`, so what raises here is any other failure. -/
structure WriteCalls where
  opened : Syscall Unit
  sought : Syscall Unit
  written : Nat → Syscall Nat

/-- The calls `get_raw_stats_for_service_type` makes: `os.open`, `os.lseek` and `readinto`, which
reads what the file holds from the offset, up to the buffer's length. -/
structure ReadCalls where
  opened : Syscall Unit
  sought : Syscall Unit
  read : Syscall Unit

/-- The buffer `put_stats` hands to `os.write`: `aligned_buffer(len(byte_data))` after
`write(byte_data)`, `byte_data` being the payload padded to a segment. -/
def stagedBuffer (data : Bytes) : Bytes :=
  let byteData := ljust data hostSegmentBytes
  bufferWrite (alignedBuffer byteData.length) byteData

/-- `StorageBroker.put_stats(service_type, host_id, data)` on the service's file, whose
`filename` offset is `base`. The result is the file after the call, or the error it raises,
which leaves the file as it was. -/
def putStats (calls : WriteCalls) (base hostId : Nat) (data storage : Bytes) :
    Except RequestError Bytes :=
  let offset := base + hostId * hostSegmentBytes
  match (do calls.opened; calls.sought; calls.written (stagedBuffer data).length : Syscall Nat) with
  | .error cause => .error ⟨"failed to write metadata: " ++ cause⟩
  | .ok count => .ok (writeAt storage offset ((stagedBuffer data).take count))

/-- The dict comprehension of `get_raw_stats_for_service_type`, in key order: each
`HOST_SEGMENT_BYTES` chunk of `data` whose first byte is not zero, keyed by its index. -/
def slotsOf (data : Bytes) : List (Nat × Bytes) :=
  (List.range ((data.length + hostSegmentBytes - 1) / hostSegmentBytes)).filterMap fun index =>
    if data.getD (index * hostSegmentBytes) 0 = 0 then none
    else some (index, readAt data (index * hostSegmentBytes) hostSegmentBytes)

/-- `StorageBroker.get_raw_stats_for_service_type(service_type)` on the service's file, whose
`filename` offset is `base`; `maxHostIdScan` is `constants.MAX_HOST_ID_SCAN`. -/
def getRawStatsForServiceType (maxHostIdScan : Nat) (calls : ReadCalls) (base : Nat)
    (storage : Bytes) : Except RequestError (List (Nat × Bytes)) :=
  let readSize := hostSegmentBytes * (maxHostIdScan + 1)
  let buffer := alignedBuffer readSize
  match (do calls.opened; calls.sought; calls.read : Syscall Unit) with
  | .error cause => .error ⟨"failed to read metadata: " ++ cause⟩
  | .ok () => .ok (slotsOf ((bufferWrite buffer (readAt storage base buffer.length)).take readSize))

def readPadded (storage : Bytes) (pos n : Nat) : Bytes :=
  (List.range n).map fun j => storage.getD (pos + j) 0

theorem getD_writeAt (device : Bytes) (pos : Nat) (data : Bytes) (i : Nat) :
    (writeAt device pos data).getD i 0 =
      if pos ≤ i ∧ i < pos + data.length then data.getD (i - pos) 0 else device.getD i 0 := by
  by_cases inside : i < max device.length (pos + data.length)
  · simp only [writeAt, List.getD_eq_getElem?_getD, List.getElem?_map, List.getElem?_range inside,
      Option.map_some', Option.getD_some]
    by_cases before : i < pos
    · simp [before, show ¬ pos ≤ i by omega]
    · by_cases within : i - pos < data.length
      · simp [before, show pos ≤ i ∧ i < pos + data.length by omega, List.getElem?_eq_getElem within]
      · simp [before, show ¬ (pos ≤ i ∧ i < pos + data.length) by omega,
          List.getElem?_eq_none (Nat.le_of_not_lt within)]
  · have beyond : device.length ≤ i := by omega
    simp only [writeAt, List.getD_eq_getElem?_getD, List.getElem?_map,
      List.getElem?_eq_none (show (List.range (max device.length (pos + data.length))).length ≤ i by
        simp only [List.length_range]; omega),
      Option.map_none', Option.getD_none, List.getElem?_eq_none beyond]
    rw [if_neg (by omega)]

@[simp] theorem length_readPadded (storage : Bytes) (pos n : Nat) :
    (readPadded storage pos n).length = n := by
  simp [readPadded]

theorem getElem?_readPadded (storage : Bytes) (pos n k : Nat) :
    (readPadded storage pos n)[k]? = if k < n then some (storage.getD (pos + k) 0) else none := by
  split_ifs with inside
  · simp [readPadded, List.getElem?_range inside]
  · rw [List.getElem?_eq_none (by simp; omega)]

theorem readPadded_writeAt_self (storage : Bytes) (pos : Nat) (data : Bytes) :
    readPadded (writeAt storage pos data) pos data.length = data := by
  apply List.ext_getElem?
  intro k
  rw [getElem?_readPadded]
  split_ifs with inside
  · rw [getD_writeAt, if_pos (by omega), Nat.add_sub_cancel_left, List.getD_eq_getElem _ _ inside,
      List.getElem?_eq_getElem inside]
  · rw [List.getElem?_eq_none (by omega)]

theorem readPadded_writeAt_apart (storage : Bytes) (pos : Nat) (data : Bytes) (from_ n : Nat)
    (apart : from_ + n ≤ pos ∨ pos + data.length ≤ from_) :
    readPadded (writeAt storage pos data) from_ n = readPadded storage from_ n := by
  apply List.map_congr_left
  intro j member
  rw [List.mem_range] at member
  rw [getD_writeAt, if_neg (by omega)]

theorem readAt_readPadded (storage : Bytes) (pos total from_ n : Nat) (within : from_ + n ≤ total) :
    readAt (readPadded storage pos total) from_ n = readPadded storage (pos + from_) n := by
  apply List.ext_getElem?
  intro k
  rw [getElem?_readAt, getElem?_readPadded, getElem?_readPadded]
  by_cases inside : k < n
  · rw [if_pos inside, if_pos (by omega), if_pos inside, Nat.add_assoc]
  · rw [if_neg inside, if_neg inside]

theorem bufferWrite_readAt (storage : Bytes) (pos n : Nat) :
    bufferWrite (List.replicate n 0) (readAt storage pos n) = readPadded storage pos n := by
  apply List.ext_getElem?
  intro k
  rw [getElem?_readPadded, bufferWrite]
  by_cases read : k < (readAt storage pos n).length
  · rw [List.getElem?_append_left read, getElem?_readAt]
    simp only [length_readAt] at read
    rw [if_pos (by omega), if_pos (by omega), List.getD_eq_getElem?_getD,
      List.getElem?_eq_getElem (show pos + k < storage.length by omega), Option.getD_some]
  · have readLength : (readAt storage pos n).length ≤ n := by simp
    rw [List.getElem?_append_right (by omega), List.getElem?_drop, List.getElem?_replicate]
    by_cases inside : k < n
    · have past : storage.length ≤ pos + k := by
        simp only [length_readAt, Nat.min_def] at read
        split_ifs at read <;> omega
      rw [if_pos (by omega), if_pos inside, List.getD_eq_default _ _ past]
    · rw [if_neg (by omega), if_neg inside]

theorem length_alignedBuffer (size : Nat) (aligned : size % storageBlockSize = 0) :
    (alignedBuffer size).length = size := by
  simp only [alignedBuffer, List.length_replicate, storageBlockSize] at aligned ⊢
  omega

@[simp] theorem length_ljust (data : Bytes) (width : Nat) :
    (ljust data width).length = max data.length width := by
  simp only [ljust, List.length_append, List.length_replicate]
  omega

theorem stagedBuffer_of_le (data : Bytes) (short : data.length ≤ hostSegmentBytes) :
    stagedBuffer data = ljust data hostSegmentBytes := by
  have padded : (ljust data hostSegmentBytes).length = hostSegmentBytes := by
    simp only [length_ljust]; omega
  rw [stagedBuffer, bufferWrite, padded,
    List.drop_eq_nil_of_le (by rw [length_alignedBuffer _ (by decide)]), List.append_nil]

/-- The calls of a request that succeeds: the file opens, the seek works, and the read or the
write moves every byte it is asked to. -/
def fullRead : ReadCalls := ⟨.ok (), .ok (), .ok ()⟩

def fullWrite : WriteCalls := ⟨.ok (), .ok (), fun requested => .ok requested⟩

theorem putStats_fullWrite (base hostId : Nat) (data storage : Bytes)
    (short : data.length ≤ hostSegmentBytes) :
    putStats fullWrite base hostId data storage =
      .ok (writeAt storage (base + hostId * hostSegmentBytes) (ljust data hostSegmentBytes)) := by
  simp only [putStats, fullWrite, bind, Except.bind, stagedBuffer_of_le data short, List.take_length]

def visibleSlots (maxHostIdScan : Nat) (slot : Nat → Bytes) : List (Nat × Bytes) :=
  (List.range (maxHostIdScan + 1)).filterMap fun index =>
    if (slot index).getD 0 0 = 0 then none else some (index, slot index)

theorem getRawStats_fullRead (maxHostIdScan base : Nat) (storage : Bytes) :
    getRawStatsForServiceType maxHostIdScan fullRead base storage =
      .ok (visibleSlots maxHostIdScan
        fun index => readPadded storage (base + index * hostSegmentBytes) hostSegmentBytes) := by
  have aligned : alignedBuffer (hostSegmentBytes * (maxHostIdScan + 1)) =
      List.replicate (hostSegmentBytes * (maxHostIdScan + 1)) 0 := by
    simp only [alignedBuffer, hostSegmentBytes, storageBlockSize]
    congr 1
    omega
  simp only [getRawStatsForServiceType, fullRead, bind, Except.bind, aligned, List.length_replicate,
    bufferWrite_readAt, List.take_of_length_le (le_of_eq (length_readPadded _ _ _))]
  refine congrArg Except.ok ?_
  rw [slotsOf, visibleSlots, length_readPadded,
    show (hostSegmentBytes * (maxHostIdScan + 1) + hostSegmentBytes - 1) / hostSegmentBytes =
      maxHostIdScan + 1 by simp only [hostSegmentBytes]; omega]
  apply List.filterMap_congr
  intro index member
  rw [List.mem_range] at member
  have window := readAt_readPadded storage base (hostSegmentBytes * (maxHostIdScan + 1))
    (index * hostSegmentBytes) hostSegmentBytes (by simp only [hostSegmentBytes]; omega)
  have first : (readPadded storage base (hostSegmentBytes * (maxHostIdScan + 1))).getD
      (index * hostSegmentBytes) 0 =
      (readPadded storage (base + index * hostSegmentBytes) hostSegmentBytes).getD 0 0 := by
    simp only [List.getD_eq_getElem?_getD, getElem?_readPadded]
    rw [if_pos (by simp only [hostSegmentBytes]; omega), if_pos (by decide), Nat.add_zero]
  rw [window, first]

theorem readPadded_putSlot (storage : Bytes) (base hostId index : Nat) (data : Bytes)
    (short : data.length ≤ hostSegmentBytes) :
    readPadded (writeAt storage (base + hostId * hostSegmentBytes) (ljust data hostSegmentBytes))
        (base + index * hostSegmentBytes) hostSegmentBytes =
      if hostId = index then ljust data hostSegmentBytes
      else readPadded storage (base + index * hostSegmentBytes) hostSegmentBytes := by
  have padded : (ljust data hostSegmentBytes).length = hostSegmentBytes := by
    simp only [length_ljust]; omega
  split_ifs with same
  · subst same
    have self := readPadded_writeAt_self storage (base + hostId * hostSegmentBytes)
      (ljust data hostSegmentBytes)
    rwa [padded] at self
  · exact readPadded_writeAt_apart _ _ _ _ _ (by rw [padded]; simp only [hostSegmentBytes] at *; omega)

/-- `put_stats` calls one after another, each of whose requests succeeds. -/
def putStatsSeq (base : Nat) : List (Nat × Bytes) → Bytes → Except RequestError Bytes
  | [], storage => .ok storage
  | (hostId, data) :: writes, storage =>
    (putStats fullWrite base hostId data storage).bind (putStatsSeq base writes)

/-- What slot `index` holds after `writes`, as the whiteboard's contract has it: the last
payload written to it right-padded with zeros, or what it held before. -/
def currentSlot (initial : Bytes) (base : Nat) (writes : List (Nat × Bytes)) (index : Nat) :
    Bytes :=
  writes.foldl (fun slot write => if write.1 = index then ljust write.2 hostSegmentBytes else slot)
    (readPadded initial (base + index * hostSegmentBytes) hostSegmentBytes)

theorem putStatsSeq_slots (base : Nat) (writes : List (Nat × Bytes)) (initial : Bytes)
    (short : ∀ write ∈ writes, write.2.length ≤ hostSegmentBytes) :
    ∃ final, putStatsSeq base writes initial = .ok final ∧ ∀ index,
      readPadded final (base + index * hostSegmentBytes) hostSegmentBytes =
        currentSlot initial base writes index := by
  induction writes generalizing initial with
  | nil => exact ⟨initial, rfl, fun index => by rw [currentSlot, List.foldl_nil]⟩
  | cons write writes ih =>
    obtain ⟨hostId, data⟩ := write
    obtain ⟨final, run, slots⟩ := ih
      (writeAt initial (base + hostId * hostSegmentBytes) (ljust data hostSegmentBytes))
      (fun write member => short write (List.mem_cons_of_mem _ member))
    refine ⟨final, ?_, fun index => ?_⟩
    · rw [putStatsSeq, putStats_fullWrite _ _ _ _ (short _ (List.mem_cons_self _ _))]
      exact run
    · rw [slots index, currentSlot, currentSlot, List.foldl_cons,
        readPadded_putSlot _ _ _ _ _ (short _ (List.mem_cons_self _ _))]

/-- Whiteboard contract: after any sequence of successful `put_stats` calls with payloads
that fit a slot, over any initial content, `get_raw_stats_for_service_type` returns exactly
the slots in `[0, MAX_HOST_ID_SCAN]` whose current first byte is not zero, each with its
current bytes. -/
theorem getRawStats_after_putStats (maxHostIdScan base : Nat) (initial : Bytes)
    (writes : List (Nat × Bytes)) (short : ∀ write ∈ writes, write.2.length ≤ hostSegmentBytes) :
    ∃ final, putStatsSeq base writes initial = .ok final ∧
      getRawStatsForServiceType maxHostIdScan fullRead base final =
        .ok (visibleSlots maxHostIdScan (currentSlot initial base writes)) := by
  obtain ⟨final, run, slots⟩ := putStatsSeq_slots base writes initial short
  refine ⟨final, run, ?_⟩
  rw [getRawStats_fullRead]
  simp only [slots]

theorem getRawStats_after_putStats_scenario :
    (∀ write ∈ [((7 : Nat), ([1, 97, 98, 99] : Bytes)), (3, [2, 120]), (7, [5])],
        write.2.length ≤ hostSegmentBytes) ∧
      (∃ final, putStatsSeq 0 [(7, [1, 97, 98, 99]), (3, [2, 120]), (7, [5])] [] = .ok final ∧
        getRawStatsForServiceType 250 fullRead 0 final =
          .ok (visibleSlots 250 (currentSlot [] 0 [(7, [1, 97, 98, 99]), (3, [2, 120]), (7, [5])]))) ∧
      currentSlot [] 0 [(7, [1, 97, 98, 99]), (3, [2, 120]), (7, [5])] 7 = ljust [5] hostSegmentBytes ∧
      currentSlot [] 0 [(7, [1, 97, 98, 99]), (3, [2, 120]), (7, [5])] 3 =
        ljust [2, 120] hostSegmentBytes := by
  have short : ∀ write ∈ [((7 : Nat), ([1, 97, 98, 99] : Bytes)), (3, [2, 120]), (7, [5])],
      write.2.length ≤ hostSegmentBytes := by decide
  exact ⟨short, getRawStats_after_putStats 250 0 [] _ short, rfl, rfl⟩

/-- What `put_stats` does for any behaviour of its system calls when it returns: the storage
with the first `count` bytes of the staged buffer at the host's offset, `count` being what
`os.write` reported. -/
theorem putStats_eq_ok (calls : WriteCalls) (base hostId : Nat) (data storage written : Bytes) :
    putStats calls base hostId data storage = .ok written ↔
      ∃ count, (do calls.opened; calls.sought; calls.written (stagedBuffer data).length :
          Syscall Nat) = .ok count ∧
        written = writeAt storage (base + hostId * hostSegmentBytes)
          ((stagedBuffer data).take count) := by
  unfold putStats
  cases result : (do calls.opened; calls.sought; calls.written (stagedBuffer data).length :
      Syscall Nat) with
  | error cause => simp
  | ok count => simp [eq_comm]

theorem stagedBuffer_of_aligned (data : Bytes) (long : hostSegmentBytes ≤ data.length)
    (aligned : data.length % storageBlockSize = 0) : stagedBuffer data = data := by
  have padded : ljust data hostSegmentBytes = data := by
    rw [ljust, Nat.sub_eq_zero_of_le long, List.replicate_zero, List.append_nil]
  rw [stagedBuffer, padded, bufferWrite, List.drop_eq_nil_of_le
    (by rw [length_alignedBuffer _ aligned]), List.append_nil]

/-- `put_stats` neither rejects a payload longer than a slot nor checks how much `os.write`
wrote: a two-segment payload for host 0 returns normally and overwrites the first byte of host
1's slot, and a write that moves one byte returns normally and leaves the rest of the slot as
it was rather than zero-padded. -/
theorem putStats_spills_and_tears :
    (∃ written, putStats fullWrite 0 0 (List.replicate 8192 1) (List.replicate 8192 0) =
        .ok written ∧ written.getD hostSegmentBytes 0 = 1) ∧
      ∃ written, putStats ⟨.ok (), .ok (), fun _ => .ok 1⟩ 0 0 [1] (List.replicate 4096 7) =
        .ok written ∧ written.getD 1 0 = 7 := by
  constructor
  · have long : (List.replicate 8192 (1 : UInt8)).length = 8192 := List.length_replicate _ _
    have staged := stagedBuffer_of_aligned (List.replicate 8192 1) (by rw [long]; decide)
      (by rw [long]; decide)
    refine ⟨_, (putStats_eq_ok _ _ _ _ _ _).mpr ⟨8192, by rw [staged, long]; rfl, rfl⟩, ?_⟩
    rw [staged, List.take_of_length_le (by rw [long]), getD_writeAt, if_pos (by rw [long]; decide),
      List.getD_eq_getElem _ _ (by rw [long]; decide), List.getElem_replicate]
  · refine ⟨_, (putStats_eq_ok _ _ _ _ _ _).mpr ⟨1, rfl, rfl⟩, ?_⟩
    have one : (List.take 1 (stagedBuffer [1])).length ≤ 1 := by
      rw [List.length_take]; exact Nat.min_le_left _ _
    rw [getD_writeAt, if_neg (by omega),
      List.getD_eq_getElem _ _ (by rw [List.length_replicate]; decide), List.getElem_replicate]

end HostedEngineHa.Whiteboard
