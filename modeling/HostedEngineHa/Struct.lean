import Mathlib.Data.List.Basic
import Mathlib.Tactic.Ring

/-! Python 2 byte strings, the network-order `struct` codecs of the info-block format
(`!Q`, `!L`, `64p` and `unpack_from`), and positioned reads and writes on a byte device. -/
namespace HostedEngineHa

/-- A Python 2 `str`, read as bytes. -/
abbrev Bytes := List UInt8

/-- `struct.error`: a value outside its format code's range, or a buffer too short for
`unpack_from` at the requested offset. -/
inductive StructError where
  | outOfRange
  | shortBuffer
  deriving DecidableEq, Repr

/-- Unsigned network-order encoding on `width` bytes, most significant byte first. -/
def packUnsigned : Nat → Nat → Bytes
  | 0, _ => []
  | width + 1, value => packUnsigned width (value / 256) ++ [UInt8.ofNat value]

def unpackUnsigned (bytes : Bytes) : Nat :=
  bytes.foldl (fun acc byte => acc * 256 + byte.toNat) 0

/-- `struct.pack("!Q", value)`. -/
def packQ (value : Nat) : Except StructError Bytes :=
  if value < 2 ^ 64 then .ok (packUnsigned 8 value) else .error .outOfRange

/-- `struct.pack("!L", value)`. -/
def packL (value : Nat) : Except StructError Bytes :=
  if value < 2 ^ 32 then .ok (packUnsigned 4 value) else .error .outOfRange

/-- `struct.pack("64p", name)`: a length byte, at most 63 name bytes, zero padding. -/
def packPascal (name : Bytes) : Bytes :=
  UInt8.ofNat (min name.length 63) :: (name.take 63 ++ List.replicate (63 - name.length) 0)

/-- `struct.unpack("64p", field)`: the length byte, capped at 63, selects the name. -/
def unpackPascal : Bytes → Bytes
  | [] => []
  | length :: rest => rest.take (min length.toNat 63)

/-- `unpack_from` of a `size`-byte format at `offset`: the bytes it decodes. -/
def unpackFrom (size : Nat) (buffer : Bytes) (offset : Nat) : Except StructError Bytes :=
  if offset + size ≤ buffer.length then .ok ((buffer.drop offset).take size)
  else .error .shortBuffer

@[simp] theorem toNat_ofNat_byte (n : Nat) : (UInt8.ofNat n).toNat = n % 256 := rfl

@[simp] theorem length_packUnsigned (width value : Nat) :
    (packUnsigned width value).length = width := by
  induction width generalizing value <;> simp [packUnsigned, *]

theorem foldl_horner (bytes : Bytes) (acc : Nat) :
    bytes.foldl (fun acc byte => acc * 256 + byte.toNat) acc =
      acc * 256 ^ bytes.length + unpackUnsigned bytes := by
  induction bytes generalizing acc with
  | nil => simp [unpackUnsigned]
  | cons byte bytes ih =>
    simp only [unpackUnsigned, List.foldl_cons, ih (acc * 256 + byte.toNat),
      ih (0 * 256 + byte.toNat), List.length_cons, Nat.pow_succ]
    ring

theorem unpackUnsigned_append (xs ys : Bytes) :
    unpackUnsigned (xs ++ ys) = unpackUnsigned xs * 256 ^ ys.length + unpackUnsigned ys := by
  rw [unpackUnsigned, List.foldl_append, foldl_horner]
  rfl

theorem unpackUnsigned_packUnsigned (width value : Nat) :
    unpackUnsigned (packUnsigned width value) = value % 256 ^ width := by
  induction width generalizing value with
  | zero => simp [packUnsigned, unpackUnsigned, Nat.mod_one]
  | succ width ih =>
    rw [packUnsigned, unpackUnsigned_append, ih, Nat.pow_succ', Nat.mod_mul]
    simp [unpackUnsigned]
    omega

theorem unpackUnsigned_lt (bytes : Bytes) : unpackUnsigned bytes < 256 ^ bytes.length := by
  induction bytes using List.reverseRecOn with
  | nil => simp [unpackUnsigned]
  | append_singleton bytes byte ih =>
    have := UInt8.toNat_lt_size byte
    simp only [unpackUnsigned_append, List.length_append, List.length_singleton, Nat.pow_succ]
    simp only [unpackUnsigned, List.foldl, UInt8.size] at *
    omega

theorem packUnsigned_unpackUnsigned (bytes : Bytes) :
    packUnsigned bytes.length (unpackUnsigned bytes) = bytes := by
  induction bytes using List.reverseRecOn with
  | nil => rfl
  | append_singleton bytes byte ih =>
    have low : byte.toNat < 256 := UInt8.toNat_lt_size byte
    have last : unpackUnsigned [byte] = byte.toNat := by simp [unpackUnsigned]
    rw [List.length_append, List.length_singleton, packUnsigned, unpackUnsigned_append, last,
      List.length_singleton, pow_one, show (unpackUnsigned bytes * 256 + byte.toNat) / 256 =
        unpackUnsigned bytes by omega, ih]
    congr
    exact UInt8.toNat.inj (by simp; omega)

@[simp] theorem length_packPascal (name : Bytes) : (packPascal name).length = 64 := by
  simp [packPascal]
  omega

theorem unpackPascal_packPascal (name : Bytes) (short : name.length ≤ 63) :
    unpackPascal (packPascal name) = name := by
  have length : min (UInt8.ofNat (min name.length 63)).toNat 63 = name.length := by
    simp only [toNat_ofNat_byte]; omega
  simp only [packPascal, unpackPascal, length, List.take_of_length_le short]
  exact List.take_left' rfl

/-- `seek(pos)` and `read(n)`: up to `n` bytes, fewer at the end of the device. -/
def readAt (device : Bytes) (pos n : Nat) : Bytes := (device.drop pos).take n

/-- `seek(pos)` and `write(data)` on a device opened without truncation. The bytes at `pos`
are replaced; a write past the end extends the device, the gap reading as zeros. -/
def writeAt (device : Bytes) (pos : Nat) (data : Bytes) : Bytes :=
  (List.range (max device.length (pos + data.length))).map fun i =>
    if i < pos then device.getD i 0 else data.getD (i - pos) (device.getD i 0)

theorem getElem?_readAt (device : Bytes) (pos n k : Nat) :
    (readAt device pos n)[k]? = if k < n then device[pos + k]? else none := by
  simp [readAt, List.getElem?_take, List.getElem?_drop]

theorem readAt_append (pre rest : Bytes) (k n : Nat) :
    readAt (pre ++ rest) (pre.length + k) n = readAt rest k n := by
  simp [readAt, List.drop_append]

theorem readAt_append_of_le (pre rest : Bytes) (pos n : Nat) (within : pos + n ≤ pre.length) :
    readAt (pre ++ rest) pos n = readAt pre pos n := by
  rw [readAt, readAt, List.drop_append_of_le_length (by omega),
    List.take_append_of_le_length (by simp; omega)]

theorem readAt_add (device : Bytes) (pos a b : Nat) :
    readAt device pos (a + b) = readAt device pos a ++ readAt device (pos + a) b := by
  simp [readAt, List.take_add, List.drop_drop, Nat.add_comm]

theorem readAt_middle (pre mid tail : Bytes) :
    readAt (pre ++ (mid ++ tail)) pre.length mid.length = mid := by
  simp [readAt]

@[simp] theorem length_readAt (device : Bytes) (pos n : Nat) :
    (readAt device pos n).length = min n (device.length - pos) := by
  simp [readAt]

theorem readAt_set (device : Bytes) (pos k n : Nat) (byte : UInt8) :
    readAt (device.set (pos + k) byte) pos n = (readAt device pos n).set k byte := by
  apply List.ext_getElem?
  intro j
  by_cases same : k = j
  · subst same
    simp only [getElem?_readAt, List.getElem?_set, if_true, length_readAt]
    split_ifs <;> first | rfl | omega
  · simp [getElem?_readAt, List.getElem?_set, same]

theorem readAt_set_of_apart (device : Bytes) (pos n p : Nat) (byte : UInt8)
    (apart : p < pos ∨ pos + n ≤ p) :
    readAt (device.set p byte) pos n = readAt device pos n := by
  apply List.ext_getElem?
  intro j
  simp only [getElem?_readAt, List.getElem?_set]
  split_ifs <;> first | rfl | omega

theorem readAt_readAt (device : Bytes) (p q n m : Nat) (within : q + m ≤ n) :
    readAt (readAt device p n) q m = readAt device (p + q) m := by
  apply List.ext_getElem?
  intro j
  simp only [getElem?_readAt]
  by_cases inside : j < m
  · simp [inside, show q + j < n by omega, Nat.add_assoc]
  · simp [inside]

@[simp] theorem length_writeAt (device : Bytes) (pos : Nat) (data : Bytes) :
    (writeAt device pos data).length = max device.length (pos + data.length) := by
  simp [writeAt]

theorem getElem?_writeAt (device : Bytes) (pos : Nat) (data : Bytes) (i : Nat)
    (inside : i < max device.length (pos + data.length)) :
    (writeAt device pos data)[i]? =
      some (if i < pos then device.getD i 0 else data.getD (i - pos) (device.getD i 0)) := by
  simp only [writeAt, List.getElem?_map, List.getElem?_range inside, Option.map_some']

theorem getElem?_writeAt_before (device : Bytes) (pos : Nat) (data : Bytes) (i : Nat)
    (before : i < pos) (inside : i < device.length) :
    (writeAt device pos data)[i]? = device[i]? := by
  rw [getElem?_writeAt _ _ _ _ (by omega), if_pos before, List.getD_eq_getElem?_getD,
    List.getElem?_eq_getElem inside, Option.getD_some]

theorem getElem?_writeAt_within (device : Bytes) (pos : Nat) (data : Bytes) (i : Nat)
    (after : pos ≤ i) (within : i < pos + data.length) :
    (writeAt device pos data)[i]? = data[i - pos]? := by
  rw [getElem?_writeAt _ _ _ _ (by omega), if_neg (by omega), List.getD_eq_getElem?_getD,
    List.getElem?_eq_getElem (show i - pos < data.length by omega), Option.getD_some]

theorem getElem?_writeAt_beyond (device : Bytes) (pos : Nat) (data : Bytes) (i : Nat)
    (beyond : pos + data.length ≤ i) :
    (writeAt device pos data)[i]? = device[i]? := by
  by_cases inside : i < device.length
  · rw [getElem?_writeAt _ _ _ _ (by omega), if_neg (by omega), List.getD_eq_getElem?_getD,
      List.getElem?_eq_none (by omega), Option.getD_none, List.getD_eq_getElem?_getD,
      List.getElem?_eq_getElem inside, Option.getD_some]
  · rw [List.getElem?_eq_none (by simp; omega), List.getElem?_eq_none (by omega)]

theorem writeAt_zero_append (old rest data : Bytes) (same : old.length = data.length) :
    writeAt (old ++ rest) 0 data = data ++ rest := by
  apply List.ext_getElem?
  intro i
  by_cases inside : i < data.length
  · rw [getElem?_writeAt_within _ _ _ _ (Nat.zero_le i) (by omega), Nat.sub_zero,
      List.getElem?_append_left inside]
  · rw [getElem?_writeAt_beyond _ _ _ _ (by omega), List.getElem?_append_right (by omega),
      List.getElem?_append_right (by omega), same]

end HostedEngineHa
