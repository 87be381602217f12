import HostedEngineHa.Struct
import Mathlib.Data.Nat.Bitwise

/-! zlib's CRC-32 as the info-block format uses it, and the fact the corruption check rests
on: messages that differ in exactly one byte never share a CRC. -/
namespace HostedEngineHa

def crcPolynomial : Nat := 0xEDB88320

def crcBit (register : Nat) : Nat :=
  if register % 2 = 1 then register / 2 ^^^ crcPolynomial else register / 2

def crcBits : Nat → Nat → Nat
  | 0, register => register
  | count + 1, register => crcBits count (crcBit register)

def crcByte (register : Nat) (byte : UInt8) : Nat := crcBits 8 (register ^^^ byte.toNat)

/-- `zlib.crc32(data) & 0xffffffff`, bit by bit; zlib's table-driven loop computes the same
register one byte at a time. -/
def crc32 (data : Bytes) : Nat := data.foldl crcByte 0xFFFFFFFF ^^^ 0xFFFFFFFF

theorem crcBit_lt (register : Nat) (bound : register < 2 ^ 32) : crcBit register < 2 ^ 32 := by
  unfold crcBit
  split
  · exact Nat.xor_lt_two_pow (by omega) (by decide)
  · omega

theorem testBit_crcBit (register : Nat) (bound : register < 2 ^ 32) :
    (crcBit register).testBit 31 = decide (register % 2 = 1) := by
  have low : (register / 2).testBit 31 = false := Nat.testBit_lt_two_pow (by omega)
  have top : crcPolynomial.testBit 31 = true := by decide
  unfold crcBit
  split <;> simp [*]

theorem crcBit_injective (a b : Nat) (boundA : a < 2 ^ 32) (boundB : b < 2 ^ 32)
    (same : crcBit a = crcBit b) : a = b := by
  have parity : a % 2 = b % 2 := by
    have := congrArg (Nat.testBit · 31) same
    simp only [testBit_crcBit a boundA, testBit_crcBit b boundB, decide_eq_decide] at this
    omega
  have half : a / 2 = b / 2 := by
    unfold crcBit at same
    rcases Nat.mod_two_eq_zero_or_one a with even | odd
    · simpa [even, show b % 2 = 0 by omega] using same
    · simpa [odd, show b % 2 = 1 by omega] using same
  omega

theorem crcBits_lt (count register : Nat) (bound : register < 2 ^ 32) :
    crcBits count register < 2 ^ 32 := by
  induction count generalizing register with
  | zero => exact bound
  | succ count ih => exact ih _ (crcBit_lt register bound)

theorem crcBits_injective (count a b : Nat) (boundA : a < 2 ^ 32) (boundB : b < 2 ^ 32)
    (same : crcBits count a = crcBits count b) : a = b := by
  induction count generalizing a b with
  | zero => exact same
  | succ count ih =>
    exact crcBit_injective a b boundA boundB
      (ih _ _ (crcBit_lt a boundA) (crcBit_lt b boundB) same)

theorem xor_byte_lt (register : Nat) (byte : UInt8) (bound : register < 2 ^ 32) :
    register ^^^ byte.toNat < 2 ^ 32 :=
  Nat.xor_lt_two_pow bound (by have := UInt8.toNat_lt_size byte; simp [UInt8.size] at this; omega)

theorem crcByte_lt (register : Nat) (byte : UInt8) (bound : register < 2 ^ 32) :
    crcByte register byte < 2 ^ 32 :=
  crcBits_lt 8 _ (xor_byte_lt register byte bound)

theorem crcByte_injective_register (a b : Nat) (byte : UInt8) (boundA : a < 2 ^ 32)
    (boundB : b < 2 ^ 32) (same : crcByte a byte = crcByte b byte) : a = b :=
  Nat.xor_left_injective
    (crcBits_injective 8 _ _ (xor_byte_lt a byte boundA) (xor_byte_lt b byte boundB) same)

theorem crcByte_injective_byte (register : Nat) (x y : UInt8) (bound : register < 2 ^ 32)
    (same : crcByte register x = crcByte register y) : x = y :=
  UInt8.toNat.inj <| Nat.xor_right_injective
    (crcBits_injective 8 _ _ (xor_byte_lt register x bound) (xor_byte_lt register y bound) same)

theorem foldl_crcByte_lt (data : Bytes) (register : Nat) (bound : register < 2 ^ 32) :
    data.foldl crcByte register < 2 ^ 32 := by
  induction data generalizing register with
  | nil => exact bound
  | cons byte data ih => exact ih _ (crcByte_lt register byte bound)

theorem foldl_crcByte_injective (data : Bytes) (a b : Nat) (boundA : a < 2 ^ 32)
    (boundB : b < 2 ^ 32) (same : data.foldl crcByte a = data.foldl crcByte b) : a = b := by
  induction data generalizing a b with
  | nil => exact same
  | cons byte data ih =>
    exact crcByte_injective_register a b byte boundA boundB
      (ih _ _ (crcByte_lt a byte boundA) (crcByte_lt b byte boundB) same)

theorem crc32_lt (data : Bytes) : crc32 data < 2 ^ 32 :=
  Nat.xor_lt_two_pow (foldl_crcByte_lt data _ (by decide)) (by decide)

/-- CRC-32 detects every error confined to one byte: the byte's contribution enters the
register injectively, and the remaining bytes act on the register injectively. -/
theorem crc32_ne_of_byte_ne (before after : Bytes) (x y : UInt8) (changed : x ≠ y) :
    crc32 (before ++ x :: after) ≠ crc32 (before ++ y :: after) := by
  intro same
  have bound := foldl_crcByte_lt before 0xFFFFFFFF (by decide)
  have registers := foldl_crcByte_injective after _ _ (crcByte_lt _ x bound)
    (crcByte_lt _ y bound) (by simpa [crc32, List.foldl_append] using same)
  exact changed (crcByte_injective_byte _ x y bound registers)

end HostedEngineHa
