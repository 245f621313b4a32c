import ShaderCache.Text.Numeral

/-!
# The CRC-64/NVME checksum

Reflected, with all bits set at the start and inverted at the end. It only names
configurations in messages: whether two of them are equal is never decided by it.
-/

set_option autoImplicit false

namespace ShaderCache.Crc64

/-- `0xAD93D23594C93659` with the order of its bits reversed. -/
def polynomial : UInt64 := 0x9A6C9329AC4BC9B5

def shift (remainder : UInt64) : UInt64 :=
  if remainder &&& 1 = 1 then (remainder >>> 1) ^^^ polynomial else remainder >>> 1

def shifts : Nat → UInt64 → UInt64
  | 0, remainder => remainder
  | count + 1, remainder => shifts count (shift remainder)

def absorb (remainder : UInt64) (byte : UInt8) : UInt64 :=
  shifts 8 (remainder ^^^ byte.toUInt64)

def checksum (bytes : List UInt8) : UInt64 :=
  ~~~bytes.foldl absorb 0xFFFFFFFFFFFFFFFF

/-- The checksum as it is printed: sixteen hexadecimal digits. -/
def digest (bytes : List UInt8) : String :=
  Text.hex64 (checksum bytes)

end ShaderCache.Crc64
