import VectorSearch.Lib.LittleEndian

namespace VectorSearch

/-!
# CRC-32

The reflected cyclic redundancy check with polynomial `0xEDB88320` that
`zlib.crc32` computes, one bit at a time.
-/

namespace Crc32

/-- Shift one bit out, folding the polynomial in when it was set. -/
def shift (state : UInt32) : UInt32 :=
  if state &&& 1 = 1 then (state >>> 1) ^^^ 0xEDB88320 else state >>> 1

def absorb (state : UInt32) (byte : UInt8) : UInt32 :=
  Nat.repeat shift 8 (state ^^^ byte.toUInt32)

end Crc32

/-- The checksum of a byte string, starting from zero. -/
def crc32 (bytes : Bytes) : UInt32 :=
  bytes.foldl Crc32.absorb 0xFFFFFFFF ^^^ 0xFFFFFFFF

/-- The check value of the algorithm: the digits `123456789`. -/
example : crc32 [49, 50, 51, 52, 53, 54, 55, 56, 57] = 0xCBF43926 := by decide +kernel

end VectorSearch
