import Recordkeeper.Text.Utf8

/-!
Contract: the cyclic redundancy check that spreads keys.

Owns: the 32-bit check with the reflected polynomial 0xEDB88320, started and ended inverted.

Does not own: what the check is used for.
-/

set_option autoImplicit false

namespace Recordkeeper.KeyValue

def checksumBit (crc : UInt32) : UInt32 :=
  if crc % 2 = 1 then (crc >>> 1) ^^^ 0xEDB88320 else crc >>> 1

def checksumBits : Nat → UInt32 → UInt32
  | 0, crc => crc
  | n + 1, crc => checksumBits n (checksumBit crc)

def checksumByte (crc : UInt32) (b : UInt8) : UInt32 :=
  checksumBits 8 (crc ^^^ b.toUInt32)

def checksum (bytes : Bytes) : UInt32 := (bytes.foldl checksumByte 0xFFFFFFFF) ^^^ 0xFFFFFFFF

end Recordkeeper.KeyValue
