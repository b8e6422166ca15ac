/-!
# The CRC-32 checksum

The cyclic redundancy check with the reflected polynomial `0xEDB88320`, started from all ones
and complemented at the end.

## Main definitions

* `Crc32.feed` — one byte.
* `Crc32.checksum` — the whole message.
-/

namespace EditGraph.Crc32

/-- Divides one more bit out of the register. -/
def shiftBit (register : UInt32) : UInt32 :=
  if register &&& 1 = 1 then (register >>> 1) ^^^ 0xEDB88320 else register >>> 1

/-- Divides the low `n` bits out of the register. -/
def shiftBits : Nat → UInt32 → UInt32
  | 0, register => register
  | n + 1, register => shiftBits n (shiftBit register)

/-- The register after one more byte. -/
def feed (register : UInt32) (byte : UInt8) : UInt32 :=
  shiftBits 8 (register ^^^ byte.toUInt32)

/-- The checksum of a message. -/
def checksum (message : List UInt8) : UInt32 :=
  ~~~(message.foldl feed 0xFFFFFFFF)

end EditGraph.Crc32
