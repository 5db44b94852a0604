/-!
# Checksums

The cyclic redundancy check with 32 bits that archives and network frames use: the bytes are the
coefficients of a polynomial over two elements, least bit first, and the checksum is the remainder
of its division by a fixed one, with all bits flipped before and after.
-/

namespace ChainIndex.Checksum

/-- The divisor without its leading coefficient, least bit first. -/
def divisor : UInt32 := 0xedb88320

/-- The remainder after one more bit. -/
def shift (remainder : UInt32) : UInt32 :=
  if remainder % 2 = 1 then (remainder / 2).xor divisor else remainder / 2

/-- The remainder after one more byte. -/
def feed (remainder : UInt32) (byte : UInt8) : UInt32 :=
  (List.range 8).foldl (fun r _ => shift r) (remainder.xor byte.toUInt32)

/-- The checksum of some bytes. -/
def ofBytes (bytes : List UInt8) : UInt32 :=
  (bytes.foldl feed 0xffffffff).xor 0xffffffff

/-- The checksum of a text in UTF-8. -/
def ofText (s : String) : UInt32 := ofBytes s.toUTF8.toList

end ChainIndex.Checksum
