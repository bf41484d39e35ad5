import DocPress.Text.Utf8

/-!
# Checksums

The remainder of bytes, taken as a polynomial over two elements, by the
polynomial that archives use.
-/

namespace DocPress.Archive

/-- One step of the division. -/
def checksumBit (r : UInt32) : UInt32 :=
  if r &&& 1 = 1 then (r >>> 1) ^^^ 0xEDB88320 else r >>> 1

/-- The division by the eight bits of a byte. -/
def checksumByte (r : UInt32) (b : UInt8) : UInt32 :=
  (List.replicate 8 ()).foldl (fun r _ => checksumBit r) (r ^^^ b.toUInt32)

/-- The checksum of bytes. -/
def checksum (bs : Bytes) : UInt32 := (bs.foldl checksumByte 0xFFFFFFFF) ^^^ 0xFFFFFFFF

end DocPress.Archive
