import DocPress.Archive.Basic
import DocPress.Archive.Inflate

/-!
# Methods of packing

A member is stored as it is, or packed by one of three methods.  What is unpacked from the
beginning of packed content is a beginning of the content.
-/

namespace DocPress.Archive

/-- What LZMA content gives: after four bytes, the last two of which are the length of the
properties, the properties and the code. -/
def unpackLzma? (lib : Library) (packed : Bytes) : Option (Bytes × Bool) :=
  let start := 4 + short packed 2
  if packed.length ≤ 4 || packed.length ≤ start then some ([], false)
  else lib.unlzma? (slice packed 4 (short packed 2)) (packed.drop start)

/-- What packed content gives as far as it goes, and whether its end was reached.  Nothing is
made of nothing, and stored content has no end of its own. -/
def extracted (lib : Library) (method : Nat) (packed : Bytes) :
    Except ArchiveError (Bytes × Bool) :=
  if !([0, 8, 12, 14].contains method) then .error .unsupported
  else if packed.isEmpty || method = 0 then .ok (packed, false)
  else if method = 8 then (inflate? packed).elim (.error .corrupt) .ok
  else if method = 12 then (lib.bunzip2? packed).elim (.error .badStream) .ok
  else (unpackLzma? lib packed).elim (.error .badCode) .ok

end DocPress.Archive
