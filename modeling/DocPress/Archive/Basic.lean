import DocPress.Text.Utf8

/-!
# What archives are read with

The errors of archives, the numbers in their records, and the library that reads them.
Content packed by bzip2 or by LZMA is unpacked by other libraries, which are given; the
releases of the library differ in two of their checks.
-/

namespace DocPress.Archive

/-- Why an archive or one of its members cannot be read. -/
inductive ArchiveError where
  /-- The parts of the archive do not fit together. -/
  | damaged
  /-- A member needs more than this library knows. -/
  | unsupported
  /-- A member needs a password. -/
  | encrypted
  /-- The content of a member goes beyond the end of the file. -/
  | cutOff
  /-- The packed content of a member is against the rules. -/
  | corrupt
  /-- Content packed by bzip2 is against the rules. -/
  | badStream
  /-- Content packed by LZMA is against the rules. -/
  | badCode
  /-- A name is no text. -/
  | badName (e : Utf8.DecodeError)
  /-- A member has no name. -/
  | noName
  /-- A member would stand where no file has a place: before its beginning, or too far behind it. -/
  | misplaced
  /-- The place of a member is no number of 64 bits. -/
  | unplaceable
deriving DecidableEq, Inhabited

/-- The library that reads archives, with what it takes from others. -/
structure Library where
  /-- What bzip2 content gives as far as it goes, and whether its end was reached; nothing if
  it is against the rules. -/
  bunzip2? : Bytes → Option (Bytes × Bool)
  /-- The same for content packed by LZMA with the given properties. -/
  unlzma? : Bytes → Bytes → Option (Bytes × Bool)
  /-- Whether this release refuses a member that reaches into the next one. -/
  refusesOverlaps : Bool
  /-- Whether this release refuses a member without a name. -/
  refusesNoName : Bool
  /-- The last place of a file that the disk allows to be asked for. -/
  lastPlace : Nat

/-- Bytes of a file from a place on. -/
def slice (bs : Bytes) (start size : Nat) : Bytes := (bs.drop start).take size

/-- The number that bytes write, lowest byte first. -/
def littleEndian : Bytes → Nat
  | [] => 0
  | b :: rest => b.toNat + 256 * littleEndian rest

/-- A number of two bytes at a place. -/
def short (bs : Bytes) (start : Nat) : Nat := littleEndian (slice bs start 2)

/-- A number of four bytes at a place. -/
def long (bs : Bytes) (start : Nat) : Nat := littleEndian (slice bs start 4)

/-- A number of eight bytes at a place. -/
def wide (bs : Bytes) (start : Nat) : Nat := littleEndian (slice bs start 8)

/-- The greatest number of four bytes; it stands for one that needs eight. -/
def longest : Nat := 0xFFFFFFFF

/-- The greatest number of eight bytes. -/
def widest : Nat := 0xFFFFFFFFFFFFFFFF

/-- The first four bytes of every record. -/
def mark (a b : UInt8) : Bytes := [0x50, 0x4B, a, b]

end DocPress.Archive
