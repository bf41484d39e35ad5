import DocPress.Archive.Checksum
import DocPress.Archive.CodePage
import DocPress.Archive.EndRecord
import DocPress.Archive.Method

/-!
# Archives

Anything may stand in front of an archive, so places in it are counted from
where the directory is found.  A member is read through its own header, and its
content must have the checksum that the directory gives.
-/

namespace DocPress.Archive

/-! ### The directory -/

/-- The sizes and the place that a directory gives for a member. -/
structure Extent where
  size : Nat
  packedSize : Nat
  place : Nat
deriving DecidableEq, Inhabited

/-- A member of an archive as the directory lists it. -/
structure Listing where
  writtenName : Text
  flags : Nat
  method : Nat
  checksum : Nat
  packedSize : Nat
  size : Nat
  place : Int
deriving DecidableEq, Inhabited

/-- A member of an archive, with the place where it must have ended. -/
structure Member extends Listing where
  limit : Int
deriving DecidableEq, Inhabited

namespace Member

/-- The name of a member ends before the first null character. -/
def name (m : Member) : Text := m.writtenName.takeWhile (· != '\x00')

/-- Whether a member has a flag. -/
def hasFlag (m : Member) (n : Nat) : Bool := m.flags.testBit n

end Member

/-- A name, by the flags of its record. -/
def nameText (flags : Nat) (bs : Bytes) : Except ArchiveError Text :=
  if flags.testBit 11 then
    match Utf8.decode bs with
    | .ok t => .ok t
    | .error e => .error (.badName e)
  else .ok (codePageText bs)

namespace Extent

/-- A number, or the one at the head of a field if the number is one that stands for it, and
the rest of the field. -/
def number? (standIns : List Nat) (n : Nat) (field : Bytes) : Option (Nat × Bytes) :=
  if !standIns.contains n then some (n, field)
  else if field.length < 8 then none
  else some (wide field 0, field.drop 8)

/-- An extent with the numbers of a field, which must be there. -/
def widened? (x : Extent) (field : Bytes) : Option Extent := do
  let (size, field) ← number? [widest, longest] x.size field
  let (packedSize, field) ← number? [longest] x.packedSize field
  let (place, _) ← number? [longest] x.place field
  some ⟨size, packedSize, place⟩

/-- An extent with the numbers of further fields, at most `fuel` of them.  The fields must
have the lengths they claim. -/
def withFields : Nat → Extent → Bytes → Except ArchiveError Extent
  | 0, x, _ => .ok x
  | fuel + 1, x, bs =>
      let size := short bs 2
      if bs.length < 4 then .ok x
      else if bs.length < size + 4 then .error .damaged
      else
        match if short bs 0 = 1 then x.widened? (slice bs 4 size) else some x with
        | none => .error .damaged
        | some x => withFields fuel x (bs.drop (size + 4))

end Extent

/-- The length of a directory record without its name and fields. -/
def recordSize : Nat := 46

/-- The newest version of the format that is known. -/
def newestVersion : Nat := 63

/-- The members of a directory; `shift` is the length of what stands in front
of the archive, and at most `fuel` members are read. -/
def listings (shift : Int) : Nat → Bytes → Except ArchiveError (List Listing)
  | 0, _ => .ok []
  | fuel + 1, bs =>
      if bs.isEmpty then .ok []
      else if bs.length < recordSize || !(mark 1 2).isPrefixOf bs then .error .damaged
      else do
        let nameSize := short bs 28
        let fieldSize := short bs 30
        let flags := short bs 8
        let written ← nameText flags (slice bs recordSize nameSize)
        if newestVersion < littleEndian (slice bs 6 1) then .error .unsupported
        else do
          let x ← Extent.withFields bs.length ⟨long bs 24, long bs 20, long bs 42⟩
            (slice bs (recordSize + nameSize) fieldSize)
          let l : Listing := ⟨written, flags, short bs 10, long bs 16, x.packedSize, x.size,
            x.place + shift⟩
          let more ← listings shift fuel
            (bs.drop (recordSize + nameSize + fieldSize + short bs 32))
          .ok (l :: more)

/-- Where a member must have ended: at the next place that a member is listed at, or where
the directory begins.  Of members that are listed at one place, each after the first must
have ended there. -/
def limitOf (start : Int) (before ls : List Listing) (l : Listing) : Int :=
  if before.any fun other => other.place = l.place then l.place
  else (((ls.map Listing.place).filter fun place => l.place < place).min?).getD start

/-- Listed members with the places where they must have ended. -/
def withLimits (start : Int) (ls : List Listing) : List Member :=
  ls.zipIdx.map fun l => ⟨l.1, limitOf start (ls.take l.2) ls l.1⟩

/-- The members of an archive in the order of its directory. -/
def directory (file : Bytes) : Except ArchiveError (List Member) := do
  match ← endRecord? file with
  | none => .error .damaged
  | some e =>
      if e.place < e.directorySize then .error .damaged
      else do
        let start := e.place - e.directorySize
        let bs := slice file start e.directorySize
        let ls ← listings ((start : Int) - e.directoryStart) (bs.length + 1) bs
        .ok (withLimits start ls)

/-! ### Members -/

/-- The content of a member before its checksum is checked.  No more than the
size that the directory gives is taken, and no more than that is missed if the file ends
too early; but where something must be read, something must be there. -/
def unpacked (lib : Library) (m : Member) (available : Bytes) : Except ArchiveError Bytes := do
  let packed := available.take m.packedSize
  let (content, ended) ← extracted lib m.method packed
  if !ended && packed.length < m.packedSize && (packed.isEmpty || content.length < m.size) then
    .error .cutOff
  else .ok (content.take m.size)

/-- The length of the header of a member without its name and fields. -/
def headerSize : Nat := 30

/-- Whether a number has no more than 64 bits, one of them for its sign. -/
def isPlace (n : Int) : Bool := -0x8000000000000000 ≤ n && n < 0x8000000000000000

/-- The content of a member. -/
def content (lib : Library) (file : Bytes) (m : Member) : Except ArchiveError Bytes :=
  if !isPlace m.place then .error .unplaceable
  else if m.place < 0 || (lib.lastPlace : Int) < m.place then .error .misplaced
  else
    let rest := file.drop m.place.toNat
    if rest.length < headerSize || !(mark 3 4).isPrefixOf rest then .error .damaged
    else if m.hasFlag 5 || m.hasFlag 6 then .error .unsupported
    else do
      let nameSize := short rest 26
      let written ← nameText (short rest 6) (slice rest headerSize nameSize)
      let behind := rest.drop (headerSize + nameSize + short rest 28)
      let place := file.length - behind.length
      if written != m.writtenName then .error .damaged
      else if lib.refusesOverlaps && m.limit < ((place + m.packedSize : Nat) : Int) then
        .error .damaged
      else if m.hasFlag 0 then .error .encrypted
      else do
        let bs ← unpacked lib m behind
        if (checksum bs).toNat = m.checksum then .ok bs else .error .damaged

/-- Whether a member is a directory. -/
def isDirectory (lib : Library) (m : Member) : Except ArchiveError Bool :=
  match m.name.getLast? with
  | none => if lib.refusesNoName then .error .noName else .ok false
  | some c => .ok (c = '/')

end DocPress.Archive
