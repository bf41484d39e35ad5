import DocPress.Archive.Basic

/-!
# End records

An archive ends with a record that tells where the directory of its members is.  In front of
it a wider record may stand, for numbers that do not fit into the first one.
-/

namespace DocPress.Archive

/-- Where an archive says that its directory is, and where the directory ends. -/
structure EndRecord where
  directorySize : Nat
  directoryStart : Nat
  place : Nat
deriving DecidableEq, Inhabited

/-- The length of an end record without its comment. -/
def endSize : Nat := 22

/-- The length of the record that announces a wider end record. -/
def locatorSize : Nat := 20

/-- The length of a wider end record. -/
def wideEndSize : Nat := 56

/-- The end record that begins with the given bytes. -/
def endRecordOf (record : Bytes) (place : Nat) : EndRecord :=
  ⟨long record 12, long record 16, place⟩

/-- The wider end record in front of an end record, if there is one, and else the record
itself.  There is no archive where a wider record is announced without room for it. -/
def widerEnd? (file : Bytes) (e : EndRecord) : Except ArchiveError (Option EndRecord) :=
  let locator := slice file (e.place - locatorSize) locatorSize
  let start := e.place - (locatorSize + wideEndSize)
  let record := slice file start wideEndSize
  if e.place < locatorSize || !(mark 6 7).isPrefixOf locator then .ok (some e)
  else if long locator 4 != 0 || 1 < long locator 16 then .error .damaged
  else if e.place < locatorSize + wideEndSize then .ok none
  else if (mark 6 6).isPrefixOf record then .ok (some ⟨wide record 40, wide record 48, start⟩)
  else .ok (some e)

/-- The last place from which bytes go on with the given ones. -/
def lastPlace? (needle : Bytes) (place : Nat) : Bytes → Option Nat
  | [] => none
  | b :: rest =>
      match lastPlace? needle (place + 1) rest with
      | some n => some n
      | none => if needle.isPrefixOf (b :: rest) then some place else none

/-- The end record of a file: at its very end, or before a comment. -/
def plainEnd? (file : Bytes) : Option EndRecord :=
  let size := file.length
  if size < endSize then none
  else
    let tail := file.drop (size - endSize)
    if (mark 5 6).isPrefixOf tail && short tail 20 = 0 then
      some (endRecordOf tail (size - endSize))
    else
      let start := size - (Nat.pow 2 16 + endSize)
      match lastPlace? (mark 5 6) start (file.drop start) with
      | none => none
      | some place =>
          let record := slice file place endSize
          if record.length = endSize then some (endRecordOf record place) else none

/-- The end record of a file, the wider one if it has one.  An archive that is spread over
several files is an error. -/
def endRecord? (file : Bytes) : Except ArchiveError (Option EndRecord) :=
  match plainEnd? file with
  | none => .ok none
  | some e => widerEnd? file e

/-- Whether a file is an archive. -/
def isArchive (file : Bytes) : Except ArchiveError Bool := (endRecord? file).map Option.isSome

end DocPress.Archive
