import DocPress.Pdf.Document
import DocPress.Storage.Path
import DocPress.Text.Quoted

/-!
# The disk

Files and directories by their place, and the operations of this library on
them.  An operation is told the text of a path, because its errors name it.
-/

namespace DocPress

/-- The names that lead from the root to a file or directory. -/
abbrev Place := List Text

/-- What a file holds. -/
inductive FileContent where
  | bytes (bs : Bytes)
  /-- A printed document, told from others by its identity. -/
  | printed (identity : Text) (document : Pdf.Document)

namespace FileContent

/-- The bytes of a file. -/
def toBytes : FileContent → Bytes
  | bytes bs => bs
  | printed identity document => document.bytes identity

/-- A file that holds a text. -/
def ofText (t : Text) : FileContent := bytes (Utf8.encode t)

end FileContent

/-- What stands at a place. -/
inductive DiskEntry where
  | directory
  | file (content : FileContent)

/-- Why an operation on the disk fails. -/
inductive DiskFault where
  | missing
  | present
  | notDirectory
  | isDirectory
  | nameTooLong
deriving DecidableEq, Inhabited

/-- A fault and the path that it was found on. -/
structure DiskError where
  fault : DiskFault
  path : Text
deriving DecidableEq, Inhabited

namespace DiskFault

/-- The number of a fault. -/
def number : DiskFault → Nat
  | missing => 2
  | present => 17
  | notDirectory => 20
  | isDirectory => 21
  | nameTooLong => 36

/-- The words for a fault. -/
def words : DiskFault → Text
  | missing => "No such file or directory".toList
  | present => "File exists".toList
  | notDirectory => "Not a directory".toList
  | isDirectory => "Is a directory".toList
  | nameTooLong => "File name too long".toList

end DiskFault

/-- The report of an error. -/
def DiskError.message (e : DiskError) : Text :=
  "[Errno ".toList ++ Text.ofNat e.fault.number ++ "] ".toList ++ e.fault.words ++ ": ".toList
    ++ Text.quoted e.path

/-- All files and directories, and the directory that relative paths start
from. -/
structure Disk where
  here : Place
  entries : List (Place × DiskEntry)

namespace Disk

/-- The directories above a place. -/
def above : Place → List Place
  | [] => []
  | name :: more => [name] :: (above more).map (name :: ·)

/-- A disk that holds nothing but the current directory. -/
def empty (here : Place) : Disk := ⟨here, (above here).map fun p => (p, .directory)⟩

/-- What stands at a place; the root is always a directory. -/
def entry? (d : Disk) (place : Place) : Option DiskEntry :=
  match place with
  | [] => some .directory
  | place => (d.entries.find? fun e => e.1 == place).map Prod.snd

/-- Entries with one of them replaced, or added at the end. -/
def putEntry (place : Place) (entry : DiskEntry) :
    List (Place × DiskEntry) → List (Place × DiskEntry)
  | [] => [(place, entry)]
  | (p, e) :: more =>
      if p = place then (p, entry) :: more else (p, e) :: putEntry place entry more

/-- Put something at a place. -/
def put (d : Disk) (place : Place) (entry : DiskEntry) : Disk :=
  { d with entries := putEntry place entry d.entries }

/-- The greatest length of a name in bytes. -/
def longestName : Nat := 255

/-- The greatest length of a path in bytes. -/
def longestPath : Nat := 4095

/-- Follow names from a place.  Every place that a name is looked up in must be
a directory; the last one need not exist. -/
def follow (d : Disk) (place : Place) : List Text → Except DiskFault Place
  | [] => .ok place
  | name :: more =>
      match d.entry? place with
      | none => .error .missing
      | some (.file _) => .error .notDirectory
      | some .directory =>
          if name.isEmpty || name = ['.'] then follow d place more
          else if name = ['.', '.'] then follow d place.dropLast more
          else if longestName < (Utf8.encode name).length then .error .nameTooLong
          else follow d (place ++ [name]) more

/-- The place that the text of a path leads to. -/
def locate (d : Disk) (path : Text) : Except DiskFault Place :=
  if path.isEmpty then .error .missing
  else if longestPath < (Utf8.encode path).length then .error .nameTooLong
  else follow d (if path.head? = some '/' then [] else d.here) (Text.splitAt '/' path)

/-- What a path leads to. -/
def look (d : Disk) (path : Text) : Except DiskError DiskEntry :=
  match d.locate path with
  | .error fault => .error ⟨fault, path⟩
  | .ok place =>
      match d.entry? place with
      | some entry => .ok entry
      | none => .error ⟨.missing, path⟩

/-- What a path leads to, if anything.  A name that cannot be looked up at all
is an error. -/
def look? (d : Disk) (path : Text) : Except DiskError (Option DiskEntry) :=
  match d.look path with
  | .ok entry => .ok (some entry)
  | .error e =>
      match e.fault with
      | .missing => .ok none
      | .notDirectory => .ok none
      | _ => .error e

/-- Whether a path leads to a directory. -/
def isDirectory (d : Disk) (path : Text) : Except DiskError Bool := do
  match ← d.look? path with
  | some .directory => .ok true
  | _ => .ok false

/-- The content of a file. -/
def read (d : Disk) (path : Text) : Except DiskError Bytes := do
  match ← d.look path with
  | .file content => .ok content.toBytes
  | .directory => .error ⟨.isDirectory, path⟩

/-- Make a directory in one that exists. -/
def makeDirectory (d : Disk) (path : Text) : Except DiskError Disk :=
  match d.locate path with
  | .error fault => .error ⟨fault, path⟩
  | .ok place =>
      match d.entry? place with
      | some _ => .error ⟨.present, path⟩
      | none =>
          match d.entry? place.dropLast with
          | some .directory => .ok (d.put place .directory)
          | _ => .error ⟨.missing, path⟩

/-- Write a file into a directory that exists. -/
def write (d : Disk) (path : Text) (content : FileContent) : Except DiskError Disk :=
  match d.locate path with
  | .error fault => .error ⟨fault, path⟩
  | .ok place =>
      match d.entry? place with
      | some .directory => .error ⟨.isDirectory, path⟩
      | _ => .ok (d.put place (.file content))

/-- Order of places, name by name. -/
def placeLe : Place → Place → Bool
  | [], _ => true
  | _ :: _, [] => false
  | a :: as, b :: bs => if a = b then placeLe as bs else Text.le a b

/-- The files below a place in order, with the names that lead to them. -/
def filesBelow (d : Disk) (place : Place) : List (Place × FileContent) :=
  let found := d.entries.filterMap fun e =>
    match e.2 with
    | .file content =>
        if place.isPrefixOf e.1 && place.length < e.1.length then
          some (e.1.drop place.length, content)
        else none
    | .directory => none
  found.mergeSort fun a b => placeLe a.1 b.1

end Disk

/-- A task that changes the disk and may stop halfway. -/
abbrev DiskTask (ε α : Type) := ExceptT ε (StateM Disk) α

namespace DiskTask

/-- Change the disk by an operation that may fail. -/
def change (operation : Disk → Except DiskError Disk) : DiskTask DiskError Unit := do
  match operation (← get) with
  | .ok d => set d
  | .error e => throw e

/-- Make a directory that may exist already. -/
def ensureDirectory (p : Path) : DiskTask DiskError Unit := do
  let d ← get
  match d.makeDirectory p.toText with
  | .ok d => set d
  | .error e =>
      if e.fault = .missing then throw e
      else if ← ExceptT.mk (pure (d.isDirectory p.toText)) then return ()
      else throw e

/-- Make a directory that may exist already, with at most `levels` missing
directories above it. -/
def ensureDirectories : Nat → Path → DiskTask DiskError Unit
  | 0, p => ensureDirectory p
  | levels + 1, p => do
      match (← get).makeDirectory p.toText with
      | .ok d => set d
      | .error e =>
          if e.fault = .missing && !p.parts.isEmpty then do
            ensureDirectories levels p.parent
            ensureDirectory p
          else ensureDirectory p

/-- Write a file and make the directories above it. -/
def writeBelow (p : Path) (content : FileContent) : DiskTask DiskError Unit := do
  ensureDirectories p.parts.length p.parent
  change fun d => d.write p.toText content

end DiskTask
end DocPress
