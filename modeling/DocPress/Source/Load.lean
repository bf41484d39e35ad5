import DocPress.Archive.Zip
import DocPress.Source.Pattern
import DocPress.Source.Unit
import DocPress.Storage.Disk
import DocPress.Text.Case

/-!
# Loading sources

Source units come from one file, from all files below a directory, or from the
members of an archive.  A unit is known by its path below that root.  Files
that patterns rule out are left out, and so are binary files, which hold a null
byte.
-/

namespace DocPress

/-- Which paths are read. -/
structure Selection where
  included : List Value
  excluded : List Value

namespace Selection

/-- Whether a path fits one of the patterns; a pattern that is no text, and that
is reached, is an error. -/
def fitsAny (path : Text) : List Value → Except Value Bool
  | [] => .ok false
  | .text pattern :: more =>
      if Pattern.isMatch (Pattern.read pattern) path then .ok true else fitsAny path more
  | v :: _ => .error v

/-- Whether a path is read: it fits an included pattern, or there are none, and
it fits no excluded one. -/
def holds (s : Selection) (path : Text) : Except Value Bool := do
  if s.included.isEmpty || (← fitsAny path s.included) then do
    .ok !(← fitsAny path s.excluded)
  else .ok false

end Selection

/-- Why sources cannot be loaded. -/
inductive LoadError where
  | absent (path : Text)
  | notArchive (path : Text)
  | disk (e : DiskError)
  | archive (e : Archive.ArchiveError)
  /-- A pattern is no text. -/
  | pattern (v : Value)
deriving Inhabited

/-- The units read so far, the binary files passed over, and what stopped the
reading. -/
structure Loading where
  units : List SourceUnit
  binaries : List Text
  stopped : Option LoadError

/-- A file to read: its path below the root, and its content. -/
abbrev SourceFile := Text × Bytes

namespace Loading

/-- The text of a file, unless it is binary. -/
def textOf? (content : Bytes) : Option Text :=
  if content.contains 0 then none else some (Utf8.decodeReplacing content)

/-- The unit of a file. -/
def unitOf (path content : Text) : SourceUnit :=
  SourceUnit.make (Path.ofText path).name path content none

/-- Read files in order until one cannot be read. -/
def ofFiles (s : Selection) : List (Except LoadError SourceFile) → Loading
  | [] => ⟨[], [], none⟩
  | .error e :: _ => ⟨[], [], some e⟩
  | .ok (path, content) :: more =>
      match s.holds path with
      | .error v => ⟨[], [], some (.pattern v)⟩
      | .ok false => ofFiles s more
      | .ok true =>
          let rest := ofFiles s more
          match textOf? content with
          | none => { rest with binaries := path :: rest.binaries }
          | some t => { rest with units := unitOf path t :: rest.units }

/-- The files below a directory, by their names one after the other. -/
def directoryFiles (d : Disk) (place : Place) : List (Except LoadError SourceFile) :=
  (d.filesBelow place).map fun f => .ok (Text.join ['/'] f.1, f.2.toBytes)

/-- The file of a member, or nothing for a directory. -/
def memberFile (lib : Archive.Library) (file : Bytes) (m : Archive.Member) :
    Option (Except LoadError SourceFile) :=
  match Archive.isDirectory lib m with
  | .error e => some (.error (.archive e))
  | .ok true => none
  | .ok false =>
      match Archive.content lib file m with
      | .error e => some (.error (.archive e))
      | .ok content => some (.ok ((Path.ofText m.name).toText, content))

/-- The files of an archive, by the text of their names. -/
def archiveFiles (lib : Archive.Library) (file : Bytes) : List (Except LoadError SourceFile) :=
  match Archive.directory file with
  | .error e => [.error (.archive e)]
  | .ok ms =>
      (ms.mergeSort fun a b => Text.le a.name b.name).filterMap (memberFile lib file)

/-- The files that a path stands for. -/
def filesAt (lib : Archive.Library) (d : Disk) (p : Path) :
    Except LoadError (List (Except LoadError SourceFile)) :=
  match d.look? p.toText with
  | .error e => .error (.disk e)
  | .ok none => .error (.absent p.toText)
  | .ok (some .directory) =>
      match d.locate p.toText with
      | .ok place => .ok (directoryFiles d place)
      | .error fault => .error (.disk ⟨fault, p.toText⟩)
  | .ok (some (.file content)) =>
      if Text.lower p.suffix = ".zip".toList then
        match Archive.isArchive content.toBytes with
        | .error e => .error (.archive e)
        | .ok true => .ok (archiveFiles lib content.toBytes)
        | .ok false => .error (.notArchive p.toText)
      else .ok [.ok (p.name, content.toBytes)]

/-- Load the sources that a path stands for. -/
def ofPath (lib : Archive.Library) (d : Disk) (s : Selection) (p : Path) : Loading :=
  match filesAt lib d p with
  | .error e => ⟨[], [], some e⟩
  | .ok files => ofFiles s files

/-- The units, if nothing stopped the reading. -/
def result (l : Loading) : Except LoadError (List SourceUnit) :=
  match l.stopped with
  | some e => .error e
  | none => .ok l.units

end Loading

/-- The words about an error, for those that a report can show. -/
def LoadError.message? : LoadError → Option Text
  | absent path => some ("Source path does not exist: ".toList ++ path)
  | notArchive path => some ("Not a valid zip archive: ".toList ++ path)
  | disk e => some e.message
  | archive (.badName e) => some e.message
  | archive .badStream => some "Invalid data stream".toList
  | archive .misplaced => some "[Errno 22] Invalid argument".toList
  | archive .unplaceable => some "cannot fit 'int' into an offset-sized integer".toList
  | archive _ => none
  | pattern _ => none

end DocPress
