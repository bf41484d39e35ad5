import DocPress.Config.Settings
import DocPress.Storage.Disk
import DocPress.Yaml.Value

/-!
# Configuration files

A configuration is read from the file that is named, or else from the first
file found at one of the usual places.  Without a file, defaults hold.
-/

namespace DocPress

/-- Why a configuration cannot be loaded. -/
inductive ConfigFailure where
  | notFound (path : Text)
  | disk (e : DiskError)
  | notText (e : Utf8.DecodeError)
  | document (e : Yaml.Failure)
  | refused (e : ConfigError)
deriving Inhabited

/-- The words about a document without a value. -/
def Yaml.Failure.message : Yaml.Failure → Text
  | malformed => "the document is not well formed".toList
  | badValue text => text
  | noTruth word => Text.quoted word
  | noNumber => "string index out of range".toList
  | noMoment => "'NoneType' object has no attribute 'groupdict'".toList
  | endless => "maximum recursion depth exceeded".toList

/-- The words about a configuration that cannot be loaded. -/
def ConfigFailure.message : ConfigFailure → Text
  | notFound path => "Config file not found: ".toList ++ path
  | disk e => e.message
  | notText e => e.message
  | document e => e.message
  | refused e => e.message

/-- Settings and the file that they come from. -/
structure Config where
  settings : Settings
  source : Option Path

namespace Config

/-- The names of a path without steps back. -/
def withoutSteps (parts : List Text) : List Text :=
  parts.foldl (fun done name => if name = ['.', '.'] then done.dropLast else done ++ [name]) []

/-- The full path of a path, with its steps back taken. -/
def fullPath (d : Disk) (p : Path) : Path :=
  let parts := if p.root.isEmpty then d.here ++ p.parts else p.parts
  ⟨if p.root.isEmpty then ['/'] else p.root, withoutSteps parts⟩

/-- The usual places of a configuration, the first to be found counts. -/
def usualPlaces : List Path :=
  [⟨[], [".docsmith".toList, "config.yaml".toList]⟩, ⟨[], ["docsmith.yaml".toList]⟩]

/-- The first of some paths that leads anywhere. -/
def firstPresent? (d : Disk) : List Path → Except DiskError (Option Path)
  | [] => .ok none
  | p :: more => do
      match ← d.look? p.toText with
      | some _ => .ok (some p)
      | none => firstPresent? d more

/-- The configuration file at a usual place below a directory. -/
def find? (d : Disk) (start : Path) : Except DiskError (Option Path) :=
  firstPresent? d (usualPlaces.map fun p => fullPath d start / p)

/-- The settings in the content of a file; an empty value asks for nothing. -/
def settingsOf (env : Environment) (content : Bytes) : Except ConfigFailure Settings :=
  match Utf8.decode content with
  | .error e => .error (.notText e.piecewise)
  | .ok t =>
      match Yaml.read (Text.plainBreaks t) with
      | .error e => .error (.document e)
      | .ok v =>
          match Settings.ofValue env (if v.isEmpty then .map [] else v) with
          | .error e => .error (.refused e)
          | .ok s => .ok s

/-- The configuration in a file. -/
def ofFile (d : Disk) (env : Environment) (p : Path) : Except ConfigFailure Config :=
  match d.read p.toText with
  | .error e => .error (.disk e)
  | .ok content => do .ok ⟨← settingsOf env content, some p⟩

/-- Load the configuration from a file that is named, or from the usual places
if they are to be searched. -/
def load (d : Disk) (env : Environment) (named : Option Path) (search : Bool) :
    Except ConfigFailure Config :=
  match named with
  | some p =>
      match d.look? p.toText with
      | .error e => .error (.disk e)
      | .ok none => .error (.notFound p.toText)
      | .ok (some _) => ofFile d env p
  | none =>
      if search then
        match find? d ⟨[], []⟩ with
        | .error e => .error (.disk e)
        | .ok (some p) => ofFile d env p
        | .ok none => .ok ⟨.default, none⟩
      else .ok ⟨.default, none⟩

end Config
end DocPress
