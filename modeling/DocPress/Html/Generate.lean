import DocPress.Html.Page
import DocPress.Html.Style
import DocPress.Output.Generator

/-!
# The set of linked documents

All pages of a project and their stylesheet, written below a directory that is
new for every run.
-/

namespace DocPress.Html

/-- The name of the format. -/
def format : Text := "html".toList

/-- Where documents go, and which stylesheet they take. -/
structure Settings where
  output : Path
  stylesheet : Option Path

/-- The error about pages that cannot be made for want of a template. -/
def missingTemplate : GenerationError :=
  ⟨format, .template "index.html.j2".toList⟩

/-- The error about a set that cannot be written. -/
def writeError (root : Path) (e : DiskError) : GenerationError := ⟨format, .notWritten root e⟩

/-- The text of the stylesheet. -/
def stylesheetText (s : Settings) (root : Path) (d : Disk) : Except GeneratorFailure Text :=
  match s.stylesheet with
  | none => .ok style
  | some p =>
      match d.read p.toText with
      | .error e => .error (.generation (writeError root e))
      | .ok bs =>
          match Utf8.decode bs with
          | .error e => .error (.other e.message)
          | .ok t => .ok (Text.plainBreaks t)

/-- Write the files of a set in order. -/
def writeFiles (root : Path) : List (Text × Text) → DiskTask DiskError Unit
  | [] => return ()
  | (name, content) :: more => do
      DiskTask.writeBelow (root / Path.ofText name) (.ofText content)
      writeFiles root more

/-- Make the artifact of a project. -/
def generate (s : Settings) (runName : Text) (p : Project) :
    DiskTask GeneratorFailure Artifact := do
  let root := s.output / Path.ofText runName
  let css ← ExceptT.mk (do return stylesheetText s root (← get))
  let files := renderPages p ++ [(stylesheetPath, css)]
  ExceptT.adapt (fun e => .generation (writeError root e)) (writeFiles root files)
  return .documents format root.toText indexPage files

/-- The generator of linked documents. -/
def generator (s : Settings) : Generator := ⟨"HtmlGenerator".toList, format, generate s⟩

end DocPress.Html
