import DocPress.Output.Generator
import DocPress.Xml.Project

/-!
# The document artifact

A project as one text artifact.
-/

namespace DocPress.Xml

/-- The name of the format. -/
def format : Text := "xml".toList

/-- The artifact of a project. -/
def artifact (p : Project) : Artifact := .text format "application/xml".toList (render p)

/-- The error about a value that is no text, by the kind of the value. -/
def foreignValue (kind : Text) : GenerationError :=
  ⟨format, .other ("expected string or bytes-like object, got '".toList ++ kind ++ ['\''])⟩

/-- The generator of the document. -/
def generator : Generator := ⟨"XmlGenerator".toList, format, fun _ p => return artifact p⟩

end DocPress.Xml
