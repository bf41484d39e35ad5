import DocPress.Output.Generator

/-!
# The printed artifact

A project as a printed document.
-/

namespace DocPress.Pdf

/-- The name of the format. -/
def format : Text := "pdf".toList

/-- The artifact of a project. -/
def artifact (t : Typesetter) (s : Settings) (p : Project) : Artifact :=
  .printed format "application/pdf".toList (Document.ofProject t s p)

/-- The error about a line that cannot be set. -/
def layoutError (message : Text) : GenerationError := ⟨format, .layout message⟩

/-- The generator of printed documents. -/
def generator (t : Typesetter) (s : Settings) : Generator :=
  ⟨"PdfGenerator".toList, format, fun _ p => return artifact t s p⟩

end DocPress.Pdf
