import DocPress.Storage.Disk

/-!
# Artifacts

What a generator makes: one text, a set of linked documents below a directory,
or a printed document.
-/

namespace DocPress

/-- The output of a generator. -/
inductive Artifact where
  | text (format mediaType content : Text)
  /-- Documents by their place below a root directory; the entry is the one to
  open first. -/
  | documents (format root entry : Text) (files : List (Text × Text))
  | printed (format mediaType : Text) (document : Pdf.Document)

/-- Why a generator makes no artifact. -/
inductive GenerationCause where
  /-- A page has no template. -/
  | template (name : Text)
  /-- A line cannot be set on a page. -/
  | layout (message : Text)
  /-- The documents cannot be written below their root. -/
  | notWritten (root : Path) (e : DiskError)
  | other (message : Text)
deriving DecidableEq, Inhabited

/-- The words about a cause. -/
def GenerationCause.message : GenerationCause → Text
  | template name => "Template rendering failed: ".toList ++ name
  | layout message => "PDF layout failed: ".toList ++ message
  | notWritten root e => "Cannot write ".toList ++ root.toText ++ ": ".toList ++ e.message
  | other message => message

/-- A generator could not produce its artifact. -/
structure GenerationError where
  format : Text
  cause : GenerationCause
deriving DecidableEq, Inhabited

namespace GenerationError

/-- The words about what went wrong. -/
def message (e : GenerationError) : Text := e.cause.message

/-- The full words about a failed generation. -/
def fullMessage (e : GenerationError) : Text :=
  "Generation failed for format '".toList ++ e.format ++ "': ".toList ++ e.message

end GenerationError

/-- Why a generator stops: its own report, or a failure of something it uses. -/
inductive GeneratorFailure where
  | generation (e : GenerationError)
  | other (message : Text)
deriving DecidableEq, Inhabited

/-- The report of a failure; one that is not the generator's own is wrapped. -/
def GeneratorFailure.report (format : Text) : GeneratorFailure → GenerationError
  | generation e => e
  | other message => ⟨format, .other message⟩

end DocPress
