import DocPress.Model.Walk
import DocPress.Text.Case

/-!
# Printed blocks

A printed document is a sequence of labelled paragraphs, one for every entity
of the tree in writing order, after a title.
-/

namespace DocPress.Pdf

open Text

/-- A labelled paragraph; the depth decides the indentation. -/
structure TextBlock where
  label : Text
  text : Text
  depth : Nat
deriving DecidableEq, Inhabited

/-- The lines of documentation: the description and every tag but parameters,
which have blocks of their own. -/
def documentationLines (b : Block) : List Text :=
  (if b.description.isEmpty then [] else [b.description])
    ++ b.tags.flatMap fun tag =>
      if tag.1 = Block.paramTag then []
      else tag.2.map fun value => trimRight ('@' :: tag.1 ++ ' ' :: value)

/-- The text of documentation, empty without a block. -/
def documentationText (block : Option Block) : Text :=
  match block with
  | none => []
  | some b => join ['\n'] (documentationLines b)

/-- The block of an entity at a depth. -/
def blockOf (depth : Nat) : Entity → TextBlock
  | .file f => ⟨"File: ".toList ++ f.path, "Language: ".toList ++ f.language, depth⟩
  | .type c => ⟨capitalize c.kind ++ ':' :: ' ' :: c.name, documentationText c.documentation, depth⟩
  | .field f =>
      ⟨"Field: ".toList ++ f.typeText ++ ' ' :: f.name, documentationText f.documentation, depth⟩
  | .method m =>
      ⟨"Method: ".toList ++ m.name,
        join ['\n'] ([m.signature, documentationText m.documentation].filter (!·.isEmpty)), depth⟩
  | .parameter p => ⟨"Parameter: ".toList ++ p.name, p.description, depth⟩

/-- The title of a document. -/
def titleBlock (p : Project) : TextBlock :=
  ⟨"Documentation for Project: ".toList ++ p.name, [], 0⟩

/-- The blocks of a project. -/
def blocks (p : Project) : List TextBlock :=
  if p.files.isEmpty then [titleBlock p, ⟨"No documentation data available.".toList, [], 0⟩]
  else
    titleBlock p
      :: ⟨"Number of files processed: ".toList ++ Text.ofNat p.files.length, [], 0⟩
      :: p.walk.map fun step => blockOf step.depth step.entity

end DocPress.Pdf
