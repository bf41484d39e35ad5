import DocPress.Model.Basic

/-!
# Walking the tree

Every writer visits the entities in one order: files, the declarations of a
file, the fields and then the methods of a declaration, the parameters of a
method.
-/

namespace DocPress

/-- An entity of the tree. -/
inductive Entity where
  | file (f : FileDoc)
  | type (c : TypeDecl)
  | field (f : Field)
  | method (m : Method)
  | parameter (p : Parameter)
deriving DecidableEq

/-- The name an entity is listed under. -/
def Entity.name : Entity → Text
  | .file f => f.name
  | .type c => c.name
  | .field f => f.name
  | .method m => m.name
  | .parameter p => p.name

/-- A visited entity and how deep it lies below the project. -/
structure WalkStep where
  depth : Nat
  entity : Entity
deriving DecidableEq

namespace Project

/-- A method and its parameters. -/
def walkMethod (m : Method) : List WalkStep :=
  ⟨2, .method m⟩ :: m.parameters.map fun p => ⟨3, .parameter p⟩

/-- A declaration and its members. -/
def walkType (c : TypeDecl) : List WalkStep :=
  ⟨1, .type c⟩ :: (c.fields.map fun f => ⟨2, .field f⟩) ++ c.methods.flatMap walkMethod

/-- A file and its declarations. -/
def walkFile (f : FileDoc) : List WalkStep :=
  ⟨0, .file f⟩ :: f.classes.flatMap walkType

/-- Every entity of a project in writing order. -/
def walk (p : Project) : List WalkStep := p.files.flatMap walkFile

end Project
end DocPress
