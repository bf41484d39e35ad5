import DocPress.Json.Basic
import DocPress.Model.Basic

/-!
# Trees as JSON

A tree is written as nested JSON objects, and can be described by a shorter
JSON form in which most parts may be left out.  A description may hold a value
that is no text where a text belongs; such values are kept aside in reading
order, so that a writer can refuse the first of them.
-/

namespace DocPress

namespace Block

/-- Tags as a list of name and values. -/
def tagsJson (tags : Comment.Tags) : Json :=
  .array (tags.map fun entry => .array [.text entry.1, Json.texts entry.2])

/-- A block with everything read from it. -/
def toJson (b : Block) : Json :=
  .object [("raw_text".toList, .text b.rawText), ("description".toList, .text b.description),
    ("tags".toList, tagsJson b.tags)]

/-- A block, or null when there is none. -/
def optionJson : Option Block → Json
  | none => .null
  | some b => b.toJson

end Block

/-- A parameter as JSON. -/
def Parameter.toJson (p : Parameter) : Json :=
  .object [("name".toList, .text p.name), ("description".toList, .text p.description)]

/-- A field as JSON. -/
def Field.toJson (f : Field) : Json :=
  .object [("name".toList, .text f.name), ("type".toList, .text f.typeText),
    ("documentation".toList, Block.optionJson f.documentation)]

/-- A method as JSON. -/
def Method.toJson (m : Method) : Json :=
  .object [("name".toList, .text m.name), ("signature".toList, .text m.signature),
    ("return_type".toList, .text m.returnType),
    ("documentation".toList, Block.optionJson m.documentation),
    ("parameters".toList, .array (m.parameters.map Parameter.toJson))]

/-- A type declaration as JSON. -/
def TypeDecl.toJson (c : TypeDecl) : Json :=
  .object [("name".toList, .text c.name), ("type".toList, .text c.kind),
    ("documentation".toList, Block.optionJson c.documentation),
    ("fields".toList, .array (c.fields.map Field.toJson)),
    ("methods".toList, .array (c.methods.map Method.toJson))]

/-- A file as JSON. -/
def FileDoc.toJson (f : FileDoc) : Json :=
  .object [("file_name".toList, .text f.name), ("file_path".toList, .text f.path),
    ("language".toList, .text f.language),
    ("classes".toList, .array (f.classes.map TypeDecl.toJson))]

/-- A project as JSON. -/
def Project.toJson (p : Project) : Json :=
  .object [("project_name".toList, .text p.name),
    ("files".toList, .array (p.files.map FileDoc.toJson))]

/-- Counts as JSON. -/
def Counts.toJson (c : Counts) : Json :=
  .object [("files".toList, .int c.files), ("classes".toList, .int c.classes),
    ("fields".toList, .int c.fields), ("methods".toList, .int c.methods),
    ("parameters".toList, .int c.parameters)]

namespace Description

/-- Reading a description keeps the kinds of the values that are no text. -/
abbrev Reading := StateM (List Text)

/-- The kind of a value that is neither a text nor empty. -/
def foreignKind? : Json → Option Text
  | .bool true => some "bool".toList
  | .int n => if n = 0 then none else some "int".toList
  | .decimal d => if d.digits = 0 then none else some "float".toList
  | .nan => some "float".toList
  | .infinity _ => some "float".toList
  | .array (_ :: _) => some "list".toList
  | .object (_ :: _) => some "dict".toList
  | _ => none

/-- A text of a description; every other empty value counts as no text. -/
def readText (default : Text) : Option Json → Reading Text
  | none => pure default
  | some (.text t) => pure t
  | some v => do
      match foreignKind? v with
      | some kind => modify (· ++ [kind])
      | none => pure ()
      pure []

/-- The items under a key; none when the key is missing. -/
def itemsOf (v : Json) (key : String) : List Json :=
  match v.field? key.toList with
  | some (.array items) => items
  | _ => []

/-- The block of a described entity: a text is a block, anything else none. -/
def blockOf (v : Json) : Option Block :=
  match v.field? "doc".toList with
  | some (.text t) => some ⟨t⟩
  | _ => none

/-- A described field. -/
def field (v : Json) : Reading Field := do
  let name ← readText [] (v.field? "name".toList)
  let typeText ← readText [] (v.field? "type".toList)
  pure ⟨name, typeText, blockOf v⟩

/-- A described method. -/
def method (v : Json) : Reading Method := do
  let name ← readText [] (v.field? "name".toList)
  let returnType ← readText [] (v.field? "returns".toList)
  let signature ← readText [] (v.field? "signature".toList)
  pure (Method.make name signature returnType (blockOf v))

/-- A described type declaration. -/
def typeDecl (v : Json) : Reading TypeDecl := do
  let name ← readText [] (v.field? "name".toList)
  let kind ← readText "class".toList (v.field? "type".toList)
  let fields ← (itemsOf v "fields").mapM field
  let methods ← (itemsOf v "methods").mapM method
  pure ⟨name, kind, blockOf v, fields, methods⟩

/-- A described file; its path is its name unless given. -/
def fileDoc (v : Json) : Reading FileDoc := do
  let name ← readText [] (v.field? "name".toList)
  let path ←
    match v.field? "path".toList with
    | none => readText [] (v.field? "name".toList)
    | given => readText [] given
  let language ← readText "java".toList (v.field? "language".toList)
  let classes ← (itemsOf v "classes").mapM typeDecl
  pure ⟨name, path, language, classes⟩

/-- A described project. -/
def project (v : Json) : Reading Project := do
  let name ← readText [] (v.field? "name".toList)
  let files ← (itemsOf v "files").mapM fileDoc
  pure ⟨name, files⟩

/-- A described entity, without regard to values that are no text. -/
def texts {α : Type} (r : Reading α) : α := (r.run []).1

end Description
end DocPress
