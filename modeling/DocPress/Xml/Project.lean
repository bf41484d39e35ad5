import DocPress.Model.Basic
import DocPress.Xml.Reader
import DocPress.Xml.Writer

/-!
# Projects as documents

The whole documentation tree as one document.  Every list is written even when
it is empty, so the tree can be read back; parameters are not read but found
again in the documentation of their method.
-/

namespace DocPress.Xml

open Text

/-- Characters that a document cannot hold. -/
def isUnwritable (c : Char) : Bool :=
  let n := c.toNat
  n ≤ 8 || n = 11 || n = 12 || (14 ≤ n && n ≤ 31) || n = 0xFFFE || n = 0xFFFF

/-- A text without the characters that a document cannot hold. -/
def clean (t : Text) : Text := t.filter fun c => !isUnwritable c

/-- An attribute with a cleaned value. -/
def cleaned (key : String) (value : Text) : Text × Text := (key.toList, clean value)

/-! ### Writing -/

/-- The element of a documentation block; without a block it is empty. -/
def documentationElement (block : Option Block) : Element :=
  .branch "documentation".toList []
    (match block with
    | none => []
    | some b =>
        [.leaf "description".toList [] (clean b.description),
          .leaf "rawText".toList [] (clean b.rawText),
          .branch "tags".toList []
            (b.tags.flatMap fun tag => tag.2.map fun value =>
              .leaf "tag".toList [cleaned "name" tag.1] (clean value))])

/-- The element of a field. -/
def fieldElement (f : Field) : Element :=
  .branch "field".toList [cleaned "name" f.name, cleaned "type" f.typeText]
    [documentationElement f.documentation]

/-- The element of a parameter. -/
def parameterElement (p : Parameter) : Element :=
  .leaf "parameter".toList [cleaned "name" p.name] (clean p.description)

/-- The element of a method. -/
def methodElement (m : Method) : Element :=
  .branch "method".toList [cleaned "name" m.name, cleaned "returnType" m.returnType]
    [.leaf "signature".toList [] (clean m.signature),
      .leaf "return".toList [] (clean (m.returnDescription?.getD [])),
      documentationElement m.documentation,
      .branch "parameters".toList [] (m.parameters.map parameterElement)]

/-- The element of a type declaration. -/
def typeElement (c : TypeDecl) : Element :=
  .branch "class".toList [cleaned "name" c.name, cleaned "type" c.kind]
    [documentationElement c.documentation,
      .branch "fields".toList [] (c.fields.map fieldElement),
      .branch "methods".toList [] (c.methods.map methodElement)]

/-- The element of a file. -/
def fileElement (f : FileDoc) : Element :=
  .branch "file".toList
    [cleaned "name" f.name, cleaned "path" f.path, cleaned "language" f.language]
    [.branch "classes".toList [] (f.classes.map typeElement)]

/-- The element of a project. -/
def projectElement (p : Project) : Element :=
  .branch "project".toList [cleaned "name" p.name]
    [.branch "files".toList [] (p.files.map fileElement)]

/-- A project as a document. -/
def render (p : Project) : Text := writeDocument (projectElement p)

/-! ### Reading -/

/-- The block of an element with documentation. -/
def readBlock? (e : Element) : Option Block := do
  let documentation ← e.child? "documentation".toList
  let raw ← documentation.child? "rawText".toList
  some ⟨raw.text⟩

/-- The field of an element. -/
def readField (e : Element) : Field :=
  ⟨e.value "name".toList, e.value "type".toList, readBlock? e⟩

/-- The method of an element. -/
def readMethod (e : Element) : Method :=
  Method.make (e.value "name".toList)
    (((e.child? "signature".toList).map Element.text).getD [])
    (e.value "returnType".toList) (readBlock? e)

/-- The type declaration of an element. -/
def readType (e : Element) : TypeDecl :=
  { name := e.value "name".toList
    kind := e.value "type".toList
    documentation := readBlock? e
    fields := (e.grandchildren "fields".toList "field".toList).map readField
    methods := (e.grandchildren "methods".toList "method".toList).map readMethod }

/-- The file of an element. -/
def readFile (e : Element) : FileDoc :=
  { name := e.value "name".toList
    path := e.value "path".toList
    language := e.value "language".toList
    classes := (e.grandchildren "classes".toList "class".toList).map readType }

/-- The project of a root element. -/
def readProject (e : Element) : Project :=
  ⟨e.value "name".toList, (e.grandchildren "files".toList "file".toList).map readFile⟩

/-- Why a text is no project document. -/
inductive ReadError where
  | malformed
  | unexpectedRoot (name : Text)
deriving DecidableEq

/-- The words about a text that is no project document. -/
def ReadError.message : ReadError → Text
  | malformed => "Invalid project XML".toList
  | unexpectedRoot name =>
      "Expected <project> root element, found <".toList ++ name ++ ['>']

/-- The project of a document. -/
def parse (t : Text) : Except ReadError Project :=
  match read? t with
  | none => .error .malformed
  | some root =>
      if root.name = "project".toList then .ok (readProject root)
      else .error (.unexpectedRoot root.name)

end DocPress.Xml
