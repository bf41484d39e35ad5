import DocPress.Docstring.Cleaned
import DocPress.Docstring.TypeText
import DocPress.Model.Basic
import DocPress.Source.Failure
import DocPress.Source.Unit

/-!
# Scanning Python text

The classes at the top level of a text, with their annotated and assigned
attributes as fields and their functions as methods.  A docstring becomes the
documentation of what it stands in.
-/

namespace DocPress.Docstring

open Text

/-- The lines of a text as the reader of its tokens counts them. -/
def physicalLines : Text → List Text
  | [] => [[]]
  | '\r' :: '\n' :: rest => [] :: physicalLines rest
  | c :: rest =>
      if c = '\r' || c = '\n' then [] :: physicalLines rest
      else
        match physicalLines rest with
        | [] => [[c]]
        | line :: more => (c :: line) :: more

/-- Base classes that make a class an enumeration. -/
def enumBases : List Text :=
  ["Enum".toList, "IntEnum".toList, "StrEnum".toList, "Flag".toList, "IntFlag".toList]

/-- Base classes that make a class an interface. -/
def interfaceBases : List Text := ["ABC".toList, "Protocol".toList]

/-- The name by which a base class is known.  At most `fuel` subscripts are
looked through. -/
def baseName : Nat → Node → Text
  | 0, _ => []
  | fuel + 1, n =>
      match n with
      | .node .member _ _ => (n.part 1).word
      | .node .subscript _ _ => baseName fuel (n.part 0)
      | .node .name _ _ => n.word
      | _ => []

/-- The kind of a class with the given bases. -/
def classKind (bases : List Text) : Text :=
  if bases.any enumBases.contains then "enum".toList
  else if bases.any interfaceBases.contains then "interface".toList
  else "class".toList

/-- The names of the bases among the arguments of a class. -/
def baseNames (arguments : Node) : List Text :=
  match arguments with
  | .node .arguments _ parts =>
      ((Node.flatParts parts).filter isPositional).map fun b => baseName b.height b
  | _ => []

/-- The documentation at the start of a body. -/
def documentationOf? (body : List Node) : Option Block :=
  match body with
  | .node .expression _ [.node .str _ (.text codes :: _)] :: _ =>
      let t := cleaned (codes.map TypeText.charOf)
      if t.isEmpty then none else some ⟨t⟩
  | _ => none

/-- The fields that a statement of a class body declares. -/
def fieldsOf (n : Node) : Except Text (List Field) :=
  match n with
  | .node .annotated _ [target, hint] =>
      if target.isForm .name then do return [⟨target.word, ← hint.typeText, none⟩] else .ok []
  | .node .assign _ parts =>
      .ok (((Node.flatParts parts).filter (·.isForm .name)).map fun t => ⟨t.word, [], none⟩)
  | _ => .ok []

/-- The methods that a statement of a class body declares. -/
def methodsOf (lines : Array Text) (n : Node) : Except Text (List Method) :=
  match n with
  | .node .functionDef line [name, result, block] => do
      let signature := trim ((lines[line - 1]?).getD [])
      let returnType ← match result with
        | .absent => .ok []
        | hint => hint.typeText
      .ok [Method.make name.word signature returnType (documentationOf? (Node.flatParts [block]))]
  | _ => .ok []

/-- The class that a top-level statement declares. -/
def classOf? (lines : Array Text) (n : Node) : Except Text (Option TypeDecl) :=
  match n with
  | .node .classDef _ [name, arguments, block] => do
      let body := Node.flatParts [block]
      let members ← body.mapM fun s => do return (← fieldsOf s, ← methodsOf lines s)
      .ok (some
        { name := name.word
          kind := classKind (baseNames arguments)
          documentation := documentationOf? body
          fields := members.flatMap Prod.fst
          methods := members.flatMap Prod.snd })
  | _ => .ok none

/-- The classes of a Python text. -/
def classesOf (data : CharacterData) (content : Text) : Except ScanFailure (List TypeDecl) :=
  if content.contains '\x00' then
    .error (.badValue "source code string cannot contain null bytes".toList)
  else
    match parseModule data content with
    | .error e => .error (.refused e.message (some e.line))
    | .ok tree =>
        match (Node.flatParts [tree]).mapM (classOf? (physicalLines content).toArray) with
        | .error message => .error (.badValue message)
        | .ok classes => .ok (classes.filterMap id)

/-- The name of the language this scan reads. -/
def language : Text := "python".toList

/-- The documentation of a Python unit. -/
def scan (data : CharacterData) (u : SourceUnit) : Except ScanFailure FileDoc := do
  return ⟨u.name, u.path, language, ← classesOf data u.content⟩

end DocPress.Docstring
