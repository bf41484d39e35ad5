import DocPress.Xml.Declarations
import DocPress.Xml.Element

/-!
# Reading documents

A document is an optional first line, comments and declarations, one element,
and comments.  Line ends are made line feeds before anything else.  Names are
expanded by the namespaces in force: a name of a namespace is written with the
namespace in braces before it.
-/

namespace DocPress.Xml

open Text

/-! ### Namespaces -/

/-- The namespaces in force, the innermost first; the empty mark is the one of
names without a mark. -/
abbrev Scope := List (Text × Text)

/-- The namespace of the names that begin with `xml:`. -/
def xmlSpace : Text := "http://www.w3.org/XML/1998/namespace".toList

/-- The namespace of the declarations of namespaces. -/
def xmlnsSpace : Text := "http://www.w3.org/2000/xmlns/".toList

/-- A name cut at its colon; a name without one has no mark. -/
def cutName (n : Text) : Option Text × Text :=
  let before := n.takeWhile (· != ':')
  match n.drop before.length with
  | _ :: rest => (some before, rest)
  | [] => (none, n)

/-- The mark that an attribute declares a namespace for. -/
def declaredMark? (key : Text) : Option Text :=
  if key = "xmlns".toList then some []
  else
    match cutName key with
    | (some mark, rest) => if mark = "xmlns".toList then some rest else none
    | _ => none

/-- Whether a mark may stand for a namespace. -/
def isBindable (mark space : Text) : Bool :=
  if mark = "xmlns".toList then false
  else if mark = "xml".toList then space = xmlSpace
  else if space = xmlSpace || space = xmlnsSpace then false
  else if space.isEmpty then mark.isEmpty
  else !space.contains '\x7d'

/-- The scope inside a tag with the given attributes. -/
def bindAll (scope : Scope) : List (Text × Text) → Option Scope
  | [] => some scope
  | (n, value) :: more =>
      match declaredMark? n with
      | none => bindAll scope more
      | some mark => if isBindable mark value then bindAll ((mark, value) :: scope) more else none

/-- A local name in a namespace. -/
def inSpace (space localName : Text) : Text :=
  if space.isEmpty then localName else '\x7b' :: space ++ '\x7d' :: localName

/-- The expanded name of an element. -/
def elementName? (scope : Scope) (n : Text) : Option Text :=
  match cutName n with
  | (none, localName) => some (inSpace ((scope.lookup []).getD []) localName)
  | (some mark, localName) => (scope.lookup mark).map fun space => inSpace space localName

/-- The expanded name of an attribute; without a mark it has no namespace. -/
def attributeName? (scope : Scope) (n : Text) : Option Text :=
  match cutName n with
  | (none, localName) => some localName
  | (some mark, localName) => (scope.lookup mark).map fun space => inSpace space localName

/-- Whether no text stands twice in a list. -/
def allDistinct : List Text → Bool
  | [] => true
  | t :: more => !more.contains t && allDistinct more

/-! ### Tags -/

/-- A start tag as it is written, with the values of its attributes read. -/
structure Tag where
  name : Text
  attributes : List (Text × Text)
  isEmpty : Bool

/-- The attributes and the end of a start tag after its name.  At most `fuel`
attributes are read. -/
def tagRest (d : Declarations) : Nat → Text → Option (List (Text × Text) × Bool × Text)
  | 0, _ => none
  | fuel + 1, t =>
      let inner := skipSpace t
      match inner with
      | '>' :: rest => some ([], false, rest)
      | '/' :: '>' :: rest => some ([], true, rest)
      | _ =>
          if inner.length = t.length then none
          else do
            let (n, rest) ← qualifiedName? inner
            match skipSpace rest with
            | '=' :: rest =>
                match skipSpace rest with
                | mark :: rest =>
                    if mark = '"' || mark = '\'' then
                      let raw := rest.takeWhile (· != mark)
                      match rest.drop raw.length with
                      | [] => none
                      | _ :: rest => do
                          let value ← attributeValue d (d.fuel raw) [] raw
                          let (more, isEmpty, rest) ← tagRest d fuel rest
                          some ((n, value) :: more, isEmpty, rest)
                    else none
                | [] => none
            | _ => none

/-- The attributes of an element with the declared rules applied. -/
def withRules (d : Declarations) (element : Text) (given : List (Text × Text)) :
    List (Text × Text) :=
  let rules := d.attributes.filter fun r => r.element == element
  let spaced := given.map fun a =>
    if rules.any fun r => r.key == a.1 && r.isWords then (a.1, singleSpaced a.2) else a
  let missing := rules.filterMap fun r =>
    if given.any fun a => a.1 == r.key then none
    else r.default.map fun value => (r.key, value)
  spaced ++ missing

/-- A start tag after its `<`. -/
def startTag? (d : Declarations) (t : Text) : Option (Tag × Text) := do
  let (n, rest) ← qualifiedName? t
  let (given, isEmpty, rest) ← tagRest d (rest.length + 1) rest
  if allDistinct (given.map Prod.fst) then some (⟨n, withRules d n given, isEmpty⟩, rest)
  else none

/-- The expanded name, the expanded attributes and the inner scope of a tag. -/
def Tag.resolve? (scope : Scope) (tag : Tag) : Option (Text × List (Text × Text) × Scope) := do
  let scope ← bindAll scope tag.attributes
  let n ← elementName? scope tag.name
  let plain := tag.attributes.filter fun a => (declaredMark? a.1).isNone
  let attributes ← plain.mapM fun a => do some (← attributeName? scope a.1, a.2)
  if allDistinct (attributes.map Prod.fst) then some (n, attributes, scope) else none

/-- The end of an element whose start tag had the given name. -/
def endTag? (n : Text) (t : Text) : Option Text := do
  let rest ← Text.after? ('<' :: '/' :: n) t
  Text.after? ['>'] (skipSpace rest)

/-! ### Content -/

/-- What stands between tags: the text before the first element, and the
elements. -/
structure Content where
  text : Text
  children : List Element

namespace Content

/-- No content. -/
def empty : Content := ⟨[], []⟩

/-- A character before other content. -/
def char (c : Char) (k : Content) : Content := ⟨c :: k.text, k.children⟩

/-- Text before other content. -/
def prepend (t : Text) (k : Content) : Content := ⟨t ++ k.text, k.children⟩

/-- An element before other content. -/
def element (e : Element) (k : Content) : Content := ⟨[], e :: k.children⟩

/-- Content before other content. -/
def append (a b : Content) : Content :=
  if a.children.isEmpty then ⟨a.text ++ b.text, b.children⟩
  else ⟨a.text, a.children ++ b.children⟩

end Content

/-- The text of a section of plain characters after its opening, and the rest. -/
def plainSection? : Text → Option (Text × Text)
  | [] => none
  | ']' :: ']' :: '>' :: rest => some ([], rest)
  | c :: rest => (plainSection? rest).map fun r => (c :: r.1, r.2)

mutual

/-- The content up to the next end tag or the end of the text, and the rest.
`opened` are the entities being replaced. -/
def content (d : Declarations) : Nat → List Text → Scope → Text → Option (Content × Text)
  | 0, _, _, _ => none
  | _, _, _, [] => some (Content.empty, [])
  | fuel + 1, opened, scope, c :: rest =>
      if c = '<' then
        match rest with
        | '/' :: _ => some (Content.empty, c :: rest)
        | '?' :: rest => do
            let rest ← DtdReader.afterInstruction? rest
            content d fuel opened scope rest
        | '!' :: rest =>
            match Text.after? ['-', '-'] rest with
            | some rest => do
                let rest ← DtdReader.afterComment? rest
                content d fuel opened scope rest
            | none => do
                let rest ← Text.after? "[CDATA[".toList rest
                let (t, rest) ← plainSection? rest
                let (k, rest) ← content d fuel opened scope rest
                some (k.prepend t, rest)
        | _ => do
            let (e, rest) ← element d fuel opened scope rest
            let (k, rest) ← content d fuel opened scope rest
            some (k.element e, rest)
      else if c = '&' then do
        let (r, rest) ← reference? rest
        match r with
        | .char c => do
            let (k, rest) ← content d fuel opened scope rest
            some (k.char c, rest)
        | .entity name =>
            match d.entities.lookup name with
            | some (.internal text) =>
                if opened.contains name then none
                else
                  match content d fuel (name :: opened) scope text with
                  | some (inner, []) => do
                      let (k, rest) ← content d fuel opened scope rest
                      some (inner.append k, rest)
                  | _ => none
            | _ => none
      else if c = ']' && [']', '>'].isPrefixOf rest then none
      else do
        let (k, rest) ← content d fuel opened scope rest
        some (k.char c, rest)

/-- An element after the `<` of its start tag, and the rest. -/
def element (d : Declarations) : Nat → List Text → Scope → Text → Option (Element × Text)
  | 0, _, _, _ => none
  | fuel + 1, opened, scope, t => do
      let (tag, rest) ← startTag? d t
      let (n, attributes, inner) ← tag.resolve? scope
      if tag.isEmpty then some (.mk n attributes [] [], rest)
      else do
        let (k, rest) ← content d fuel opened inner rest
        let rest ← endTag? tag.name rest
        some (.mk n attributes k.text k.children, rest)

end

/-! ### Documents -/

/-- Skip white space, comments and instructions.  At most `fuel` are skipped. -/
def skipMisc : Nat → Text → Option Text
  | 0, t => some t
  | fuel + 1, t =>
      match skipSpace t with
      | '<' :: '!' :: '-' :: '-' :: rest => do skipMisc fuel (← DtdReader.afterComment? rest)
      | '<' :: '?' :: rest => do skipMisc fuel (← DtdReader.afterInstruction? rest)
      | t => some t

/-- Characters of the values in the first line. -/
def isFirstLineChar (c : Char) : Bool := c.isAlphanum || c = '.' || c = '-' || c = '_'

/-- A setting of the first line: white space, its name and its quoted value. -/
def setting? (key : String) (t : Text) : Option (Text × Text) := do
  if ((t.head?.map isSpace).getD false) = false then none
  else
    let rest ← Text.after? key.toList (skipSpace t)
    let rest ← Text.after? ['='] (skipSpace rest)
    match skipSpace rest with
    | mark :: rest =>
        if mark = '"' || mark = '\'' then
          let value := rest.takeWhile isFirstLineChar
          match rest.drop value.length with
          | c :: rest => if c = mark then some (value, rest) else none
          | [] => none
        else none
    | [] => none

/-- The first line after its `<?xml`: whether the document stands alone, and
the rest. -/
def firstLine? (t : Text) : Option (Bool × Text) := do
  let (_, rest) ← setting? "version" t
  let (coding, rest) := (setting? "encoding" rest).getD (['u'], rest)
  let (alone, rest) := (setting? "standalone" rest).getD ([], rest)
  if !((coding.head?.map Char.isAlpha).getD false) then none
  else if !(alone.isEmpty || alone = "yes".toList || alone = "no".toList) then none
  else
    let rest ← Text.after? ['?', '>'] (skipSpace rest)
    some (alone = "yes".toList, rest)

/-- Whether a text begins with the first line of a document. -/
def hasFirstLine (t : Text) : Bool :=
  "<?xml".toList.isPrefixOf t && (((t.drop 5).head?.map isSpace).getD false)

/-- The root element after the first line. -/
def body? (standalone : Bool) (t : Text) : Option Element := do
  let t ← skipMisc t.length t
  let (d, t) ←
    match Text.after? "<!DOCTYPE".toList t with
    | some rest => do
        let (d, rest) ← (DtdReader.documentType (.none standalone)).run rest
        some (d, ← skipMisc rest.length rest)
    | none => some (Declarations.none standalone, t)
  let t ← Text.after? ['<'] t
  let (root, rest) ← element d (d.fuel t) [] [("xml".toList, xmlSpace)] t
  let rest ← skipMisc rest.length rest
  if rest.isEmpty then some root else none

/-- The root element of a document; nothing if it is not well formed. -/
def read? (t : Text) : Option Element := do
  let t := unifyLineEnds ((Text.after? ['\ufeff'] t).getD t)
  if !t.all isDocumentChar then none
  else if hasFirstLine t then
    let (alone, rest) ← firstLine? (t.drop 5)
    body? alone rest
  else body? false t

end DocPress.Xml
