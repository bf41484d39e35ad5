import DocPress.Xml.Reference

/-!
# Declarations

A document may declare entities and attributes before its root element.  Only
declarations in the document itself are read; where others may exist, an
unknown entity is no error in an attribute value.
-/

namespace DocPress.Xml

open Text

/-- A declared entity. -/
inductive Entity where
  | internal (text : Text)
  | external
deriving DecidableEq

/-- A declared attribute of an element. -/
structure AttributeRule where
  element : Text
  key : Text
  /-- Whether the value is a list of words, whose spacing does not count. -/
  isWords : Bool
  default : Option Text

/-- The declarations of a document. -/
structure Declarations where
  entities : List (Text × Entity)
  attributes : List AttributeRule
  /-- Whether declarations may exist that are not read. -/
  partly : Bool
  /-- Whether the document says that it stands alone. -/
  standalone : Bool
  /-- Whether declarations still count. -/
  counting : Bool

namespace Declarations

/-- No declarations. -/
def none (standalone : Bool) : Declarations := ⟨[], [], false, standalone, true⟩

/-- Whether every entity must be declared. -/
def isStrict (d : Declarations) : Bool := !d.partly || d.standalone

end Declarations

/-- The value of an attribute between its quotation marks: white space becomes
blanks and references are replaced.  `opened` are the entities being replaced,
and at most `fuel` characters are read. -/
def attributeValue (d : Declarations) : Nat → List Text → Text → Option Text
  | 0, _, _ => none
  | _, _, [] => some []
  | fuel + 1, opened, c :: rest =>
      if c = '<' then none
      else if c = '&' then do
        let (r, rest) ← reference? rest
        match r with
        | .char c => (attributeValue d fuel opened rest).map (c :: ·)
        | .entity name =>
            match d.entities.lookup name with
            | some (.internal text) =>
                if opened.contains name then none
                else do
                  let inner ← attributeValue d fuel (name :: opened) text
                  let after ← attributeValue d fuel opened rest
                  some (inner ++ after)
            | some .external => none
            | none => if d.isStrict then none else attributeValue d fuel opened rest
      else
        (attributeValue d fuel opened rest).map ((if isSpace c then ' ' else c) :: ·)

/-- Enough fuel to read a text with all entities replaced once on the way. -/
def Declarations.fuel (d : Declarations) (t : Text) : Nat :=
  d.entities.foldr (fun e size =>
    match e.2 with
    | .internal text => size + text.length + 1
    | .external => size + 1) (t.length + 1)

/-- A list of words with single blanks between them. -/
def singleSpaced (t : Text) : Text :=
  join [' '] ((Text.splitAt ' ' t).filter fun w => !w.isEmpty)

/-! ### Reading declarations -/

/-- A reader of declarations. -/
abbrev DtdReader := StateT Text Option

namespace DtdReader

/-- Refuse the text. -/
def refuse {α : Type} : DtdReader α := fun _ => none

/-- The white space at the head, which may be none. -/
def space : DtdReader Unit := modify skipSpace

/-- White space that must be there. -/
def needSpace : DtdReader Unit := do
  if ((← get).head?.map isSpace).getD false then space else refuse

/-- Whether the text starts so; if it does, it is read. -/
def accept (start : String) : DtdReader Bool := do
  match Text.after? start.toList (← get) with
  | some rest => do set rest; pure true
  | none => pure false

/-- A text that must be there. -/
def expect (start : String) : DtdReader Unit := do
  if ← accept start then pure () else refuse

/-- A name, with or without a colon. -/
def name : DtdReader Text := do
  match qualifiedName? (← get) with
  | some (n, rest) => do set rest; pure n
  | none => refuse

/-- A run of name characters. -/
def nameToken : DtdReader Text := do
  let t ← get
  let word := t.takeWhile fun c => isNameChar c || c = ':'
  if word.isEmpty then refuse
  else do
    set (t.drop word.length)
    pure word

/-- A text between quotation marks, as it is written. -/
def literal : DtdReader Text := do
  match ← get with
  | c :: rest =>
      if c = '"' || c = '\'' then
        let body := rest.takeWhile (· != c)
        match rest.drop body.length with
        | [] => refuse
        | _ :: after => do
            set after
            pure body
      else refuse
  | [] => refuse

/-- The characters of public identifiers. -/
def isPublicChar (c : Char) : Bool :=
  c.isAlphanum || " \n-'()+,./:=?;!*#@$_%".toList.contains c

/-- The place of something outside the document. -/
def externalPlace : DtdReader Unit := do
  if ← accept "SYSTEM" then
    needSpace
    let _ ← literal
  else
    expect "PUBLIC"
    publicPlace
where
  /-- A public identifier and the place that follows it. -/
  publicPlace : DtdReader Unit := do
    needSpace
    let id ← literal
    if !id.all isPublicChar then refuse
    needSpace
    let _ ← literal

/-- The text of an entity from its declaration: references by number are
replaced, others kept.  At most `fuel` characters are read. -/
def entityText : Nat → Text → Option Text
  | 0, _ => none
  | _, [] => some []
  | fuel + 1, c :: rest =>
      if c = '%' then none
      else if c = '&' then do
        let (r, after) ← reference? rest
        match rest with
        | '#' :: _ =>
            match r with
            | .char c => (entityText fuel after).map (c :: ·)
            | .entity _ => none
        | _ => (entityText fuel after).map (('&' :: rest.take (rest.length - after.length)) ++ ·)
      else (entityText fuel rest).map (c :: ·)

/-- The declaration of an entity after its keyword. -/
def entity (d : Declarations) : DtdReader Declarations := do
  needSpace
  let parameter ← accept "%"
  if parameter then needSpace
  let n ← name
  needSpace
  let quoted := match ← get with
    | '"' :: _ => true
    | '\'' :: _ => true
    | _ => false
  if quoted then
    let raw ← literal
    match entityText (raw.length + 1) raw with
    | none => refuse
    | some text => finish d parameter n (.internal text)
  else
    externalPlace
    let spaced := ((← get).head?.map isSpace).getD false
    space
    if spaced && !parameter then
      if ← accept "NDATA" then
        needSpace
        let _ ← name
    finish d parameter n .external
where
  /-- The end of a declaration; the first declaration of a name counts. -/
  finish (d : Declarations) (parameter : Bool) (n : Text) (e : Entity) :
      DtdReader Declarations := do
    space
    expect ">"
    if parameter || !d.counting || (d.entities.lookup n).isSome then pure d
    else pure { d with entities := d.entities ++ [(n, e)] }

/-- Words between brackets with bars between them. -/
def choices : Nat → DtdReader Unit
  | 0 => refuse
  | fuel + 1 => do
      space
      let _ ← nameToken
      space
      if ← accept "|" then choices fuel else expect ")"

/-- The type of an attribute; the answer says whether it is a list of words. -/
def attributeType : DtdReader Bool := do
  if ← accept "(" then
    choices (← get).length
    pure true
  else
    let word ← nameToken
    if word = "CDATA".toList then pure false
    else if word = "NOTATION".toList then
      needSpace
      expect "("
      choices (← get).length
      pure true
    else if ["ID".toList, "IDREF".toList, "IDREFS".toList, "ENTITY".toList, "ENTITIES".toList,
        "NMTOKEN".toList, "NMTOKENS".toList].contains word then pure true
    else refuse

/-- The rules of an attribute declaration after the name of its element. -/
def attributeRules (element : Text) : Nat → Declarations → DtdReader Declarations
  | 0, _ => refuse
  | fuel + 1, d => do
      let spaced := ((← get).head?.map isSpace).getD false
      space
      if ← accept ">" then pure d
      else if !spaced then refuse
      else
        let n ← name
        needSpace
        let isWords ← attributeType
        needSpace
        let fixed ← if ← accept "#REQUIRED" then pure (some false)
          else if ← accept "#IMPLIED" then pure (some false)
          else if ← accept "#FIXED" then do
            needSpace
            pure (some true)
          else pure none
        let default ← if fixed = some false then pure none
          else do
            let raw ← literal
            match attributeValue d (d.fuel raw) [] raw with
            | none => refuse
            | some value => pure (some (if isWords then singleSpaced value else value))
        let known := d.attributes.any fun r => r.element == element && r.key == n
        let d := if known || !d.counting then d
          else { d with attributes := d.attributes ++ [⟨element, n, isWords, default⟩] }
        attributeRules element fuel d

/-- The content of a group in the declaration of an element. -/
def group : Nat → DtdReader Unit
  | 0 => refuse
  | fuel + 1 => do
      space
      if ← accept "(" then group fuel
      else if ← accept "#PCDATA" then pure ()
      else do
        let _ ← name
      repetition
      space
      if ← accept "|" then group fuel
      else if ← accept "," then group fuel
      else expect ")"
where
  /-- A mark of repetition, which may be missing. -/
  repetition : DtdReader Unit := do
    if ← accept "*" then pure ()
    else if ← accept "+" then pure ()
    else if ← accept "?" then pure ()

/-- The declaration of an element after its keyword. -/
def elementRule : DtdReader Unit := do
  needSpace
  let _ ← name
  needSpace
  if ← accept "EMPTY" then pure ()
  else if ← accept "ANY" then pure ()
  else do
    expect "("
    group (← get).length
    group.repetition
  space
  expect ">"

/-- A comment after its `<!--`. -/
def afterComment? : Text → Option Text
  | [] => none
  | '-' :: '-' :: rest => Text.after? ['>'] rest
  | _ :: rest => afterComment? rest

/-- An instruction after its `<?`; the word `xml` is kept for the first line. -/
def afterInstruction? (t : Text) : Option Text := do
  let (target, rest) ← name? t
  if target.map Char.toLower = "xml".toList then none
  else if (Text.after? ['?', '>'] rest).isSome then Text.after? ['?', '>'] rest
  else if (rest.head?.map isSpace).getD false then skip rest
  else none
where
  /-- The text after the end of an instruction. -/
  skip : Text → Option Text
    | [] => none
    | '?' :: '>' :: rest => some rest
    | _ :: rest => skip rest

/-- The declarations between the brackets of a document type. -/
def subset : Nat → Declarations → DtdReader Declarations
  | 0, _ => refuse
  | fuel + 1, d => do
      space
      if ← accept "]" then pure d
      else if ← accept "%" then
        let _ ← name
        expect ";"
        subset fuel { d with partly := true, counting := d.counting && d.standalone }
      else if ← accept "<!--" then
        skipBy afterComment?
        subset fuel d
      else if ← accept "<?" then
        skipBy afterInstruction?
        subset fuel d
      else if ← accept "<!ENTITY" then subset fuel (← entity d)
      else if ← accept "<!ATTLIST" then
        needSpace
        let n ← name
        subset fuel (← attributeRules n (← get).length d)
      else if ← accept "<!ELEMENT" then
        elementRule
        subset fuel d
      else if ← accept "<!NOTATION" then
        needSpace
        let _ ← name
        needSpace
        optionalPlace
        space
        expect ">"
        subset fuel d
      else refuse
where
  /-- Leave something out. -/
  skipBy (f : Text → Option Text) : DtdReader Unit := do
    match f (← get) with
    | some rest => set rest
    | none => refuse
  /-- A place whose address may be missing after a public identifier. -/
  optionalPlace : DtdReader Unit := do
    if ← accept "SYSTEM" then
      needSpace
      let _ ← literal
    else
      expect "PUBLIC"
      needSpace
      let id ← literal
      if !id.all isPublicChar then refuse
      let spaced := ((← get).head?.map isSpace).getD false
      space
      match ← get with
      | '>' :: _ => pure ()
      | _ => if spaced then do let _ ← literal else refuse

/-- A document type after its keyword. -/
def documentType (d : Declarations) : DtdReader Declarations := do
  needSpace
  let _ ← name
  let spaced := ((← get).head?.map isSpace).getD false
  space
  let t ← get
  let external := "SYSTEM".toList.isPrefixOf t || "PUBLIC".toList.isPrefixOf t
  if external then
    if spaced then externalPlace else refuse
  space
  let d := { d with partly := external }
  if ← accept "[" then
    let d ← subset (← get).length d
    space
    expect ">"
    pure d
  else
    expect ">"
    pure d

end DtdReader
end DocPress.Xml
