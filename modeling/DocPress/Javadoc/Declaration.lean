import DocPress.Text.Basic

/-!
# Declarations on one line

A trimmed line of Java declares at most one thing.  A type is declared by a
keyword, blanks and a name anywhere on the line.  A member is declared by a
type token and a name after an optional modifier; a method's name is followed
by parentheses and an opening brace or semicolon, a field's name by an optional
initializer and a semicolon.  The leftmost place that fits is taken, and at one
place the reading with a modifier before the one without.
-/

namespace DocPress.Javadoc

open Text

/-- What a line declares. -/
inductive Declaration where
  | type (kind name : Text)
  | method (name returnType : Text)
  | field (name typeText : Text)
deriving DecidableEq

/-- The keywords that declare a type, with the kind each declares. -/
def typeKeywords : List (Text × Text) :=
  [("class".toList, "class".toList), ("interface".toList, "interface".toList),
    ("enum".toList, "enum".toList), ("@interface".toList, "annotation".toList)]

/-- The modifiers read before a method. -/
def methodModifiers : List Text :=
  ["public".toList, "protected".toList, "private".toList, "static".toList, "final".toList,
    "abstract".toList, "synchronized".toList]

/-- The modifiers read before a field. -/
def fieldModifiers : List Text :=
  ["public".toList, "protected".toList, "private".toList, "static".toList, "final".toList,
    "transient".toList, "volatile".toList]

/-- The rest of a text after at least one blank, with all of them skipped. -/
def afterBlanks? : Text → Option Text
  | [] => none
  | c :: rest => if isBlank c then some (trimLeft rest) else none

/-- A non-empty name at the head of a text, and the rest. -/
def name? (t : Text) : Option (Text × Text) :=
  match t.takeWhile isWordChar with
  | [] => none
  | name => some (name, t.dropWhile isWordChar)

/-- A non-empty token without blanks at the head of a text, and the rest. -/
def token? (t : Text) : Option (Text × Text) :=
  match t.takeWhile (!isBlank ·) with
  | [] => none
  | token => some (token, t.dropWhile (!isBlank ·))

/-- A keyword, blanks and a name at the head of a text. -/
def typeHere? (t : Text) : Option Declaration :=
  typeKeywords.findSome? fun (keyword, kind) => do
    let rest ← after? keyword t
    let rest ← afterBlanks? rest
    let (name, _) ← name? rest
    some (.type kind name)

/-- Whether a method may end here: parentheses without a closing one inside,
then an opening brace or a semicolon. -/
def isMethodTail (t : Text) : Bool :=
  match trimLeft t with
  | '(' :: rest =>
      match rest.dropWhile (· != ')') with
      | ')' :: rest =>
          match trimLeft rest with
          | c :: _ => c == '\x7b' || c == ';'
          | [] => false
      | _ => false
  | _ => false

/-- Whether a field may end here: a semicolon, or an equals sign with a
semicolon somewhere after it. -/
def isFieldTail (t : Text) : Bool :=
  match trimLeft t with
  | ';' :: _ => true
  | '=' :: rest => rest.contains ';'
  | _ => false

/-- A type token, blanks and a name with a fitting tail at the head of a text. -/
def memberHere? (isTail : Text → Bool) (t : Text) : Option (Text × Text) := do
  let (token, rest) ← token? t
  let rest ← afterBlanks? rest
  let (name, rest) ← name? rest
  if isTail rest then some (token, name) else none

/-- The two readings at one place: after a modifier, or directly after blanks. -/
def memberFrom? (modifiers : List Text) (isTail : Text → Bool) (t : Text) :
    Option (Text × Text) :=
  let start := trimLeft t
  let withModifier := modifiers.findSome? fun modifier => do
    let rest ← after? modifier start
    let rest ← afterBlanks? rest
    memberHere? isTail rest
  withModifier.or (afterBlanks? t >>= memberHere? isTail)

/-- The first answer among a text and its shorter and shorter ends. -/
def leftmost? {α : Type} (here? : Text → Option α) : Text → Option α
  | [] => here? []
  | c :: rest => (here? (c :: rest)).or (leftmost? here? rest)

/-- The type that a line declares. -/
def typeOn? (line : Text) : Option Declaration := leftmost? typeHere? line

/-- The method that a line declares. -/
def methodOn? (line : Text) : Option Declaration :=
  (leftmost? (memberFrom? methodModifiers isMethodTail) line).map fun (type, name) =>
    .method name type

/-- The field that a line declares. -/
def fieldOn? (line : Text) : Option Declaration :=
  (leftmost? (memberFrom? fieldModifiers isFieldTail) line).map fun (type, name) =>
    .field name type

/-- What a line declares, types first, then methods, then fields. -/
def declarationOn? (line : Text) : Option Declaration :=
  ((typeOn? line).or (methodOn? line)).or (fieldOn? line)

end DocPress.Javadoc
