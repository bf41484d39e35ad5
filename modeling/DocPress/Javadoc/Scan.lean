import DocPress.Javadoc.Declaration
import DocPress.Model.Basic
import DocPress.Source.Unit

/-!
# Scanning Java text

One pass over the trimmed lines.  Each line is met inside a documentation
block, inside a plain comment, or in code.  A finished block waits for the
next declaration; blank, bracket and unrecognised lines drop it, plain comments
leave it alone.
-/

namespace DocPress.Javadoc

open Text

/-- Where a line is met. -/
inductive Place where
  | code
  | docBlock (lines : List Text)
  | plainComment
deriving DecidableEq, Inhabited

/-- What the scan has found so far. -/
structure Progress where
  place : Place
  pending : Option Block
  classes : List TypeDecl
deriving Inhabited

/-- How a line of code is consumed. -/
inductive Role where
  | docLine (text : Text)
  | docOpening (text : Text)
  | comment
  | commentOpening
  | separator
  | other
deriving DecidableEq

/-- Lines that keep a block from what follows. -/
def isSeparator (line : Text) : Bool :=
  line == [] || line == ['\x7b'] || line == ['\x7d'] || line == [';']

/-- The role of a trimmed line met in code. -/
def roleOf (line : Text) : Role :=
  match line with
  | '/' :: '*' :: '*' :: rest =>
      if rest.head? = some '/' then
        if endsComment line then .comment else .commentOpening
      else
        match before? ['*', '/'] rest with
        | some text => .docLine (trim text)
        | none => .docOpening (trim rest)
  | '/' :: '*' :: rest =>
      if endsComment line && rest != ['/'] then .comment else .commentOpening
  | '/' :: '/' :: _ => .comment
  | _ => if isSeparator line then .separator else .other
where
  /-- Whether a line ends with the closing mark of a comment. -/
  endsComment (line : Text) : Bool := ['*', '/'].isSuffixOf line

/-- The block of collected lines. -/
def blockOf (lines : List Text) : Block := ⟨join ['\n'] lines⟩

/-- Change the last entry of a list. -/
def onLast {α : Type} (f : α → α) : List α → List α
  | [] => []
  | [x] => [f x]
  | x :: more => x :: onLast f more

/-- Consume a line of code that is neither comment nor separator.  Members
belong to the last type; before the first type they are not recognised. -/
def declare (p : Progress) (line : Text) : Progress :=
  match typeOn? line with
  | some (.type kind name) =>
      { p with pending := none, classes := p.classes ++ [⟨name, kind, p.pending, [], []⟩] }
  | _ =>
      if p.classes.isEmpty then { p with pending := none }
      else
        match (methodOn? line).or (fieldOn? line) with
        | some (.method name returnType) =>
            let m := Method.make name line returnType p.pending
            { p with
              pending := none
              classes := onLast (fun c => { c with methods := c.methods ++ [m] }) p.classes }
        | some (.field name typeText) =>
            let f : Field := ⟨name, typeText, p.pending⟩
            { p with
              pending := none
              classes := onLast (fun c => { c with fields := c.fields ++ [f] }) p.classes }
        | _ => { p with pending := none }

/-- Consume one trimmed line. -/
def step (p : Progress) (line : Text) : Progress :=
  match p.place with
  | .docBlock lines =>
      match before? ['*', '/'] line with
      | some text =>
          { p with place := .code, pending := some (blockOf (lines ++ [Comment.stripStar text])) }
      | none => { p with place := .docBlock (lines ++ [Comment.stripStar line]) }
  | .plainComment =>
      if ['*', '/'].isSuffixOf line then { p with place := .code } else p
  | .code =>
      match roleOf line with
      | .docLine text => { p with pending := some (blockOf [text]) }
      | .docOpening text => { p with place := .docBlock [text] }
      | .comment => p
      | .commentOpening => { p with place := .plainComment }
      | .separator => { p with pending := none }
      | .other => declare p line

/-- The scan before the first line. -/
def Progress.start : Progress := ⟨.code, none, []⟩

/-- The type declarations of a Java text. -/
def classesOf (content : Text) : List TypeDecl :=
  ((lines content).foldl (fun p line => step p (trim line)) Progress.start).classes

/-- The name of the language this scan reads. -/
def language : Text := "java".toList

/-- The documentation of a Java unit. -/
def scan (u : SourceUnit) : FileDoc := ⟨u.name, u.path, language, classesOf u.content⟩

end DocPress.Javadoc
