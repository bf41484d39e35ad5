import DocPress.Text.Basic

/-!
# Tokens of Python text

A token knows its kind, its text, the line it starts on and how many brackets
are open after it.
-/

namespace DocPress.Docstring

/-- The kinds of tokens. -/
inductive TokenKind where
  | name
  | keyword
  | async
  | await
  | number
  | string
  | op
  | newline
  | indent
  | dedent
  | endMarker
deriving DecidableEq, Inhabited

/-- A token of the text. -/
structure Token where
  kind : TokenKind
  text : Text
  line : Nat
  level : Nat
deriving DecidableEq, Inhabited

/-- The words that are never names. -/
def keywords : List Text :=
  ["False".toList, "None".toList, "True".toList, "and".toList, "as".toList, "assert".toList,
    "break".toList, "class".toList, "continue".toList, "def".toList, "del".toList,
    "elif".toList, "else".toList, "except".toList, "finally".toList, "for".toList,
    "from".toList, "global".toList, "if".toList, "import".toList, "in".toList, "is".toList,
    "lambda".toList, "nonlocal".toList, "not".toList, "or".toList, "pass".toList,
    "raise".toList, "return".toList, "try".toList, "while".toList, "with".toList,
    "yield".toList]

/-- The kind of a word. -/
def wordKind (t : Text) : TokenKind :=
  if keywords.contains t then .keyword
  else if t = "async".toList then .async
  else if t = "await".toList then .await
  else .name

/-- Why the text cannot be cut into further tokens. -/
inductive Fault where
  /-- An error with a message of its own, at a line. -/
  | lexical (message : Text) (line : Nat)
  /-- The text ends inside brackets or after a backslash. -/
  | endOfText (line : Nat)
  /-- A line is indented less than its block and like no outer one. -/
  | unindent (line : Nat)
  /-- Tabs and spaces are mixed so that the indentation depends on the tab width. -/
  | tabs (line : Nat)
  /-- More levels of indentation than allowed. -/
  | tooDeep (line : Nat)
  /-- Something follows a backslash on its line. -/
  | continuation (line : Nat)
deriving DecidableEq

/-- The tokens of a text, the fault that ended them if any, and the innermost
bracket still open there with its line. -/
structure Lexed where
  tokens : List Token
  fault : Option Fault
  openBracket : Option (Char × Nat)

end DocPress.Docstring
