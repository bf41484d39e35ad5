import DocPress.Docstring.Token

/-!
# Grammars as data

A grammar gives each rule its alternatives in order of preference.  An
alternative is a sequence of items and an action that makes a node from what
the items matched.  Some alternatives recognise mistakes: their action
complains instead of making a node.
-/

namespace DocPress.Docstring

/-- The forms of syntax nodes. -/
inductive Form where
  | name | number | str | bytes | joined | formatted | constant | ellipsis
  | tuple | list | set | dict | pair | unpackPair
  | listComp | setComp | dictComp | generator | clause | asyncClause
  | boolAnd | boolOr | unary | binary | compare | comparison | conditional
  | lambda | param | slash | star | doubleStar
  | await | yield | yieldFrom | starred | named
  | member | subscript | slice | call | arguments | keywordArg | unpackArg
  | classDef | functionDef | annotated | assign | expression | other
deriving DecidableEq, Inhabited

/-- A syntax node. -/
inductive Node where
  | token (t : Token)
  | absent
  | list (items : List Node)
  | text (codes : List Nat)
  | node (form : Form) (line : Nat) (parts : List Node)
deriving Inhabited

namespace Node

/-- The line a node starts on. -/
def line : Node → Nat
  | token t => t.line
  | node _ line _ => line
  | _ => 0

/-- The items of a list node. -/
def items : Node → List Node
  | list items => items
  | _ => []

/-- A part of a node by position. -/
def part (n : Node) (i : Nat) : Node :=
  match n with
  | node _ _ parts => (parts[i]?).getD absent
  | _ => absent

/-- Whether the node has the given form. -/
def isForm (n : Node) (f : Form) : Bool :=
  match n with
  | node g _ _ => g = f
  | _ => false

/-- The text of a token, or of the token a name consists of. -/
def word : Node → Text
  | token t => t.text
  | node .name _ (token t :: _) => t.text
  | node .constant _ (token t :: _) => t.text
  | _ => []

end Node

/-- Rules for statements. -/
inductive StmtRule where
  | file | fstring | statements | statement | simpleStmts | simpleStmt | compoundStmt
  | assignment | annotatedRhs | augassign | returnStmt | raiseStmt | globalStmt | nonlocalStmt
  | delStmt | yieldStmt | assertStmt | importStmt | importName | importFrom | importFromTargets
  | importFromAsNames | importFromAsName | dottedAsNames | dottedAsName | dottedName
  | block | decorators | classDef | classDefRaw | functionDef | functionDefRaw
  | params | parameters | slashNoDefault | slashWithDefault | starEtc | kwds
  | paramNoDefault | paramNoDefaultStarHint | paramWithDefault | paramMaybeDefault
  | param | paramStarHint | hint | starHint | default
  | ifStmt | elifStmt | elseBlock | whileStmt | forStmt | withStmt | withItem
  | tryStmt | exceptBlock | exceptStarBlock | finallyBlock
deriving DecidableEq, Hashable

/-- Rules for the patterns of match statements. -/
inductive PatternRule where
  | matchStmt | subjectExpr | caseBlock | guard | patterns | pattern | asPattern | orPattern
  | closedPattern | literalPattern | literalExpr | complexNumber | signedNumber
  | signedRealNumber | realNumber | imaginaryNumber | capturePattern | captureTarget
  | wildcardPattern | valuePattern | attr | nameOrAttr | groupPattern | sequencePattern
  | openSequencePattern | maybeSequencePattern | maybeStarPattern | starPattern
  | mappingPattern | itemsPattern | keyValuePattern | doubleStarPattern | classPattern
  | positionalPatterns | keywordPatterns | keywordPattern
deriving DecidableEq, Hashable

/-- Rules for expressions and targets. -/
inductive ExprRule where
  | expressions | expression | yieldExpr | starExpressions | starExpression
  | starNamedExpressions | starNamedExpression | assignmentExpression | namedExpression
  | disjunction | conjunction | inversion | comparison | comparisonStep
  | bitwiseOr | bitwiseXor | bitwiseAnd | shiftExpr | sum | term | factor | power
  | awaitPrimary | primary | slices | slice | atom | group
  | lambdef | lambdaParams | lambdaParameters | lambdaSlashNoDefault | lambdaSlashWithDefault
  | lambdaStarEtc | lambdaKwds | lambdaParamNoDefault | lambdaParamWithDefault
  | lambdaParamMaybeDefault | lambdaParam
  | strings | list | tuple | set | dict | doubleStarredPairs | doubleStarredPair | pair
  | forIfClauses | forIfClause | listcomp | setcomp | genexp | dictcomp
  | arguments | args | kwargs | starredExpression | kwargOrStarred | kwargOrDoubleStarred
  | starTargets | starTargetsListSeq | starTargetsTupleSeq | starTarget | targetWithStarAtom
  | starAtom | singleTarget | singleSubscriptAttributeTarget | targetPrimary | targetAhead
  | delTargets | delTarget | delTargetAtom | expressionQuiet
deriving DecidableEq, Hashable

/-- Rules that recognise mistakes. -/
inductive MistakeRule where
  | arguments | kwarg | legacyExpression | expression | namedExpression | assignment
  | hintTarget | delStmt | block | comprehension | dictComprehension | parameters
  | parametersHelper | default | starEtc | kwds | lambdaParameters | lambdaParametersHelper
  | lambdaStarEtc | lambdaKwds | withItem | forTarget | group | importFromTargets | withStmt
  | withStmtIndent | tryStmt | exceptStmt | finallyStmt | exceptStmtIndent
  | exceptStarStmtIndent | matchStmt | caseBlock | asPattern | classPattern
  | classArgumentPattern | ifStmt | elifStmt | elseStmt | whileStmt | forStmt | defRaw
  | classDefRaw | doubleStarredPairs | pair
deriving DecidableEq, Hashable

/-- The rules of the grammar. -/
inductive Rule where
  | stmt (r : StmtRule)
  | pattern (r : PatternRule)
  | expr (r : ExprRule)
  | mistake (r : MistakeRule)
deriving DecidableEq, Hashable

/-- What a complaint's wording names. -/
inductive Subject where
  | nothing
  | kindOf (item : Nat)
  | lineOf (item : Nat)
  | wordOf (item : Nat)

/-- Where a complaint points: at the last token read, or at a matched item. -/
inductive Site where
  | lastRead
  | item (i : Nat)

/-- The targets that a mistaken expression was meant as. -/
inductive TargetUse where
  | assigned
  | looped
  | deleted
deriving DecidableEq

/-- What an alternative does with what its items matched. -/
inductive Action where
  /-- Give back one item. -/
  | pick (i : Nat)
  /-- Make a node of chosen items. -/
  | make (f : Form) (parts : List Nat)
  /-- Make a list of chosen items. -/
  | gather (parts : List Nat)
  /-- Put the first item in front of the parts of each node of the second, in
  turn: the left-associative chains of operators and trailers. -/
  | chain
  /-- Join string tokens. -/
  | strings
  /-- Complain in fixed words. -/
  | complain (before : String) (about : Subject) (after : String) (site : Site)
  /-- Complain about the first part of an expression that is no target. -/
  | badTarget (use : TargetUse) (i : Nat)
  /-- Complain about a missing comma inside brackets. -/
  | missingComma
  /-- Complain about a print or exec statement. -/
  | legacyCall
  /-- Complain about a bare comprehension among several arguments. -/
  | bareGenerator
  /-- Complain about an argument that follows keyword arguments. -/
  | argumentOrder
  /-- Accept a number that is real, or one that is imaginary. -/
  | numberPart (imaginary : Bool)

mutual

/-- An item of an alternative. -/
inductive Peg where
  | tok (text : String)
  | kind (k : TokenKind)
  | soft (text : String)
  | anySoft
  | rule (r : Rule)
  /-- A rule that is tried only while mistakes are looked for. -/
  | mistake (r : MistakeRule)
  /-- A rule under which mistakes are not looked for. -/
  | quiet (r : Rule)
  | choice (alts : List Alt)
  | opt (p : Peg)
  | many (p : Peg)
  | many1 (p : Peg)
  | sep (separator : String) (p : Peg)
  | ahead (p : Peg)
  | deny (p : Peg)
  /-- A token without which the text is wrong at once. -/
  | must (text : String)
  /-- After this item no other alternative is tried. -/
  | commit

/-- An alternative of a rule. -/
inductive Alt where
  | mk (items : List Peg) (action : Action)

end

/-- An item that is one of several tokens. -/
def Peg.oneOf (texts : List String) : Peg :=
  .choice (texts.map fun t => .mk [.tok t] (.pick 0))

/-- An item that is one of several items. -/
def Peg.anyOf (ps : List Peg) : Peg := .choice (ps.map fun p => .mk [p] (.pick 0))

/-- Rules whose answer at a place is kept. -/
def Rule.isKept : Rule → Bool
  | .stmt r => r = .simpleStmt || r = .block || r = .dottedName
  | .pattern r => r = .closedPattern || r = .starPattern || r = .attr || r = .nameOrAttr
  | .expr r =>
      r = .expression || r = .starExpression || r = .disjunction || r = .conjunction
        || r = .inversion || r = .bitwiseOr || r = .bitwiseXor || r = .bitwiseAnd
        || r = .shiftExpr || r = .sum || r = .term || r = .factor || r = .awaitPrimary
        || r = .primary || r = .strings || r = .arguments || r = .starTarget
        || r = .targetWithStarAtom || r = .targetPrimary || r = .delTarget
  | .mistake r => r = .namedExpression

end DocPress.Docstring
