import DocPress.Docstring.Grammar.Basic

/-!
# The grammar of statements

Only what documents need is kept of a statement: classes, functions,
assignments and expressions.  Everything else becomes a node without parts.
-/

namespace DocPress.Docstring.Grammar

open Peg

/-- A statement rule as an item. -/
abbrev s (r : StmtRule) : Peg := .rule (.stmt r)

/-- An expression rule as an item. -/
abbrev e (r : ExprRule) : Peg := .rule (.expr r)

/-- A pattern rule as an item. -/
abbrev m (r : PatternRule) : Peg := .rule (.pattern r)

/-- A name. -/
abbrev name : Peg := .kind .name

/-- The end of a line. -/
abbrev newline : Peg := .kind .newline

/-- The start of a block. -/
abbrev indent : Peg := .kind .indent

/-- The end of a block. -/
abbrev dedent : Peg := .kind .dedent

/-- The word that marks asynchronous statements. -/
abbrev async : Peg := .kind .async

/-- An alternative that gives back its first item. -/
def one (p : Peg) : Alt := .mk [p] (.pick 0)

/-- An alternative whose parts are not kept. -/
def plain (items : List Peg) : Alt := .mk items (.make .other [])

/-- A value of an assignment. -/
def assigned : Peg := anyOf [e .yieldExpr, e .starExpressions]

/-- An optional name after the word `as`. -/
def asName : Peg := opt (.choice [.mk [tok "as", name] (.pick 1)])

/-- The alternatives of the statement rules. -/
def statementRules : StmtRule → List Alt
  | .file => [.mk [opt (s .statements), .kind .endMarker] (.pick 0)]
  | .fstring => [one (e .starExpressions)]
  | .statements => [one (many1 (s .statement))]
  | .statement => [.mk [s .compoundStmt] (.gather [0]), one (s .simpleStmts)]
  | .simpleStmts =>
      [.mk [s .simpleStmt, deny (tok ";"), newline] (.gather [0]),
        .mk [sep ";" (s .simpleStmt), opt (tok ";"), newline] (.pick 0)]
  | .simpleStmt =>
      [one (s .assignment),
        .mk [e .starExpressions] (.make .expression [0]),
        .mk [ahead (tok "return"), s .returnStmt] (.pick 1),
        .mk [ahead (oneOf ["import", "from"]), s .importStmt] (.pick 1),
        .mk [ahead (tok "raise"), s .raiseStmt] (.pick 1),
        plain [tok "pass"],
        .mk [ahead (tok "del"), s .delStmt] (.pick 1),
        .mk [ahead (tok "yield"), s .yieldStmt] (.pick 1),
        .mk [ahead (tok "assert"), s .assertStmt] (.pick 1),
        plain [tok "break"],
        plain [tok "continue"],
        .mk [ahead (tok "global"), s .globalStmt] (.pick 1),
        .mk [ahead (tok "nonlocal"), s .nonlocalStmt] (.pick 1)]
  | .compoundStmt =>
      [.mk [ahead (anyOf [tok "def", tok "@", async]), s .functionDef] (.pick 1),
        .mk [ahead (tok "if"), s .ifStmt] (.pick 1),
        .mk [ahead (oneOf ["class", "@"]), s .classDef] (.pick 1),
        .mk [ahead (anyOf [tok "with", async]), s .withStmt] (.pick 1),
        .mk [ahead (anyOf [tok "for", async]), s .forStmt] (.pick 1),
        .mk [ahead (tok "try"), s .tryStmt] (.pick 1),
        .mk [ahead (tok "while"), s .whileStmt] (.pick 1),
        one (m .matchStmt)]
  | .assignment =>
      [.mk [name, tok ":", e .expression, opt (.choice [.mk [tok "=", s .annotatedRhs] (.pick 1)])]
          (.make .annotated [0, 2]),
        .mk [.choice [.mk [tok "(", e .singleTarget, tok ")"] (.pick 1),
            one (e .singleSubscriptAttributeTarget)],
          tok ":", e .expression, opt (.choice [.mk [tok "=", s .annotatedRhs] (.pick 1)])]
          (.make .annotated [0, 2]),
        .mk [many1 (.choice [.mk [e .starTargets, tok "="] (.pick 0)]), assigned, deny (tok "=")]
          (.make .assign [0]),
        plain [e .singleTarget, s .augassign, commit, assigned],
        one (.mistake .assignment)]
  | .annotatedRhs => [one (e .yieldExpr), one (e .starExpressions)]
  | .augassign =>
      [one (oneOf ["+=", "-=", "*=", "@=", "/=", "%=", "&=", "|=", "^=", "<<=", ">>=", "**=",
        "//="])]
  | .returnStmt => [plain [tok "return", opt (e .starExpressions)]]
  | .raiseStmt =>
      [plain [tok "raise", e .expression, opt (.choice [plain [tok "from", e .expression]])],
        plain [tok "raise"]]
  | .globalStmt => [plain [tok "global", sep "," name]]
  | .nonlocalStmt => [plain [tok "nonlocal", sep "," name]]
  | .delStmt =>
      [plain [tok "del", e .delTargets, ahead (anyOf [tok ";", newline])], one (.mistake .delStmt)]
  | .yieldStmt => [.mk [e .yieldExpr] (.make .expression [0])]
  | .assertStmt =>
      [plain [tok "assert", e .expression, opt (.choice [plain [tok ",", e .expression]])]]
  | .importStmt => [one (s .importName), one (s .importFrom)]
  | .importName => [plain [tok "import", s .dottedAsNames]]
  | .importFrom =>
      [plain [tok "from", many (oneOf [".", "..."]), s .dottedName, tok "import",
          s .importFromTargets],
        plain [tok "from", many1 (oneOf [".", "..."]), tok "import", s .importFromTargets]]
  | .importFromTargets =>
      [plain [tok "(", s .importFromAsNames, opt (tok ","), tok ")"],
        plain [s .importFromAsNames, deny (tok ",")],
        plain [tok "*"],
        one (.mistake .importFromTargets)]
  | .importFromAsNames => [plain [sep "," (s .importFromAsName)]]
  | .importFromAsName => [plain [name, asName]]
  | .dottedAsNames => [plain [sep "," (s .dottedAsName)]]
  | .dottedAsName => [plain [s .dottedName, asName]]
  | .dottedName => [plain [name, many (.choice [plain [tok ".", name]])]]
  | .block =>
      [.mk [newline, indent, s .statements, dedent] (.pick 2), one (s .simpleStmts),
        one (.mistake .block)]
  | .decorators => [plain [many1 (.choice [plain [tok "@", e .namedExpression, newline]])]]
  | .classDef => [.mk [s .decorators, s .classDefRaw] (.pick 1), one (s .classDefRaw)]
  | .classDefRaw =>
      [one (.mistake .classDefRaw),
        .mk [tok "class", name,
          opt (.choice [.mk [tok "(", opt (e .arguments), tok ")"] (.pick 1)]), tok ":", s .block]
          (.make .classDef [1, 2, 4])]
  | .functionDef => [.mk [s .decorators, s .functionDefRaw] (.pick 1), one (s .functionDefRaw)]
  | .functionDefRaw =>
      [one (.mistake .defRaw),
        .mk [tok "def", name, must "(", opt (s .params), tok ")",
          opt (.choice [.mk [tok "->", e .expression] (.pick 1)]), must ":", s .block]
          (.make .functionDef [1, 5, 7]),
        .mk [async, tok "def", name, must "(", opt (s .params), tok ")",
          opt (.choice [.mk [tok "->", e .expression] (.pick 1)]), must ":", s .block]
          (.make .functionDef [2, 6, 8])]
  | .params => [one (.mistake .parameters), one (s .parameters)]
  | .parameters =>
      [plain [s .slashNoDefault, many (s .paramNoDefault), many (s .paramWithDefault),
          opt (s .starEtc)],
        plain [s .slashWithDefault, many (s .paramWithDefault), opt (s .starEtc)],
        plain [many1 (s .paramNoDefault), many (s .paramWithDefault), opt (s .starEtc)],
        plain [many1 (s .paramWithDefault), opt (s .starEtc)],
        plain [s .starEtc]]
  | .slashNoDefault =>
      [plain [many1 (s .paramNoDefault), tok "/", tok ","],
        plain [many1 (s .paramNoDefault), tok "/", ahead (tok ")")]]
  | .slashWithDefault =>
      [plain [many (s .paramNoDefault), many1 (s .paramWithDefault), tok "/", tok ","],
        plain [many (s .paramNoDefault), many1 (s .paramWithDefault), tok "/", ahead (tok ")")]]
  | .starEtc =>
      [one (.mistake .starEtc),
        plain [tok "*", s .paramNoDefault, many (s .paramMaybeDefault), opt (s .kwds)],
        plain [tok "*", s .paramNoDefaultStarHint, many (s .paramMaybeDefault), opt (s .kwds)],
        plain [tok "*", tok ",", many1 (s .paramMaybeDefault), opt (s .kwds)],
        plain [s .kwds]]
  | .kwds => [one (.mistake .kwds), plain [tok "**", s .paramNoDefault]]
  | .paramNoDefault =>
      [.mk [s .param, tok ","] (.pick 0), .mk [s .param, ahead (tok ")")] (.pick 0)]
  | .paramNoDefaultStarHint =>
      [.mk [s .paramStarHint, tok ","] (.pick 0), .mk [s .paramStarHint, ahead (tok ")")] (.pick 0)]
  | .paramWithDefault =>
      [.mk [s .param, s .default, tok ","] (.pick 0),
        .mk [s .param, s .default, ahead (tok ")")] (.pick 0)]
  | .paramMaybeDefault =>
      [.mk [s .param, opt (s .default), tok ","] (.pick 0),
        .mk [s .param, opt (s .default), ahead (tok ")")] (.pick 0)]
  | .param => [plain [name, opt (s .hint)]]
  | .paramStarHint => [plain [name, s .starHint]]
  | .hint => [.mk [tok ":", e .expression] (.pick 1)]
  | .starHint => [.mk [tok ":", e .starExpression] (.pick 1)]
  | .default => [.mk [tok "=", e .expression] (.pick 1), one (.mistake .default)]
  | .ifStmt =>
      [one (.mistake .ifStmt),
        plain [tok "if", e .namedExpression, tok ":", s .block, s .elifStmt],
        plain [tok "if", e .namedExpression, tok ":", s .block, opt (s .elseBlock)]]
  | .elifStmt =>
      [one (.mistake .elifStmt),
        plain [tok "elif", e .namedExpression, tok ":", s .block, s .elifStmt],
        plain [tok "elif", e .namedExpression, tok ":", s .block, opt (s .elseBlock)]]
  | .elseBlock => [one (.mistake .elseStmt), plain [tok "else", must ":", s .block]]
  | .whileStmt =>
      [one (.mistake .whileStmt),
        plain [tok "while", e .namedExpression, tok ":", s .block, opt (s .elseBlock)]]
  | .forStmt =>
      [one (.mistake .forStmt),
        plain [tok "for", e .starTargets, tok "in", commit, e .starExpressions, must ":", s .block,
          opt (s .elseBlock)],
        plain [async, tok "for", e .starTargets, tok "in", commit, e .starExpressions, must ":",
          s .block, opt (s .elseBlock)],
        one (.mistake .forTarget)]
  | .withStmt =>
      [one (.mistake .withStmtIndent),
        plain [tok "with", tok "(", sep "," (s .withItem), opt (tok ","), tok ")", tok ":",
          s .block],
        plain [tok "with", sep "," (s .withItem), tok ":", s .block],
        plain [async, tok "with", tok "(", sep "," (s .withItem), opt (tok ","), tok ")", tok ":",
          s .block],
        plain [async, tok "with", sep "," (s .withItem), tok ":", s .block],
        one (.mistake .withStmt)]
  | .withItem =>
      [plain [e .expression, tok "as", e .starTarget, ahead (oneOf [",", ")", ":"])],
        one (.mistake .withItem),
        plain [e .expression]]
  | .tryStmt =>
      [one (.mistake .tryStmt),
        plain [tok "try", must ":", s .block, s .finallyBlock],
        plain [tok "try", must ":", s .block, many1 (s .exceptBlock), opt (s .elseBlock),
          opt (s .finallyBlock)],
        plain [tok "try", must ":", s .block, many1 (s .exceptStarBlock), opt (s .elseBlock),
          opt (s .finallyBlock)]]
  | .exceptBlock =>
      [one (.mistake .exceptStmtIndent),
        plain [tok "except", e .expression, asName, tok ":", s .block],
        plain [tok "except", tok ":", s .block],
        one (.mistake .exceptStmt)]
  | .exceptStarBlock =>
      [one (.mistake .exceptStarStmtIndent),
        plain [tok "except", tok "*", e .expression, asName, tok ":", s .block],
        one (.mistake .exceptStmt)]
  | .finallyBlock => [one (.mistake .finallyStmt), plain [tok "finally", must ":", s .block]]

end DocPress.Docstring.Grammar
