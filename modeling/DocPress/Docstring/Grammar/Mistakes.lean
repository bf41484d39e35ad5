import DocPress.Docstring.Grammar.Expressions

/-!
# The grammar of mistakes

Alternatives that recognise common mistakes.  They are tried only when a text
is known to be wrong, in order to say where and how.
-/

namespace DocPress.Docstring.Grammar

open Peg

/-- Complain at the last token read. -/
def saying (items : List Peg) (message : String) : Alt :=
  .mk items (.complain message .nothing "" .lastRead)

/-- Complain at an item. -/
def sayingAt (items : List Peg) (i : Nat) (message : String) : Alt :=
  .mk items (.complain message .nothing "" (.item i))

/-- Complain about a missing block after the statement that item `i` starts. -/
def noBlock (items : List Peg) (i : Nat) (what : String) : Alt :=
  .mk (items ++ [newline, deny indent])
    (.complain ("expected an indented block after " ++ what ++ " on line ") (.lineOf i) ""
      .lastRead)

/-- The words about a missing colon. -/
def colonExpected : String := "expected ':'"

/-- The words about an equals sign in place of a comparison. -/
def equalsMeant : String := "invalid syntax. Maybe you meant '==' or ':=' instead of '='?"

/-- Any parameters before a slash. -/
def beforeSlash : Peg := anyOf [s .slashNoDefault, s .slashWithDefault]

/-- Any lambda parameters before a slash. -/
def beforeLambdaSlash : Peg := anyOf [e .lambdaSlashNoDefault, e .lambdaSlashWithDefault]

/-- Items of a with statement. -/
def withParts (r : ExprRule) : Peg :=
  sep "," (.choice [plain [e r, opt (.choice [plain [tok "as", e .starTarget]])]])

/-- The alternatives of the mistake rules. -/
def mistakeRules : MistakeRule → List Alt
  | .arguments =>
      [sayingAt [e .args, tok ",", tok "*"] 0
          "iterable argument unpacking follows keyword argument unpacking",
        sayingAt [e .expression, e .forIfClauses, tok ",",
          opt (.choice [one (e .args), plain [e .expression, e .forIfClauses]])] 0
          "Generator expression must be parenthesized",
        sayingAt [name, tok "=", e .expression, e .forIfClauses] 0 equalsMeant,
        .mk [e .args, e .forIfClauses] .bareGenerator,
        sayingAt [e .args, tok ",", e .expression, e .forIfClauses] 2
          "Generator expression must be parenthesized",
        .mk [e .args, tok ",", e .args] .argumentOrder]
  | .kwarg =>
      [.mk [oneOf ["True", "False", "None"], tok "="]
          (.complain "cannot assign to " (.wordOf 0) "" (.item 0)),
        sayingAt [name, tok "=", e .expression, e .forIfClauses] 0 equalsMeant,
        sayingAt [deny (.choice [plain [name, tok "="]]), e .expression, tok "="] 1
          "expression cannot contain assignment, perhaps you meant \"==\"?"]
  | .legacyExpression => [.mk [name, deny (tok "("), e .starExpressions] .legacyCall]
  | .expression =>
      [.mk [deny (.choice [plain [name, .kind .string], one .anySoft]), e .disjunction,
          .quiet (.expr .expressionQuiet)] .missingComma,
        sayingAt [e .disjunction, tok "if", e .disjunction, deny (oneOf ["else", ":"])] 0
          "expected 'else' after 'if' expression"]
  | .namedExpression =>
      [.mk [e .expression, tok ":=", e .expression]
          (.complain "cannot use assignment expressions with " (.kindOf 0) "" (.item 0)),
        sayingAt [name, tok "=", e .bitwiseOr, deny (oneOf ["=", ":="])] 0 equalsMeant,
        .mk [deny (anyOf [e .list, e .tuple, e .genexp, tok "True", tok "None", tok "False"]),
          e .bitwiseOr, tok "=", e .bitwiseOr, deny (oneOf ["=", ":="])]
          (.complain "cannot assign to " (.kindOf 1)
            " here. Maybe you meant '==' instead of '='?" (.item 1))]
  | .assignment =>
      [.mk [.mistake .hintTarget, tok ":", e .expression]
          (.complain "only single target (not " (.kindOf 0) ") can be annotated" (.item 0)),
        sayingAt [e .starNamedExpression, tok ",", many (e .starNamedExpressions), tok ":",
          e .expression] 0 "only single target (not tuple) can be annotated",
        sayingAt [e .expression, tok ":", e .expression] 0 "illegal target for annotation",
        .mk [many (.choice [plain [e .starTargets, tok "="]]), e .starExpressions, tok "="]
          (.badTarget .assigned 1),
        sayingAt [many (.choice [plain [e .starTargets, tok "="]]), e .yieldExpr, tok "="] 1
          "assignment to yield expression not possible",
        .mk [e .starExpressions, s .augassign, assigned]
          (.complain "'" (.kindOf 0) "' is an illegal expression for augmented assignment"
            (.item 0))]
  | .hintTarget =>
      [one (e .list), one (e .tuple), .mk [tok "(", .mistake .hintTarget, tok ")"] (.pick 1)]
  | .delStmt => [.mk [tok "del", e .starExpressions] (.badTarget .deleted 1)]
  | .block => [saying [newline, deny indent] "expected an indented block"]
  | .comprehension =>
      [sayingAt [oneOf ["[", "(", "\x7b"], e .starredExpression, e .forIfClauses] 1
          "iterable unpacking cannot be used in comprehension",
        sayingAt [oneOf ["[", "\x7b"], e .starNamedExpression, tok ",", e .starNamedExpressions,
          e .forIfClauses] 1 "did you forget parentheses around the comprehension target?",
        sayingAt [oneOf ["[", "\x7b"], e .starNamedExpression, tok ",", e .forIfClauses] 1
          "did you forget parentheses around the comprehension target?"]
  | .dictComprehension =>
      [sayingAt [tok "\x7b", tok "**", e .bitwiseOr, e .forIfClauses, tok "\x7d"] 1
        "dict unpacking cannot be used in dict comprehension"]
  | .parameters =>
      [sayingAt [many (s .paramNoDefault), .mistake .parametersHelper, s .paramNoDefault] 2
          "non-default argument follows default argument",
        sayingAt [many (s .paramNoDefault), tok "(", many1 (s .paramNoDefault), opt (tok ","),
          tok ")"] 1 "Function parameters cannot be parenthesized",
        sayingAt [tok "/", tok ","] 0 "at least one argument must precede /",
        sayingAt [beforeSlash, many (s .paramMaybeDefault), tok "/"] 2 "/ may appear only once",
        sayingAt [opt beforeSlash, many (s .paramMaybeDefault), tok "*",
          anyOf [tok ",", s .paramNoDefault], many (s .paramMaybeDefault), tok "/"] 5
          "/ must be ahead of *",
        sayingAt [many1 (s .paramMaybeDefault), tok "/", tok "*"] 2
          "expected comma between / and *"]
  | .parametersHelper => [one (s .slashWithDefault), one (many1 (s .paramWithDefault))]
  | .default =>
      [sayingAt [tok "=", ahead (oneOf [")", ","])] 0 "expected default value expression"]
  | .starEtc =>
      [sayingAt [tok "*", .choice [one (tok ")"), plain [tok ",", oneOf [")", "**"]]]] 0
          "named arguments must follow bare *",
        sayingAt [tok "*", s .param, tok "="] 2 "var-positional argument cannot have default value",
        sayingAt [tok "*", anyOf [s .paramNoDefault, tok ","], many (s .paramMaybeDefault), tok "*",
          anyOf [s .paramNoDefault, tok ","]] 3 "* argument may appear only once"]
  | .kwds =>
      [sayingAt [tok "**", s .param, tok "="] 2 "var-keyword argument cannot have default value",
        sayingAt [tok "**", s .param, tok ",", s .param] 3
          "arguments cannot follow var-keyword argument",
        sayingAt [tok "**", s .param, tok ",", oneOf ["*", "**", "/"]] 3
          "arguments cannot follow var-keyword argument"]
  | .lambdaParameters =>
      [sayingAt [many (e .lambdaParamNoDefault), .mistake .lambdaParametersHelper,
          e .lambdaParamNoDefault] 2 "non-default argument follows default argument",
        sayingAt [many (e .lambdaParamNoDefault), tok "(", sep "," (e .lambdaParam), opt (tok ","),
          tok ")"] 1 "Lambda expression parameters cannot be parenthesized",
        sayingAt [tok "/", tok ","] 0 "at least one argument must precede /",
        sayingAt [beforeLambdaSlash, many (e .lambdaParamMaybeDefault), tok "/"] 2
          "/ may appear only once",
        sayingAt [opt beforeLambdaSlash, many (e .lambdaParamMaybeDefault), tok "*",
          anyOf [tok ",", e .lambdaParamNoDefault], many (e .lambdaParamMaybeDefault), tok "/"] 5
          "/ must be ahead of *",
        sayingAt [many1 (e .lambdaParamMaybeDefault), tok "/", tok "*"] 2
          "expected comma between / and *"]
  | .lambdaParametersHelper =>
      [one (e .lambdaSlashWithDefault), one (many1 (e .lambdaParamWithDefault))]
  | .lambdaStarEtc =>
      [saying [tok "*", .choice [one (tok ":"), plain [tok ",", oneOf [":", "**"]]]]
          "named arguments must follow bare *",
        sayingAt [tok "*", e .lambdaParam, tok "="] 2
          "var-positional argument cannot have default value",
        sayingAt [tok "*", anyOf [e .lambdaParamNoDefault, tok ","],
          many (e .lambdaParamMaybeDefault), tok "*", anyOf [e .lambdaParamNoDefault, tok ","]] 3
          "* argument may appear only once"]
  | .lambdaKwds =>
      [sayingAt [tok "**", e .lambdaParam, tok "="] 2
          "var-keyword argument cannot have default value",
        sayingAt [tok "**", e .lambdaParam, tok ",", e .lambdaParam] 3
          "arguments cannot follow var-keyword argument",
        sayingAt [tok "**", e .lambdaParam, tok ",", oneOf ["*", "**", "/"]] 3
          "arguments cannot follow var-keyword argument"]
  | .withItem =>
      [.mk [e .expression, tok "as", e .expression, ahead (oneOf [",", ")", ":"])]
        (.badTarget .assigned 2)]
  | .forTarget => [.mk [opt async, tok "for", e .starExpressions] (.badTarget .looped 2)]
  | .group =>
      [sayingAt [tok "(", e .starredExpression, tok ")"] 1 "cannot use starred expression here",
        sayingAt [tok "(", tok "**", e .expression, tok ")"] 1
          "cannot use double starred expression here"]
  | .importFromTargets =>
      [saying [s .importFromAsNames, tok ",", newline]
        "trailing comma not allowed without surrounding parentheses"]
  | .withStmt =>
      [saying [opt async, tok "with", withParts .expression, newline] colonExpected,
        saying [opt async, tok "with", tok "(", withParts .expressions, opt (tok ","), tok ")",
          newline] colonExpected]
  | .withStmtIndent =>
      [noBlock [opt async, tok "with", withParts .expression, tok ":"] 1 "'with' statement",
        noBlock [opt async, tok "with", tok "(", withParts .expressions, opt (tok ","), tok ")",
          tok ":"] 1 "'with' statement"]
  | .tryStmt =>
      [noBlock [tok "try", tok ":"] 0 "'try' statement",
        saying [tok "try", tok ":", s .block, deny (oneOf ["except", "finally"])]
          "expected 'except' or 'finally' block",
        saying [tok "try", tok ":", many (s .block),
          .choice [plain [many1 (s .exceptBlock), s .exceptStarBlock],
            plain [many1 (s .exceptStarBlock), s .exceptBlock]], many (s .block)]
          "cannot have both 'except' and 'except*' on the same 'try'"]
  | .exceptStmt =>
      [sayingAt [tok "except", opt (tok "*"), e .expression, tok ",", e .expressions, asName,
          tok ":"] 2 "multiple exception types must be parenthesized",
        saying [tok "except", opt (tok "*"), e .expression, asName, newline] colonExpected,
        saying [tok "except", newline] colonExpected,
        saying [tok "except", tok "*", anyOf [newline, tok ":"]]
          "expected one or more exception types"]
  | .finallyStmt => [noBlock [tok "finally", tok ":"] 0 "'finally' statement"]
  | .exceptStmtIndent =>
      [noBlock [tok "except", e .expression, asName, tok ":"] 0 "'except' statement",
        noBlock [tok "except", tok ":"] 0 "'except' statement"]
  | .exceptStarStmtIndent =>
      [noBlock [tok "except", tok "*", e .expression, asName, tok ":"] 0 "'except*' statement"]
  | .matchStmt =>
      [saying [soft "match", m .subjectExpr, newline] colonExpected,
        noBlock [soft "match", m .subjectExpr, tok ":"] 0 "'match' statement"]
  | .caseBlock =>
      [saying [soft "case", m .patterns, opt (m .guard), newline] colonExpected,
        noBlock [soft "case", m .patterns, opt (m .guard), tok ":"] 0 "'case' statement"]
  | .asPattern =>
      [sayingAt [m .orPattern, tok "as", soft "_"] 2 "cannot use '_' as a target",
        sayingAt [m .orPattern, tok "as", deny name, e .expression] 3 "invalid pattern target"]
  | .classPattern =>
      [sayingAt [m .nameOrAttr, tok "(", .mistake .classArgumentPattern] 2
        "positional patterns follow keyword patterns"]
  | .classArgumentPattern =>
      [.mk [opt (.choice [plain [m .positionalPatterns, tok ","]]), m .keywordPatterns, tok ",",
          ahead (m .pattern), m .positionalPatterns] (.pick 3)]
  | .ifStmt =>
      [saying [tok "if", e .namedExpression, newline] colonExpected,
        noBlock [tok "if", e .namedExpression, tok ":"] 0 "'if' statement"]
  | .elifStmt =>
      [saying [tok "elif", e .namedExpression, newline] colonExpected,
        noBlock [tok "elif", e .namedExpression, tok ":"] 0 "'elif' statement"]
  | .elseStmt => [noBlock [tok "else", tok ":"] 0 "'else' statement"]
  | .whileStmt =>
      [saying [tok "while", e .namedExpression, newline] colonExpected,
        noBlock [tok "while", e .namedExpression, tok ":"] 0 "'while' statement"]
  | .forStmt =>
      [noBlock [opt async, tok "for", e .starTargets, tok "in", e .starExpressions, tok ":"] 1
        "'for' statement"]
  | .defRaw =>
      [noBlock [opt async, tok "def", name, tok "(", opt (s .params), tok ")",
        opt (.choice [plain [tok "->", e .expression]]), tok ":"] 1 "function definition"]
  | .classDefRaw =>
      [saying [tok "class", name, opt (.choice [plain [tok "(", opt (e .arguments), tok ")"]]),
          newline] colonExpected,
        noBlock [tok "class", name, opt (.choice [plain [tok "(", opt (e .arguments), tok ")"]]),
          tok ":"] 0 "class definition"]
  | .doubleStarredPairs =>
      [.mk [sep "," (e .doubleStarredPair), tok ",", .mistake .pair] (.pick 2),
        sayingAt [e .expression, tok ":", tok "*", e .bitwiseOr] 2
          "cannot use a starred expression in a dictionary value",
        sayingAt [e .expression, tok ":", ahead (oneOf ["\x7d", ","])] 1
          "expression expected after dictionary key and ':'"]
  | .pair =>
      [sayingAt [e .expression, deny (tok ":")] 0 "':' expected after dictionary key",
        sayingAt [e .expression, tok ":", tok "*", e .bitwiseOr] 2
          "cannot use a starred expression in a dictionary value",
        sayingAt [e .expression, tok ":", ahead (oneOf ["\x7d", ","])] 1
          "expression expected after dictionary key and ':'"]

end DocPress.Docstring.Grammar
