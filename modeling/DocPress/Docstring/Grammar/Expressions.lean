import DocPress.Docstring.Grammar.Statements

/-!
# The grammar of expressions

Expressions are kept whole, since type texts are written from them.  Chains of
operators and trailers are read by repetition and joined from the left.
-/

namespace DocPress.Docstring.Grammar

open Peg

/-- A step of a chain of binary operators. -/
def binaryStep (operators : List String) (operand : ExprRule) : Peg :=
  many (.choice (operators.map fun o => .mk [tok o, e operand] (.make .binary [0, 1])))

/-- A chain of binary operators. -/
def binaryChain (operators : List String) (operand : ExprRule) : List Alt :=
  [.mk [e operand, binaryStep operators operand] .chain]

/-- Items with commas between them and perhaps one at the end. -/
def listed (p : Peg) : List Peg := [sep "," p, opt (tok ",")]

/-- A tuple without brackets, or a single item. -/
def bareTuple (r : ExprRule) : List Alt :=
  [.mk [e r, many1 (.choice [.mk [tok ",", e r] (.pick 1)]), opt (tok ",")] (.make .tuple [0, 1]),
    .mk [e r, tok ","] (.make .tuple [0]),
    one (e r)]

/-- An argument of a call that is neither starred nor named. -/
def plainArgument : Peg :=
  .choice [one (e .assignmentExpression), .mk [e .expression, deny (tok ":=")] (.pick 0)]

/-- The trailers of a primary; `ends` is put after each. -/
def trailers (ends : List Peg) : Peg :=
  many (.choice
    [.mk ([tok ".", name] ++ ends) (.make .member [1]),
      .mk ([e .genexp] ++ ends) (.make .call [0]),
      .mk ([tok "(", opt (e .arguments), tok ")"] ++ ends) (.make .call [1]),
      .mk ([tok "[", e .slices, tok "]"] ++ ends) (.make .subscript [1])])

/-- The trailers of a target, tried in another order. -/
def targetTrailers (ends : List Peg) : Peg :=
  many (.choice
    [.mk ([tok ".", name] ++ ends) (.make .member [1]),
      .mk ([tok "[", e .slices, tok "]"] ++ ends) (.make .subscript [1]),
      .mk ([e .genexp] ++ ends) (.make .call [0]),
      .mk ([tok "(", opt (e .arguments), tok ")"] ++ ends) (.make .call [1])])

/-- Attribute and subscript targets. -/
def memberTargets : List Alt :=
  [.mk [e .targetPrimary, tok ".", name, deny (e .targetAhead)] (.make .member [0, 2]),
    .mk [e .targetPrimary, tok "[", e .slices, tok "]", deny (e .targetAhead)]
      (.make .subscript [0, 2])]

/-- The alternatives of the expression rules. -/
def expressionRules : ExprRule → List Alt
  | .expressions => bareTuple .expression
  | .expression =>
      [one (.mistake .expression), one (.mistake .legacyExpression),
        .mk [e .disjunction, tok "if", e .disjunction, tok "else", e .expression]
          (.make .conditional [0, 2, 4]),
        one (e .disjunction), one (e .lambdef)]
  | .expressionQuiet =>
      [.mk [e .disjunction, tok "if", e .disjunction, tok "else", e .expression]
          (.make .conditional [0, 2, 4]),
        one (e .disjunction), one (e .lambdef)]
  | .yieldExpr =>
      [.mk [tok "yield", tok "from", e .expression] (.make .yieldFrom [2]),
        .mk [tok "yield", opt (e .starExpressions)] (.make .yield [1])]
  | .starExpressions => bareTuple .starExpression
  | .starExpression => [.mk [tok "*", e .bitwiseOr] (.make .starred [1]), one (e .expression)]
  | .starNamedExpressions => [.mk (listed (e .starNamedExpression)) (.pick 0)]
  | .starNamedExpression =>
      [.mk [tok "*", e .bitwiseOr] (.make .starred [1]), one (e .namedExpression)]
  | .assignmentExpression => [.mk [name, tok ":=", commit, e .expression] (.make .named [0, 3])]
  | .namedExpression =>
      [one (e .assignmentExpression), one (.mistake .namedExpression),
        .mk [e .expression, deny (tok ":=")] (.pick 0)]
  | .disjunction =>
      [.mk [e .conjunction, many1 (.choice [.mk [tok "or", e .conjunction] (.pick 1)])]
          (.make .boolOr [0, 1]),
        one (e .conjunction)]
  | .conjunction =>
      [.mk [e .inversion, many1 (.choice [.mk [tok "and", e .inversion] (.pick 1)])]
          (.make .boolAnd [0, 1]),
        one (e .inversion)]
  | .inversion => [.mk [tok "not", e .inversion] (.make .unary [0, 1]), one (e .comparison)]
  | .comparison =>
      [.mk [e .bitwiseOr, many1 (e .comparisonStep)] (.make .compare [0, 1]), one (e .bitwiseOr)]
  | .comparisonStep =>
      [.mk [tok "==", e .bitwiseOr] (.make .comparison [1, 0]),
        .mk [tok "!=", e .bitwiseOr] (.make .comparison [1, 0]),
        .mk [tok "<=", e .bitwiseOr] (.make .comparison [1, 0]),
        .mk [tok "<", e .bitwiseOr] (.make .comparison [1, 0]),
        .mk [tok ">=", e .bitwiseOr] (.make .comparison [1, 0]),
        .mk [tok ">", e .bitwiseOr] (.make .comparison [1, 0]),
        .mk [tok "not", tok "in", e .bitwiseOr] (.make .comparison [2, 0, 1]),
        .mk [tok "in", e .bitwiseOr] (.make .comparison [1, 0]),
        .mk [tok "is", tok "not", e .bitwiseOr] (.make .comparison [2, 0, 1]),
        .mk [tok "is", e .bitwiseOr] (.make .comparison [1, 0])]
  | .bitwiseOr => binaryChain ["|"] .bitwiseXor
  | .bitwiseXor => binaryChain ["^"] .bitwiseAnd
  | .bitwiseAnd => binaryChain ["&"] .shiftExpr
  | .shiftExpr => binaryChain ["<<", ">>"] .sum
  | .sum => binaryChain ["+", "-"] .term
  | .term => binaryChain ["*", "/", "//", "%", "@"] .factor
  | .factor =>
      [.mk [tok "+", e .factor] (.make .unary [0, 1]),
        .mk [tok "-", e .factor] (.make .unary [0, 1]),
        .mk [tok "~", e .factor] (.make .unary [0, 1]), one (e .power)]
  | .power =>
      [.mk [e .awaitPrimary, tok "**", e .factor] (.make .binary [0, 1, 2]), one (e .awaitPrimary)]
  | .awaitPrimary => [.mk [.kind .await, e .primary] (.make .await [1]), one (e .primary)]
  | .primary => [.mk [e .atom, trailers []] .chain]
  | .slices =>
      [.mk [e .slice, deny (tok ",")] (.pick 0),
        .mk (listed (anyOf [e .slice, e .starredExpression])) (.make .tuple [0])]
  | .slice =>
      [.mk [opt (e .expression), tok ":", opt (e .expression),
          opt (.choice [.mk [tok ":", opt (e .expression)] (.pick 1)])] (.make .slice [0, 2, 3]),
        one (e .namedExpression)]
  | .atom =>
      [one name,
        .mk [tok "True"] (.make .constant [0]),
        .mk [tok "False"] (.make .constant [0]),
        .mk [tok "None"] (.make .constant [0]),
        .mk [ahead (.kind .string), e .strings] (.pick 1),
        .mk [.kind .number] (.make .number [0]),
        .mk [ahead (tok "("), anyOf [e .tuple, e .group, e .genexp]] (.pick 1),
        .mk [ahead (tok "["), anyOf [e .list, e .listcomp]] (.pick 1),
        .mk [ahead (tok "\x7b"), anyOf [e .dict, e .set, e .dictcomp, e .setcomp]] (.pick 1),
        .mk [tok "..."] (.make .ellipsis [])]
  | .group =>
      [.mk [tok "(", anyOf [e .yieldExpr, e .namedExpression], tok ")"] (.pick 1),
        one (.mistake .group)]
  | .lambdef =>
      [.mk [tok "lambda", opt (e .lambdaParams), tok ":", e .expression] (.make .lambda [1, 3])]
  | .lambdaParams => [one (.mistake .lambdaParameters), one (e .lambdaParameters)]
  | .lambdaParameters =>
      [.mk [e .lambdaSlashNoDefault, many (e .lambdaParamNoDefault),
          many (e .lambdaParamWithDefault), opt (e .lambdaStarEtc)] (.gather [0, 1, 2, 3]),
        .mk [e .lambdaSlashWithDefault, many (e .lambdaParamWithDefault), opt (e .lambdaStarEtc)]
          (.gather [0, 1, 2]),
        .mk [many1 (e .lambdaParamNoDefault), many (e .lambdaParamWithDefault),
          opt (e .lambdaStarEtc)] (.gather [0, 1, 2]),
        .mk [many1 (e .lambdaParamWithDefault), opt (e .lambdaStarEtc)] (.gather [0, 1]),
        .mk [e .lambdaStarEtc] (.gather [0])]
  | .lambdaSlashNoDefault =>
      [.mk [many1 (e .lambdaParamNoDefault), lambdaSlash, tok ","] (.gather [0, 1]),
        .mk [many1 (e .lambdaParamNoDefault), lambdaSlash, ahead (tok ":")] (.gather [0, 1])]
  | .lambdaSlashWithDefault =>
      [.mk [many (e .lambdaParamNoDefault), many1 (e .lambdaParamWithDefault), lambdaSlash, tok ","]
          (.gather [0, 1, 2]),
        .mk [many (e .lambdaParamNoDefault), many1 (e .lambdaParamWithDefault), lambdaSlash,
          ahead (tok ":")] (.gather [0, 1, 2])]
  | .lambdaStarEtc =>
      [one (.mistake .lambdaStarEtc),
        .mk [.choice [.mk [tok "*", e .lambdaParamNoDefault] (.make .star [1])],
          many (e .lambdaParamMaybeDefault), opt (e .lambdaKwds)] (.gather [0, 1, 2]),
        .mk [.choice [.mk [tok "*", tok ","] (.make .star [])],
          many1 (e .lambdaParamMaybeDefault), opt (e .lambdaKwds)] (.gather [0, 1, 2]),
        one (e .lambdaKwds)]
  | .lambdaKwds =>
      [one (.mistake .lambdaKwds),
        .mk [tok "**", e .lambdaParamNoDefault] (.make .doubleStar [1])]
  | .lambdaParamNoDefault =>
      [.mk [e .lambdaParam, tok ","] (.make .param [0]),
        .mk [e .lambdaParam, ahead (tok ":")] (.make .param [0])]
  | .lambdaParamWithDefault =>
      [.mk [e .lambdaParam, s .default, tok ","] (.make .param [0, 1]),
        .mk [e .lambdaParam, s .default, ahead (tok ":")] (.make .param [0, 1])]
  | .lambdaParamMaybeDefault =>
      [.mk [e .lambdaParam, opt (s .default), tok ","] (.make .param [0, 1]),
        .mk [e .lambdaParam, opt (s .default), ahead (tok ":")] (.make .param [0, 1])]
  | .lambdaParam => [one name]
  | .strings => [.mk [many1 (.kind .string)] .strings]
  | .list => [.mk [tok "[", opt (e .starNamedExpressions), tok "]"] (.make .list [1])]
  | .tuple =>
      [.mk [tok "(", opt (.choice [.mk [e .starNamedExpression, tok ",",
          opt (e .starNamedExpressions)] (.gather [0, 2])]), tok ")"] (.make .tuple [1])]
  | .set => [.mk [tok "\x7b", e .starNamedExpressions, tok "\x7d"] (.make .set [1])]
  | .dict =>
      [.mk [tok "\x7b", opt (e .doubleStarredPairs), tok "\x7d"] (.make .dict [1]),
        .mk [tok "\x7b", .mistake .doubleStarredPairs, tok "\x7d"] (.pick 1)]
  | .doubleStarredPairs => [.mk (listed (e .doubleStarredPair)) (.pick 0)]
  | .doubleStarredPair => [.mk [tok "**", e .bitwiseOr] (.make .unpackPair [1]), one (e .pair)]
  | .pair => [.mk [e .expression, tok ":", e .expression] (.make .pair [0, 2])]
  | .forIfClauses => [one (many1 (e .forIfClause))]
  | .forIfClause =>
      [.mk [async, tok "for", e .starTargets, tok "in", commit, e .disjunction,
          many (.choice [.mk [tok "if", e .disjunction] (.pick 1)])]
          (.make .asyncClause [2, 5, 6]),
        .mk [tok "for", e .starTargets, tok "in", commit, e .disjunction,
          many (.choice [.mk [tok "if", e .disjunction] (.pick 1)])] (.make .clause [1, 4, 5]),
        one (.mistake .forTarget)]
  | .listcomp =>
      [.mk [tok "[", e .namedExpression, e .forIfClauses, tok "]"] (.make .listComp [1, 2]),
        one (.mistake .comprehension)]
  | .setcomp =>
      [.mk [tok "\x7b", e .namedExpression, e .forIfClauses, tok "\x7d"] (.make .setComp [1, 2]),
        one (.mistake .comprehension)]
  | .genexp =>
      [.mk [tok "(", plainArgument, e .forIfClauses, tok ")"] (.make .generator [1, 2]),
        one (.mistake .comprehension)]
  | .dictcomp =>
      [.mk [tok "\x7b", e .pair, e .forIfClauses, tok "\x7d"] (.make .dictComp [1, 2]),
        one (.mistake .dictComprehension)]
  | .arguments =>
      [.mk [e .args, opt (tok ","), ahead (tok ")")] (.pick 0), one (.mistake .arguments)]
  | .args =>
      [.mk [sep "," (.choice [one (e .starredExpression),
            .mk [plainArgument, deny (tok "=")] (.pick 0)]),
          opt (.choice [.mk [tok ",", e .kwargs] (.pick 1)])] (.make .arguments [0, 1]),
        .mk [e .kwargs] (.make .arguments [0])]
  | .kwargs =>
      [.mk [sep "," (e .kwargOrStarred), tok ",", sep "," (e .kwargOrDoubleStarred)]
          (.gather [0, 2]),
        one (sep "," (e .kwargOrStarred)),
        one (sep "," (e .kwargOrDoubleStarred))]
  | .starredExpression => [.mk [tok "*", e .expression] (.make .starred [1])]
  | .kwargOrStarred =>
      [one (.mistake .kwarg),
        .mk [name, tok "=", e .expression] (.make .keywordArg [0, 2]),
        one (e .starredExpression)]
  | .kwargOrDoubleStarred =>
      [one (.mistake .kwarg),
        .mk [name, tok "=", e .expression] (.make .keywordArg [0, 2]),
        .mk [tok "**", e .expression] (.make .unpackArg [1])]
  | .starTargets =>
      [.mk [e .starTarget, deny (tok ",")] (.pick 0),
        .mk [e .starTarget, many (.choice [.mk [tok ",", e .starTarget] (.pick 1)]), opt (tok ",")]
          (.make .tuple [0, 1])]
  | .starTargetsListSeq => [.mk (listed (e .starTarget)) (.pick 0)]
  | .starTargetsTupleSeq =>
      [.mk [e .starTarget, many1 (.choice [.mk [tok ",", e .starTarget] (.pick 1)]), opt (tok ",")]
          (.gather [0, 1]),
        .mk [e .starTarget, tok ","] (.gather [0])]
  | .starTarget =>
      [.mk [tok "*", .choice [.mk [deny (tok "*"), e .starTarget] (.pick 1)]] (.make .starred [1]),
        one (e .targetWithStarAtom)]
  | .targetWithStarAtom => memberTargets ++ [one (e .starAtom)]
  | .starAtom =>
      [one name,
        .mk [tok "(", e .targetWithStarAtom, tok ")"] (.pick 1),
        .mk [tok "(", opt (e .starTargetsTupleSeq), tok ")"] (.make .tuple [1]),
        .mk [tok "[", opt (e .starTargetsListSeq), tok "]"] (.make .list [1])]
  | .singleTarget =>
      [one (e .singleSubscriptAttributeTarget), one name,
        .mk [tok "(", e .singleTarget, tok ")"] (.pick 1)]
  | .singleSubscriptAttributeTarget => memberTargets
  | .targetPrimary =>
      [.mk [.choice [.mk [e .atom, ahead (e .targetAhead)] (.pick 0)],
        targetTrailers [ahead (e .targetAhead)]] .chain]
  | .targetAhead => [one (oneOf ["(", "[", "."])]
  | .delTargets => [.mk (listed (e .delTarget)) (.pick 0)]
  | .delTarget => memberTargets ++ [one (e .delTargetAtom)]
  | .delTargetAtom =>
      [one name,
        .mk [tok "(", e .delTarget, tok ")"] (.pick 1),
        .mk [tok "(", opt (e .delTargets), tok ")"] (.make .tuple [1]),
        .mk [tok "[", opt (e .delTargets), tok "]"] (.make .list [1])]
where
  /-- The mark after positional parameters. -/
  lambdaSlash : Peg := .choice [.mk [tok "/"] (.make .slash [])]

end DocPress.Docstring.Grammar
