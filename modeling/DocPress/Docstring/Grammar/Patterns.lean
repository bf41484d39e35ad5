import DocPress.Docstring.Grammar.Statements

/-!
# The grammar of match statements

Nothing of a match statement is kept; its rules only decide whether the text
is well formed.
-/

namespace DocPress.Docstring.Grammar

open Peg

/-- The alternatives of the pattern rules. -/
def patternRules : PatternRule → List Alt
  | .matchStmt =>
      [plain [soft "match", m .subjectExpr, tok ":", newline, indent, many1 (m .caseBlock), dedent],
        one (.mistake .matchStmt)]
  | .subjectExpr =>
      [plain [e .starNamedExpression, tok ",", opt (e .starNamedExpressions)],
        one (e .namedExpression)]
  | .caseBlock =>
      [one (.mistake .caseBlock),
        plain [soft "case", m .patterns, opt (m .guard), tok ":", s .block]]
  | .guard => [plain [tok "if", e .namedExpression]]
  | .patterns => [one (m .openSequencePattern), one (m .pattern)]
  | .pattern => [one (m .asPattern), one (m .orPattern)]
  | .asPattern =>
      [plain [m .orPattern, tok "as", m .captureTarget], one (.mistake .asPattern)]
  | .orPattern => [plain [sep "|" (m .closedPattern)]]
  | .closedPattern =>
      [one (m .literalPattern), one (m .capturePattern), one (m .wildcardPattern),
        one (m .valuePattern), one (m .groupPattern), one (m .sequencePattern),
        one (m .mappingPattern), one (m .classPattern)]
  | .literalPattern =>
      [plain [m .signedNumber, deny (oneOf ["+", "-"])], plain [m .complexNumber],
        plain [e .strings], plain [tok "None"], plain [tok "True"], plain [tok "False"]]
  | .literalExpr =>
      [plain [m .signedNumber, deny (oneOf ["+", "-"])], plain [m .complexNumber],
        plain [e .strings], plain [tok "None"], plain [tok "True"], plain [tok "False"]]
  | .complexNumber =>
      [plain [m .signedRealNumber, tok "+", m .imaginaryNumber],
        plain [m .signedRealNumber, tok "-", m .imaginaryNumber]]
  | .signedNumber => [plain [.kind .number], plain [tok "-", .kind .number]]
  | .signedRealNumber => [plain [m .realNumber], plain [tok "-", m .realNumber]]
  | .realNumber => [.mk [.kind .number] (.numberPart false)]
  | .imaginaryNumber => [.mk [.kind .number] (.numberPart true)]
  | .capturePattern => [plain [m .captureTarget]]
  | .captureTarget => [plain [deny (soft "_"), name, deny (oneOf [".", "(", "="])]]
  | .wildcardPattern => [plain [soft "_"]]
  | .valuePattern => [plain [m .attr, deny (oneOf [".", "(", "="])]]
  | .attr => [plain [name, tok ".", name, many (.choice [plain [tok ".", name]])]]
  | .nameOrAttr => [one (m .attr), one name]
  | .groupPattern => [plain [tok "(", m .pattern, tok ")"]]
  | .sequencePattern =>
      [plain [tok "[", opt (m .maybeSequencePattern), tok "]"],
        plain [tok "(", opt (m .openSequencePattern), tok ")"]]
  | .openSequencePattern =>
      [plain [m .maybeStarPattern, tok ",", opt (m .maybeSequencePattern)]]
  | .maybeSequencePattern => [plain [sep "," (m .maybeStarPattern), opt (tok ",")]]
  | .maybeStarPattern => [one (m .starPattern), one (m .pattern)]
  | .starPattern => [plain [tok "*", m .captureTarget], plain [tok "*", m .wildcardPattern]]
  | .mappingPattern =>
      [plain [tok "\x7b", tok "\x7d"],
        plain [tok "\x7b", m .doubleStarPattern, opt (tok ","), tok "\x7d"],
        plain [tok "\x7b", m .itemsPattern, tok ",", m .doubleStarPattern, opt (tok ","),
          tok "\x7d"],
        plain [tok "\x7b", m .itemsPattern, opt (tok ","), tok "\x7d"]]
  | .itemsPattern => [plain [sep "," (m .keyValuePattern)]]
  | .keyValuePattern => [plain [anyOf [m .literalExpr, m .attr], tok ":", m .pattern]]
  | .doubleStarPattern => [plain [tok "**", m .captureTarget]]
  | .classPattern =>
      [plain [m .nameOrAttr, tok "(", tok ")"],
        plain [m .nameOrAttr, tok "(", m .positionalPatterns, opt (tok ","), tok ")"],
        plain [m .nameOrAttr, tok "(", m .keywordPatterns, opt (tok ","), tok ")"],
        plain [m .nameOrAttr, tok "(", m .positionalPatterns, tok ",", m .keywordPatterns,
          opt (tok ","), tok ")"],
        one (.mistake .classPattern)]
  | .positionalPatterns => [one (sep "," (m .pattern))]
  | .keywordPatterns => [plain [sep "," (m .keywordPattern)]]
  | .keywordPattern => [plain [name, tok "=", m .pattern]]

end DocPress.Docstring.Grammar
