import DocPress.Docstring.Grammar.Mistakes
import DocPress.Docstring.Grammar.Patterns

/-!
# The whole grammar
-/

namespace DocPress.Docstring

/-- The alternatives of a rule, in order of preference. -/
def grammar : Rule → List Alt
  | .stmt r => Grammar.statementRules r
  | .pattern r => Grammar.patternRules r
  | .expr r => Grammar.expressionRules r
  | .mistake r => Grammar.mistakeRules r

end DocPress.Docstring
