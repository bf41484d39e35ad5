import DocPress.Docstring.Scan
import DocPress.Javadoc.Scan
import DocPress.Text.Case

/-!
# Scanners

A scanner documents the units of one language.  A blank unit and a unit in
another language have no documentation, which is no failure.
-/

namespace DocPress

/-- A scan for the units of one language. -/
structure Scanner where
  /-- The name under which error reports mention the scanner. -/
  title : Text
  language : Text
  run : SourceUnit → Except ScanFailure FileDoc

namespace Scanner

/-- Whether a unit is in the language of a scanner. -/
def supports (s : Scanner) (u : SourceUnit) : Bool := Text.lower u.language == s.language

/-- The documentation of a unit, if it holds something in the language. -/
def scan (s : Scanner) (u : SourceUnit) : Except ScanFailure (Option FileDoc) :=
  if u.isBlank then .ok none
  else if s.supports u then do return some (← s.run u)
  else .ok none

/-- The scanner for Java units. -/
def java : Scanner := ⟨"JavaScanner".toList, Javadoc.language, fun u => .ok (Javadoc.scan u)⟩

/-- The scanner for Python units. -/
def python (data : Docstring.CharacterData) : Scanner :=
  ⟨"PythonScanner".toList, Docstring.language, Docstring.scan data⟩

end Scanner
end DocPress
