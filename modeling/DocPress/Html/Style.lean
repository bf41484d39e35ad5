import DocPress.Text.Basic

/-!
# The stylesheet

The style that all pages share unless a project brings its own.
-/

namespace DocPress.Html

/-- The lines of the stylesheet. -/
def styleLines : List String :=
  ["body \x7b",
    "  font-family: -apple-system, \"Segoe UI\", Helvetica, Arial, sans-serif;",
    "  margin: 0 auto;",
    "  max-width: 960px;",
    "  padding: 1.5rem;",
    "  color: #24292f;",
    "\x7d",
    "",
    "nav \x7b",
    "  font-size: 0.9rem;",
    "  margin-bottom: 1rem;",
    "\x7d",
    "",
    "table \x7b",
    "  border-collapse: collapse;",
    "  width: 100%;",
    "  margin-bottom: 1rem;",
    "\x7d",
    "",
    "th,",
    "td \x7b",
    "  border: 1px solid #d0d7de;",
    "  padding: 0.4rem 0.6rem;",
    "  text-align: left;",
    "  vertical-align: top;",
    "\x7d",
    "",
    ".description \x7b",
    "  white-space: pre-line;",
    "\x7d",
    "",
    ".kind \x7b",
    "  font-size: 0.75rem;",
    "  text-transform: uppercase;",
    "  color: #57606a;",
    "\x7d",
    "",
    ".signature \x7b",
    "  background: #f6f8fa;",
    "  padding: 0.5rem;",
    "  overflow-x: auto;",
    "\x7d",
    "",
    ".tag-name \x7b",
    "  font-weight: bold;",
    "\x7d",
    "",
    ".parameters dt \x7b",
    "  font-family: monospace;",
    "  font-weight: bold;",
    "\x7d",
    "",
    ".empty,",
    ".path,",
    ".summary \x7b",
    "  color: #57606a;",
    "\x7d"]

/-- The text of the stylesheet. -/
def style : Text := styleLines.flatMap fun line => line.toList ++ ['\n']

end DocPress.Html
