import DocPress.Html.Markup
import DocPress.Html.PageName

/-!
# Pages

The index lists all files of a project with their declarations; the page of a
file shows its declarations with their members and documentation.
-/

namespace DocPress.Html

/-- The lines before the body of a page, with the given title. -/
def pageHead (title : Markup) : Markup :=
  [fixed "<!DOCTYPE html>\n<html lang=\"en\">\n<head>\n  <meta charset=\"utf-8\">\n  <title>"]
    ++ title
    ++ [fixed "</title>\n  <link rel=\"stylesheet\" href=\"", .text stylesheetPath,
      fixed "\">\n</head>\n<body>\n"]

/-- The lines after the main part of a page. -/
def pageFoot : Markup := [fixed "  </main>\n</body>\n</html>\n"]

/-- The badge that shows the kind of a declaration. -/
def kindBadge (kind : Text) : Markup :=
  [fixed "<span class=\"kind kind-", .text kind, fixed "\">", .text kind, fixed "</span> "]

/-! ### The page of a file -/

/-- The description and the tags of a block that have no section of their own. -/
def documentation (block : Option Block) : Markup :=
  match block with
  | none => []
  | some b =>
      (if b.description.isEmpty then []
        else [fixed "<div class=\"description\">", .text b.description, fixed "</div>\n"])
        ++ b.otherTags.flatMap fun tag =>
          [fixed "<p class=\"tag\"><span class=\"tag-name\">@", .text tag.1, fixed "</span> ",
            .text tag.2, fixed "</p>\n"]

/-- A row of the table of fields. -/
def fieldRow (f : Field) : Markup :=
  [fixed "          <tr>\n            <td><code>", .text f.typeText,
    fixed "</code></td>\n            <td>", .text f.name, fixed "</td>\n            <td>"]
    ++ documentation f.documentation
    ++ [fixed "</td>\n          </tr>\n"]

/-- The table of fields; without fields there is none. -/
def fieldTable (fields : List Field) : Markup :=
  if fields.isEmpty then []
  else
    [fixed "      <h3>Fields</h3>\n      <table class=\"fields\">\n        <thead><tr><th>Type</th><th>Name</th><th>Description</th></tr></thead>\n        <tbody>\n"]
      ++ fields.flatMap fieldRow
      ++ [fixed "        </tbody>\n      </table>\n"]

/-- The list of parameters; without parameters there is none. -/
def parameterList (parameters : List Parameter) : Markup :=
  if parameters.isEmpty then []
  else
    [fixed "        <h5>Parameters</h5>\n        <dl class=\"parameters\">\n"]
      ++ parameters.flatMap (fun p =>
        [fixed "          <dt>", .text p.name, fixed "</dt>\n          <dd>", .text p.description,
          fixed "</dd>\n"])
      ++ [fixed "        </dl>\n"]

/-- What a method returns; nothing when neither type nor description is known. -/
def returnPart (m : Method) : Markup :=
  let description := m.returnDescription?.getD []
  if m.returnType.isEmpty && description.isEmpty then []
  else
    [fixed "        <h5>Returns</h5>\n        <p class=\"returns\"><code>", .text m.returnType,
      fixed "</code>"]
      ++ (if description.isEmpty then [] else [fixed " ", .text description])
      ++ [fixed "</p>\n"]

/-- The article of a method. -/
def methodArticle (owner : Text) (m : Method) : Markup :=
  [fixed "      <article class=\"method\" id=\"", .text owner, fixed "-", .text m.name,
    fixed "\">\n        <h4>", .text m.name, fixed "</h4>\n        <pre class=\"signature\">",
    .text m.signature, fixed "</pre>\n        "]
    ++ documentation m.documentation
    ++ [fixed "\n"]
    ++ parameterList m.parameters
    ++ returnPart m
    ++ [fixed "      </article>\n"]

/-- The articles of methods; without methods there are none. -/
def methodList (owner : Text) (methods : List Method) : Markup :=
  if methods.isEmpty then []
  else fixed "      <h3>Methods</h3>\n" :: methods.flatMap (methodArticle owner)

/-- The section of a declaration. -/
def typeSection (c : TypeDecl) : Markup :=
  [fixed "    <section class=\"type\" id=\"", .text c.name, fixed "\">\n      <h2>"]
    ++ kindBadge c.kind
    ++ [.text c.name, fixed "</h2>\n      "]
    ++ documentation c.documentation
    ++ [fixed "\n"]
    ++ fieldTable c.fields
    ++ methodList c.name c.methods
    ++ [fixed "    </section>\n"]

/-- The page of a file. -/
def filePage (p : Project) (f : FileDoc) : Markup :=
  pageHead [.text f.name, fixed " - ", .text p.name]
    ++ [fixed "  <nav><a href=\"index.html\">", .text p.name, fixed "</a> / ", .text f.path,
      fixed "</nav>\n  <main>\n    <h1>", .text f.name, fixed "</h1>\n    <p class=\"path\">",
      .text f.path, fixed " (", .text f.language, fixed ")</p>\n"]
    ++ f.classes.flatMap typeSection
    ++ pageFoot

/-! ### The index -/

/-- The declarations of a file, one on a line with commas between them. -/
def typeList : List TypeDecl → Markup
  | [] => []
  | c :: more =>
      fixed "            " :: kindBadge c.kind ++ .text c.name
        :: fixed (if more.isEmpty then "\n" else ",\n") :: typeList more

/-- The row of a file; its path links to its page if there is one. -/
def fileRow (f : FileDoc) (page : Option Text) : Markup :=
  [fixed "        <tr>\n"]
    ++ (match page with
      | some name =>
          [fixed "          <td><a href=\"", .text name, fixed "\">", .text f.path,
            fixed "</a></td>\n"]
      | none => [fixed "          <td>", .text f.path, fixed "</td>\n"])
    ++ [fixed "          <td>", .text f.language, fixed "</td>\n          <td>\n"]
    ++ typeList f.classes
    ++ [fixed "          </td>\n        </tr>\n"]

/-- The table of files. -/
def fileTable (p : Project) : Markup :=
  if p.files.isEmpty then [fixed "    <p class=\"empty\">No documented files.</p>\n"]
  else
    [fixed "    <table class=\"files\">\n      <thead>\n        <tr><th>File</th><th>Language</th><th>Types</th></tr>\n      </thead>\n      <tbody>\n"]
      ++ (p.files.zip (pageNames p.files)).flatMap (fun entry => fileRow entry.1 entry.2)
      ++ [fixed "      </tbody>\n    </table>\n"]

/-- The index of a project. -/
def indexMarkup (p : Project) : Markup :=
  let counts := p.counts
  pageHead [.text p.name]
    ++ [fixed "  <header>\n    <h1>", .text p.name,
      fixed "</h1>\n    <p class=\"summary\">\n      ", .text (Text.ofNat counts.files),
      fixed " file(s), ", .text (Text.ofNat counts.classes), fixed " class(es),\n      ",
      .text (Text.ofNat counts.fields), fixed " field(s), ", .text (Text.ofNat counts.methods),
      fixed " method(s)\n    </p>\n  </header>\n  <main>\n"]
    ++ fileTable p
    ++ pageFoot

/-! ### The pages of a project -/

/-- The pages of files that have one, by name. -/
def filePages (p : Project) : List (Text × Markup) :=
  (p.files.zip (pageNames p.files)).filterMap fun entry =>
    entry.2.map fun name => (name, filePage p entry.1)

/-- All pages of a project by name, the index first. -/
def pages (p : Project) : List (Text × Markup) := (indexPage, indexMarkup p) :: filePages p

/-- All pages of a project by name, as text. -/
def renderPages (p : Project) : List (Text × Text) := (pages p).map fun e => (e.1, e.2.render)

end DocPress.Html
