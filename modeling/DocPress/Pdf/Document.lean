import DocPress.Decimal.Fixed
import DocPress.Pdf.Layout
import DocPress.Text.Utf8

/-!
# Printed documents

A document is its paper, its font size and its pages.  Its file is a list of
numbered objects, a table of their places, and a trailer.
-/

namespace DocPress.Pdf

/-- A document whose lines are set. -/
structure Document where
  paper : Paper
  fontSize : Float
  pages : List (List PlacedLine)

namespace Document

/-- The document of a project. -/
def ofProject (t : Typesetter) (s : Settings) (p : Project) : Document :=
  ⟨t.paper s.pageSize, s.fontSize, Pdf.pages t s p⟩

/-! ### The file of a document -/

/-- The code of a character in the fonts of a document; one without a code is
shown as a question mark. -/
def code (c : Char) : Nat := if c.toNat < 256 then c.toNat else '?'.toNat

/-- A text between angle brackets, by the codes of its characters. -/
def codes (t : Text) : Text := '<' :: t.flatMap (fun c => Text.hex 2 (code c)) ++ ['>']

/-- Words with spaces between them. -/
def spaced (words : List Text) : Text := Text.join [' '] words

/-- The drawing of one line; heights are counted from the lower edge. -/
def drawing (d : Document) (l : PlacedLine) : Text :=
  spaced ["BT".toList, '/' :: l.font.name, Decimal.fixed 3 d.fontSize, "Tf 1 0 0 1".toList,
    Decimal.fixed 3 l.x, Decimal.fixed 3 (Float.ofInt d.paper.height - l.y), "Tm".toList,
    codes l.text, "Tj ET\n".toList]

/-- A reference to a numbered object. -/
def reference (n : Nat) : Text := Text.ofNat n ++ " 0 R".toList

/-- A dictionary of an object. -/
def dictionary (entries : List Text) : Text :=
  "<< ".toList ++ spaced entries ++ " >>".toList

/-- The object of a font. -/
def fontObject (base : String) : Text :=
  dictionary ["/Type /Font /Subtype /Type1 /Encoding /WinAnsiEncoding".toList,
    "/BaseFont /".toList ++ base.toList]

/-- The numbers of the objects of a page: the page and its drawing. -/
def pageNumber (i : Nat) : Nat := 5 + 2 * i

/-- The objects of a page. -/
def pageObjects (d : Document) (i : Nat) (lines : List PlacedLine) : List Text :=
  let content := lines.flatMap d.drawing
  [dictionary ["/Type /Page /Parent 2 0 R".toList,
      "/MediaBox [0 0 ".toList ++ Text.ofInt d.paper.width ++ ' ' :: Text.ofInt d.paper.height
        ++ [']'],
      "/Resources << /Font << /helv 3 0 R /hebo 4 0 R >> >>".toList,
      "/Contents ".toList ++ reference (pageNumber i + 1)],
    dictionary ["/Length ".toList ++ Text.ofNat content.length]
      ++ "\nstream\n".toList ++ content ++ "endstream".toList]

/-- All objects in the order of their numbers. -/
def objects (d : Document) : List Text :=
  [dictionary ["/Type /Catalog /Pages 2 0 R".toList],
    dictionary ["/Type /Pages /Count ".toList ++ Text.ofNat d.pages.length,
      "/Kids [".toList
        ++ spaced ((List.range d.pages.length).map fun i => reference (pageNumber i)) ++ [']']],
    fontObject "Helvetica",
    fontObject "Helvetica-Bold"]
    ++ (d.pages.zipIdx.flatMap fun p => d.pageObjects p.2 p.1)

/-- An object with its number around it. -/
def numbered (n : Nat) (object : Text) : Text :=
  Text.ofNat n ++ " 0 obj\n".toList ++ object ++ "\nendobj\n".toList

/-- The places of texts that follow each other. -/
def places (start : Nat) : List Text → List Nat
  | [] => []
  | t :: more => start :: places (start + t.length) more

/-- A comment that shows readers that the file is binary. -/
def binaryMark : Text := "%\x00\x00\x00\x00\n".toList

/-- The text of the file.  It holds ASCII characters only, so places count its
bytes. -/
def fileText (identity : Text) (d : Document) : Text :=
  let header := "%PDF-1.7\n".toList ++ binaryMark
  let parts := d.objects.zipIdx.map fun o => numbered (o.2 + 1) o.1
  let body := header ++ parts.flatten
  let count := Text.ofNat (parts.length + 1)
  body ++ "xref\n0 ".toList ++ count ++ "\n0000000000 65535 f \n".toList
    ++ ((places header.length parts).flatMap fun n =>
      Text.padded 10 n ++ " 00000 n \n".toList)
    ++ "trailer\n".toList
    ++ dictionary ["/Size ".toList ++ count, "/Root 1 0 R".toList,
      "/ID [".toList ++ codes identity ++ codes identity ++ [']']]
    ++ "\nstartxref\n".toList ++ Text.ofNat body.length ++ "\n%%EOF\n".toList

/-- The bytes of the file of a document with the given identity. -/
def bytes (identity : Text) (d : Document) : Bytes := Utf8.encode (d.fileText identity)

end Document
end DocPress.Pdf
