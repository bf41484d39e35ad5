import DocPress.Docstring.Grammar.Rules
import DocPress.Docstring.Lexer
import DocPress.Docstring.Literal

/-!
# Reading Python text with the grammar

The grammar is followed from the first token on.  Tokens are looked at one by
one, and how far the reading has looked decides where an error is reported.  A
text that fits no rule is read a second time with the rules for mistakes; when
those have nothing to say either, the last token looked at is at fault.  A
fault in the rest of the text can take precedence over a complaint.
-/

namespace DocPress.Docstring

/-- Why a text is not well formed. -/
structure SyntaxError where
  message : Text
  line : Nat
deriving DecidableEq, Inhabited

/-- The text being read, as tokens, and the data it is read with. -/
structure Source where
  data : CharacterData
  tokens : Array Token
  fault : Option Fault
  openBracket : Option (Char × Nat)
  /-- Whether the text is an expression inside a string. -/
  inner : Bool

namespace Source

/-- The words about a bracket that is never closed. -/
def neverClosed (c : Char) : Text := '\'' :: c :: "' was never closed".toList

/-- The error of reading up to the fault. -/
def faultError (src : Source) : SyntaxError :=
  match src.fault with
  | some (.lexical message line) => ⟨message, line⟩
  | some (.endOfText line) =>
      match src.openBracket with
      | some (c, opened) => ⟨neverClosed c, opened⟩
      | none => ⟨"unexpected EOF while parsing".toList, line⟩
  | some (.unindent line) => ⟨"unindent does not match any outer indentation level".toList, line⟩
  | some (.tabs line) => ⟨"inconsistent use of tabs and spaces in indentation".toList, line⟩
  | some (.tooDeep line) => ⟨"too many levels of indentation".toList, line⟩
  | some (.continuation line) =>
      ⟨"unexpected character after line continuation character".toList, line⟩
  | none => ⟨"unexpected EOF while parsing".toList, 0⟩

/-- The fault in the rest of the text that takes precedence over an error of
the grammar, given the line of the last token looked at. -/
def lateError? (src : Source) (line : Nat) : Option SyntaxError :=
  match src.fault, src.openBracket with
  | none, _ => none
  | some (.lexical message line), _ => some ⟨message, line⟩
  | some _, some (c, opened) => if opened < line then some ⟨neverClosed c, opened⟩ else none
  | some _, none => none

/-- The line of the last of the first `count` tokens. -/
def lastLine (src : Source) (count : Nat) : Nat :=
  ((src.tokens[count - 1]?).map Token.line).getD 1

/-- The error in the words of the place it stands in. -/
def worded (src : Source) (e : SyntaxError) : SyntaxError :=
  if src.inner then { e with message := "f-string: ".toList ++ e.message } else e

end Source

/-- The answers that are kept, for each place those of the rules tried there. -/
abbrev Kept := Array (List (Rule × Option (Node × Nat)))

namespace Kept

/-- No answers at the given number of places. -/
def empty (places : Nat) : Kept := Array.replicate places []

/-- The kept answer of a rule at a place: found, missed, or not tried yet. -/
def answer? (k : Kept) (r : Rule) (pos : Nat) : Option (Option (Node × Nat)) :=
  (Array.getD k pos []).lookup r

/-- Keep the answer of a rule at a place. -/
def keep (k : Kept) (r : Rule) (pos : Nat) (answer : Option (Node × Nat)) : Kept :=
  Array.modify k pos ((r, answer) :: ·)

end Kept

/-- The state of a reading: how many tokens were looked at, the kept answers,
and whether mistakes are looked for. -/
structure Session where
  seen : Nat
  kept : Kept
  complaining : Bool

/-- The answer of an item or rule at a place. -/
inductive Result where
  | found (n : Node) (next : Nat)
  | missed
  /-- The whole text is in error; `settled` errors give way to no later fault. -/
  | stopped (e : SyntaxError) (settled : Bool)

/-- The answer of the items of an alternative. -/
inductive ItemsResult where
  | matched (nodes : List Node) (next : Nat)
  | failed (committed : Bool)
  | halted (e : SyntaxError) (settled : Bool)

/-- The answer of an action. -/
inductive Made where
  | node (n : Node)
  /-- The rule has no node here, and its other alternatives are not tried. -/
  | nothing
  | wrong (e : SyntaxError)

/-! ### Kinds of expressions -/

/-- What an expression is called in complaints. -/
def Node.kindName : Node → Text
  | .node form _ parts =>
      match form with
      | .member => "attribute".toList
      | .subscript => "subscript".toList
      | .starred => "starred".toList
      | .name => "name".toList
      | .list => "list".toList
      | .tuple => "tuple".toList
      | .lambda => "lambda".toList
      | .call => "function call".toList
      | .boolAnd | .boolOr | .binary | .unary => "expression".toList
      | .generator => "generator expression".toList
      | .yield | .yieldFrom => "yield expression".toList
      | .await => "await expression".toList
      | .listComp => "list comprehension".toList
      | .setComp => "set comprehension".toList
      | .dictComp => "dict comprehension".toList
      | .dict => "dict literal".toList
      | .set => "set display".toList
      | .joined => "f-string expression".toList
      | .constant => (parts.head?.map Node.word).getD []
      | .ellipsis => "ellipsis".toList
      | .compare => "comparison".toList
      | .conditional => "conditional expression".toList
      | .named => "named expression".toList
      | _ => "literal".toList
  | _ => "literal".toList

/-- The nodes of a part, lists flattened and absent parts left out. -/
def Node.flat : Nat → Node → List Node
  | 0, _ => []
  | _, .absent => []
  | fuel + 1, .list items => items.flatMap (Node.flat fuel)
  | _, n => [n]

/-- How deep lists of parts are nested. -/
def Node.listDepth : Nat := 6

/-- The nodes of several parts, lists flattened and absent parts left out. -/
def Node.flatParts (parts : List Node) : List Node := parts.flatMap (Node.flat Node.listDepth)

/-- The first part of an expression that is no target.  At most `fuel` levels
are looked at. -/
def badTarget? (use : TargetUse) : Nat → Node → Option Node
  | 0, _ => none
  | fuel + 1, n =>
      match n with
      | .node .list _ parts => (Node.flatParts parts).findSome? (badTarget? use fuel)
      | .node .tuple _ parts => (Node.flatParts parts).findSome? (badTarget? use fuel)
      | .node .starred _ parts =>
          if use = .deleted then some n else (Node.flatParts parts).findSome? (badTarget? use fuel)
      | .node .compare _ parts =>
          if use = .looped then
            let isIn := ((Node.flatParts (parts.drop 1)).head?.map fun c =>
              (c.part 1).word == "in".toList).getD false
            if isIn then parts.head?.bind (badTarget? use fuel) else none
          else some n
      | .node .name _ _ => none
      | .node .subscript _ _ => none
      | .node .member _ _ => none
      | n => some n

/-- The positional arguments among call arguments. -/
def isPositional (n : Node) : Bool := !(n.isForm .keywordArg || n.isForm .unpackArg)

/-! ### Following the grammar -/

/-- The words of a complaint. -/
def complaint (before : String) (about : Subject) (after : String) (nodes : List Node) : Text :=
  let subject : Text := match about with
    | .nothing => []
    | .kindOf i => (nodes[i]?.getD .absent).kindName
    | .lineOf i => Text.ofNat (nodes[i]?.getD .absent).line
    | .wordOf i => (nodes[i]?.getD .absent).word
  before.toList ++ subject ++ after.toList

/-- Carry out an action that needs no further reading. -/
def act (src : Source) (seen start next : Nat) (nodes : List Node) : Action → Made
  | .pick i => .node (nodes[i]?.getD .absent)
  | .make form parts =>
      .node (.node form (src.lastLine (start + 1)) (parts.map fun i => nodes[i]?.getD .absent))
  | .gather parts => .node (.list (parts.map fun i => nodes[i]?.getD .absent))
  | .chain =>
      let line := src.lastLine (start + 1)
      let join := fun acc step =>
        match step with
        | Node.node form _ parts => Node.node form line (acc :: parts)
        | _ => acc
      .node ((nodes[1]?.getD Node.absent).items.foldl join (nodes[0]?.getD .absent))
  | .strings => .nothing
  | .complain before about after site =>
      let line := match site with
        | .lastRead => src.lastLine seen
        | .item i => (nodes[i]?.getD .absent).line
      .wrong ⟨complaint before about after nodes, line⟩
  | .badTarget use i =>
      match badTarget? use 1000 (nodes[i]?.getD .absent) with
      | some n =>
          let verb := if use = .deleted then "cannot delete " else "cannot assign to "
          .wrong ⟨verb.toList ++ n.kindName, n.line⟩
      | none => .nothing
  | .missingComma =>
      let first := nodes[1]?.getD .absent
      let legacy := first.isForm .name
        && (first.word == "print".toList || first.word == "exec".toList)
      let level := ((src.tokens[next - 1]?).map Token.level).getD 0
      if legacy || level = 0 then .nothing
      else .wrong ⟨"invalid syntax. Perhaps you forgot a comma?".toList, first.line⟩
  | .legacyCall =>
      let first := nodes[0]?.getD .absent
      let word := first.word
      if word == "print".toList || word == "exec".toList then
        .wrong ⟨"Missing parentheses in call to '".toList ++ word ++ "'. Did you mean ".toList
          ++ word ++ "(...)?".toList, first.line⟩
      else .nothing
  | .bareGenerator =>
      let args := match nodes[0]? with
        | some (.node _ _ parts) => (Node.flatParts parts).filter isPositional
        | _ => []
      match args.reverse with
      | last :: _ :: _ => .wrong ⟨"Generator expression must be parenthesized".toList, last.line⟩
      | _ => .nothing
  | .argumentOrder =>
      let unpacked := match nodes[0]? with
        | some (.node _ _ parts) => (Node.flatParts parts).any (·.isForm .unpackArg)
        | _ => false
      .wrong ⟨"positional argument follows keyword argument".toList
        ++ (if unpacked then " unpacking".toList else []), src.lastLine seen⟩
  | .numberPart imaginary =>
      let n := nodes[0]?.getD .absent
      if Literal.isImaginary n.word = imaginary then .node n
      else if imaginary then
        .wrong ⟨"imaginary number required in complex literal".toList, n.line⟩
      else .wrong ⟨"real number required in complex literal".toList, n.line⟩

/-- Look at the token at a place and match it. -/
def matchToken (src : Source) (pos : Nat) (st : Session) (fits : Token → Bool) :
    Result × Session :=
  match src.tokens[pos]? with
  | none => (.stopped src.faultError true, st)
  | some t =>
      let st := { st with seen := max st.seen (pos + 1) }
      if fits t then
        if t.kind = .number && Literal.isTooLong t.text then
          (.stopped ⟨"Exceeds the limit for integer string conversion".toList, t.line⟩ false, st)
        else if t.kind = .name then
          let named : Token := { t with text := src.data.name t.text }
          (.found (.node .name t.line [.token named]) (pos + 1), st)
        else (.found (.token t) (pos + 1), st)
      else (.missed, st)

/-- Names that are keywords at some places only. -/
def softKeywords : List Text := ["_".toList, "case".toList, "match".toList]

/-- Join neighbouring literal pieces; empty ones are left out. -/
def mergeText : List Node → List Node
  | [] => []
  | .text codes :: more =>
      match mergeText more with
      | .text others :: rest => .text (codes ++ others) :: rest
      | merged => if codes.isEmpty then merged else .text codes :: merged
  | n :: more => n :: mergeText more

mutual

/-- Match an item at a place. -/
def runPeg (src : Source) : Nat → Peg → Nat → Session → Result × Session
  | 0, _, _, st => (.stopped ⟨"parser stack overflow".toList, 0⟩ true, st)
  | fuel + 1, p, pos, st =>
      match p with
      | .tok text =>
          matchToken src pos st fun t =>
            (t.kind = .op || t.kind = .keyword) && t.text == text.toList
      | .kind k => matchToken src pos st fun t => t.kind = k
      | .soft text => matchToken src pos st fun t => t.kind = .name && t.text == text.toList
      | .anySoft => matchToken src pos st fun t => t.kind = .name && softKeywords.contains t.text
      | .rule r => runRule src fuel r pos st
      | .mistake r =>
          if st.complaining then runRule src fuel (.mistake r) pos st else (.missed, st)
      | .quiet r =>
          let (result, after) := runRule src fuel r pos { st with complaining := false }
          (result, { after with complaining := st.complaining })
      | .choice alts => runAlts src fuel alts pos st
      | .opt p =>
          match runPeg src fuel p pos st with
          | (.missed, st) => (.found .absent pos, st)
          | other => other
      | .many p => runMany src fuel p pos st []
      | .many1 p =>
          match runPeg src fuel p pos st with
          | (.found n next, st) => runMany src fuel p next st [n]
          | other => other
      | .sep separator p =>
          match runPeg src fuel p pos st with
          | (.found n next, st) => runSeparated src fuel separator p next st [n]
          | other => other
      | .ahead p =>
          match runPeg src fuel p pos st with
          | (.found n _, st) => (.found n pos, st)
          | other => other
      | .deny p =>
          match runPeg src fuel p pos st with
          | (.found _ _, st) => (.missed, st)
          | (.missed, st) => (.found .absent pos, st)
          | other => other
      | .must text =>
          match matchToken src pos st fun t => t.kind = .op && t.text == text.toList with
          | (.missed, st) =>
              (.stopped ⟨"expected '".toList ++ text.toList ++ ['\''], src.lastLine (pos + 1)⟩
                false, st)
          | other => other
      | .commit => (.found .absent pos, st)

/-- Match a rule at a place; the answers of some rules are kept. -/
def runRule (src : Source) : Nat → Rule → Nat → Session → Result × Session
  | 0, _, _, st => (.stopped ⟨"parser stack overflow".toList, 0⟩ true, st)
  | fuel + 1, r, pos, st =>
      if r.isKept then
        match src.tokens[pos]? with
        | none => (.stopped src.faultError true, st)
        | some _ =>
            let st := { st with seen := max st.seen (pos + 1) }
            match st.kept.answer? r pos with
            | some (some (n, next)) => (.found n next, st)
            | some none => (.missed, st)
            | none =>
                match runAlts src fuel (grammar r) pos st with
                | (.found n next, st) =>
                    (.found n next, { st with kept := st.kept.keep r pos (some (n, next)) })
                | (.missed, st) => (.missed, { st with kept := st.kept.keep r pos none })
                | other => other
      else runAlts src fuel (grammar r) pos st

/-- Try alternatives in order. -/
def runAlts (src : Source) : Nat → List Alt → Nat → Session → Result × Session
  | 0, _, _, st => (.stopped ⟨"parser stack overflow".toList, 0⟩ true, st)
  | _, [], _, st => (.missed, st)
  | fuel + 1, .mk items action :: others, pos, st =>
      match runItems src fuel items pos st [] false with
      | (.halted e settled, st) => (.stopped e settled, st)
      | (.failed true, st) => (.missed, st)
      | (.failed false, st) => runAlts src fuel others pos st
      | (.matched nodes next, st) =>
          match action with
          | .strings =>
              match joinStrings src fuel st.seen (src.lastLine (pos + 1))
                  ((nodes[0]?.getD Node.absent).items) with
              | .ok n => (.found n next, st)
              | .error e => (.stopped e false, st)
          | action =>
              match act src st.seen pos next nodes action with
              | .node n => (.found n next, st)
              | .nothing => (.missed, st)
              | .wrong e => (.stopped (src.worded e) false, st)

/-- Match the items of an alternative one after the other. -/
def runItems (src : Source) :
    Nat → List Peg → Nat → Session → List Node → Bool → ItemsResult × Session
  | 0, _, _, st, _, _ => (.halted ⟨"parser stack overflow".toList, 0⟩ true, st)
  | _, [], pos, st, acc, _ => (.matched acc.reverse pos, st)
  | fuel + 1, p :: more, pos, st, acc, committed =>
      let committed := committed || (match p with | .commit => true | _ => false)
      match runPeg src fuel p pos st with
      | (.found n next, st) => runItems src fuel more next st (n :: acc) committed
      | (.missed, st) => (.failed committed, st)
      | (.stopped e settled, st) => (.halted e settled, st)

/-- Match an item as often as possible. -/
def runMany (src : Source) : Nat → Peg → Nat → Session → List Node → Result × Session
  | 0, _, _, st, _ => (.stopped ⟨"parser stack overflow".toList, 0⟩ true, st)
  | fuel + 1, p, pos, st, acc =>
      match runPeg src fuel p pos st with
      | (.found n next, st) =>
          if next = pos then (.found (.list acc.reverse) pos, st)
          else runMany src fuel p next st (n :: acc)
      | (.missed, st) => (.found (.list acc.reverse) pos, st)
      | other => other

/-- Match further items, each after a separator. -/
def runSeparated (src : Source) :
    Nat → String → Peg → Nat → Session → List Node → Result × Session
  | 0, _, _, _, st, _ => (.stopped ⟨"parser stack overflow".toList, 0⟩ true, st)
  | fuel + 1, separator, p, pos, st, acc =>
      match runPeg src fuel (.tok separator) pos st with
      | (.found _ next, st) =>
          match runPeg src fuel p next st with
          | (.found n next, st) => runSeparated src fuel separator p next st (n :: acc)
          | (.missed, st) => (.found (.list acc.reverse) pos, st)
          | other => other
      | (.missed, st) => (.found (.list acc.reverse) pos, st)
      | other => other

/-- Join string tokens to one value. -/
def joinStrings (src : Source) : Nat → Nat → Nat → List Node → Except SyntaxError Node
  | 0, _, _, _ => .error ⟨"parser stack overflow".toList, 0⟩
  | fuel + 1, seen, line, tokens => do
      let here := src.lastLine seen
      let wrong := fun (message : Text) => src.worded ⟨message, here⟩
      let texts := tokens.map Node.word
      let firstIsBytes := match texts with
        | t :: _ => (Literal.parts t).1.contains 'b'
        | [] => false
      let pieces ← stringPieces src fuel here firstIsBytes tokens
      let formatted := texts.any fun t => (Literal.parts t).1.contains 'f'
      if firstIsBytes then
        match pieces with
        | [.text codes] => .ok (.node .bytes line [.text codes])
        | [] => .ok (.node .bytes line [.text []])
        | _ => .error (wrong "cannot mix bytes and nonbytes literals".toList)
      else if formatted then .ok (.node .joined line pieces)
      else
        let codes := match pieces with
          | [.text codes] => codes
          | _ => []
        let marked := (texts.head?.bind List.head?) = some 'u'
        .ok (.node .str line (.text codes :: (if marked then [.absent] else [])))

/-- The pieces of string tokens, neighbouring literal pieces joined. -/
def stringPieces (src : Source) : Nat → Nat → Bool → List Node → Except SyntaxError (List Node)
  | 0, _, _, _ => .error ⟨"parser stack overflow".toList, 0⟩
  | _, _, _, [] => .ok []
  | fuel + 1, here, bytes, n :: more => do
      let wrong := fun (message : Text) => src.worded ⟨message, here⟩
      let (letters, body) := Literal.parts n.word
      let raw := letters.contains 'r'
      let isBytes := letters.contains 'b'
      let first : List Literal.Piece ←
        if isBytes then
          if body.any fun c => 128 ≤ c.toNat then
            .error (src.worded ⟨"bytes can only contain ASCII literal characters".toList, n.line⟩)
          else
            match Literal.bytesValue src.data raw body with
            | .ok codes => .ok [.literal codes]
            | .error message => .error (wrong message)
        else if letters.contains 'f' then .ok (Literal.formatted src.data raw n.line body)
        else
          match Literal.textValue src.data raw body with
          | .ok codes => .ok [.literal codes]
          | .error message => .error (wrong message)
      if isBytes != bytes then .error (wrong "cannot mix bytes and nonbytes literals".toList)
      else
        let nodes ← fieldNodes src fuel here first
        let others ← stringPieces src fuel here bytes more
        .ok (mergeText (nodes ++ others))

/-- The nodes of pieces; the expressions of fields are read. -/
def fieldNodes (src : Source) : Nat → Nat → List Literal.Piece → Except SyntaxError (List Node)
  | 0, _, _ => .error ⟨"parser stack overflow".toList, 0⟩
  | _, _, [] => .ok []
  | fuel + 1, here, piece :: more => do
      let node ←
        match piece with
        | .literal codes => .ok (Node.text codes)
        | .fault message => .error (src.worded ⟨message, here⟩)
        | .field source line conversion spec => do
            let lexed := lex line ('(' :: source ++ [')'])
            let inner : Source :=
              ⟨src.data, lexed.tokens.toArray, lexed.fault, lexed.openBracket, true⟩
            let value ← readAll inner fuel (.stmt .fstring)
            let letter : Node := match conversion with
              | some c => .text [c.toNat]
              | none => .absent
            let format ← match spec with
              | some ps => do
                  let nodes ← fieldNodes src fuel here ps
                  .ok (Node.node .joined line (mergeText nodes))
              | none => .ok Node.absent
            .ok (.node .formatted line [value, letter, format])
      let others ← fieldNodes src fuel here more
      .ok (node :: others)

/-- Read a whole text by a rule: once for its meaning, and once more for its
mistakes when it has none. -/
def readAll (src : Source) : Nat → Rule → Except SyntaxError Node
  | 0, _ => .error ⟨"parser stack overflow".toList, 0⟩
  | fuel + 1, r =>
      let late := fun (e : SyntaxError) (seen : Nat) =>
        match src.lateError? (src.lastLine seen) with
        | some e => Except.error (src.worded e)
        | none => .error e
      match runRule src fuel r 0 ⟨0, .empty src.tokens.size, false⟩ with
      | (.found n _, _) => .ok n
      | (.stopped e true, _) => .error (src.worded e)
      | (.stopped e false, st) => late e st.seen
      | (.missed, first) =>
          match runRule src fuel r 0 ⟨first.seen, .empty src.tokens.size, true⟩ with
          | (.stopped e true, _) => .error (src.worded e)
          | (.stopped e false, st) => late e st.seen
          | (_, st) =>
              match ((src.tokens[first.seen - 1]?).map Token.kind).getD .name with
              | .indent => .error (src.worded ⟨"unexpected indent".toList, src.lastLine st.seen⟩)
              | .dedent => .error (src.worded ⟨"unexpected unindent".toList, src.lastLine st.seen⟩)
              | _ => late (src.worded ⟨"invalid syntax".toList, src.lastLine first.seen⟩) st.seen

end

/-- The syntax tree of a Python text, or its first error. -/
def parseModule (data : CharacterData) (content : Text) : Except SyntaxError Node :=
  let lexed := lex 1 content
  let src : Source := ⟨data, lexed.tokens.toArray, lexed.fault, lexed.openBracket, false⟩
  readAll src (400 * (src.tokens.size + content.length + 40)) (.stmt .file)

end DocPress.Docstring
