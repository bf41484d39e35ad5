import DocPress.Docstring.Number
import DocPress.Docstring.Parser
import DocPress.Text.Quoted

/-!
# Canonical text of type expressions

The type of a field and the result of a method are shown as expressions
written anew: one blank around operators, one after commas, and parentheses
only where an operand binds more loosely than its place asks for.
-/

namespace DocPress.Docstring

open Text

/-- How tightly an expression binds; a greater level binds tighter. -/
inductive Level where
  | named | tuple | yield | test | or | and | not | compare
  | bitOr | bitXor | bitAnd | shift | sum | term | factor | power | await | atom
deriving DecidableEq, Inhabited

namespace Level

/-- The rank of a level. -/
def rank (l : Level) : Nat := l.ctorIdx

/-- The next tighter level; atoms bind tightest. -/
def next : Level → Level
  | named => tuple | tuple => yield | yield => test | test => or | or => and | and => not
  | not => compare | compare => bitOr | bitOr => bitXor | bitXor => bitAnd | bitAnd => shift
  | shift => sum | sum => term | term => factor | factor => power | power => await
  | await => atom | atom => atom

/-- The level of a binary operator. -/
def ofOperator (op : Text) : Level :=
  if op = ['|'] then bitOr
  else if op = ['^'] then bitXor
  else if op = ['&'] then bitAnd
  else if op = ['<', '<'] || op = ['>', '>'] then shift
  else if op = ['+'] || op = ['-'] then sum
  else if op = ['*', '*'] then power
  else term

end Level

namespace TypeText

/-! ### Strings -/

/-- The character of a code point; a surrogate has none and is replaced. -/
def charOf (n : Nat) : Char := if n.isValidChar then Char.ofNat n else '\ufffd'

/-- A code point between quotation marks. -/
def quoteCode (mark : Char) (n : Nat) : Text :=
  if n.isValidChar then quoteChar mark (Char.ofNat n) else '\\' :: 'u' :: hex 4 n

/-- Code points between quotation marks. -/
def quotedCodes (codes : List Nat) : Text :=
  let mark := quoteMark (codes.map charOf)
  mark :: codes.flatMap (quoteCode mark) ++ [mark]

/-- The quotation marks in order of preference. -/
def allQuotes : List Text :=
  [['\''], ['"'], ['"', '"', '"'], ['\'', '\'', '\'']]

/-- A character written with as few escapes as possible.  Line feeds and tabs
are escaped only when `strict`. -/
def lightEscape (strict : Bool) (n : Nat) : Text :=
  let c := charOf n
  if !strict && (c = '\n' || c = '\t') then [c]
  else if n.isValidChar then
    if c = '\\' then ['\\', '\\']
    else if isPrintable c then [c]
    else quoteChar '\\' c
  else quoteCode '\\' n

/-- A string written with as few escapes as possible, and the quotation marks
that can enclose it, the preferred one first. -/
def lightly (quotes : List Text) (strict : Bool) (codes : List Nat) : Text × List Text :=
  let escaped := codes.flatMap (lightEscape strict)
  let possible := (quotes.filter fun q => !escaped.contains '\n' || q.length = 3).filter
    fun q => !Text.occursIn q escaped
  if possible.isEmpty then
    let full := quotedCodes codes
    let mark := full.head?.getD '\''
    (full.tail.dropLast, [(quotes.find? fun q => q.contains mark).getD [mark]])
  else
    match escaped.getLast? with
    | none => (escaped, possible)
    | some last =>
        let ordered := possible.filter (fun q => q.head? != some last)
          ++ possible.filter (fun q => q.head? = some last)
        if (ordered.head?.bind List.head?) = some last then
          (escaped.dropLast ++ ['\\', last], ordered)
        else (escaped, ordered)

/-- A string between the first of its quotation marks. -/
def enclosed (written : Text × List Text) : Text :=
  let mark := written.2.head?.getD ['\'']
  mark ++ written.1 ++ mark

/-- Braces of literal text are doubled. -/
def doubleBraces (codes : List Nat) : List Nat :=
  codes.flatMap fun n => if n = 0x7b || n = 0x7d then [n, n] else [n]

/-! ### Expressions -/

/-- Parentheses around an expression of level `own` at a place of level `place`. -/
def bracketed (place own : Level) (t : Text) : Text :=
  if own.rank < place.rank then '(' :: t ++ [')'] else t

/-- Items with commas between them; a single item has one after it. -/
def tupleItems (ts : List Text) : Text :=
  match ts with
  | [t] => t ++ [',']
  | ts => join [',', ' '] ts

/-- Words that stand for truth values, which count as whole numbers. -/
def isTruth (t : Text) : Bool := t = "True".toList || t = "False".toList

/-- Whether a node is a whole number, after which a point needs a blank. -/
def needsBlank (n : Node) : Bool :=
  (n.isForm .number && Number.isWhole (n.part 0).word) || (n.isForm .constant && isTruth n.word)

/-- The words about an escape inside a field of a formatted string. -/
def backslashMessage : Text := "Unable to avoid backslash in f-string expression part".toList

/-- Texts in order, with levels that grow from operand to operand. -/
def risingLevels (l : Level) : Nat → List Level
  | 0 => []
  | n + 1 => l.next :: risingLevels l.next n

mutual

/-- The text of an expression at a place of the given level.  `plain` asks for
strings without escapes.  At most `fuel` levels of the tree are written. -/
def write (plain : Bool) : Nat → Level → Node → Except Text Text
  | 0, _, _ => .ok []
  | fuel + 1, place, n => do
      let at' := fun l m => write plain fuel l m
      let item := fun m => write plain fuel .test m
      let items := fun (ms : List Node) => ms.mapM item
      let clauses := fun m => (items (Node.flatParts [m])).map List.flatten
      let optional := fun (m : Node) =>
        match m with
        | .absent => .ok []
        | m => item m
      match n with
      | .node form _ parts =>
          let flat := Node.flatParts parts
          let first := n.part 0
          let second := n.part 1
          match form with
          | .name => .ok n.word
          | .number => .ok (Number.canonical first.word)
          | .constant => .ok n.word
          | .ellipsis => .ok ['.', '.', '.']
          | .str =>
              let codes := match first with
                | .text codes => codes
                | _ => []
              let mark : Text := if parts.length = 2 then ['u'] else []
              .ok (mark ++ (if plain then enclosed (lightly allQuotes false codes)
                else quotedCodes codes))
          | .bytes =>
              match first with
              | .text codes => .ok (quotedBytes codes)
              | _ => .ok []
          | .joined => do
              let written ← parts.mapM fun m => do
                return (← writeField fuel m, match m with | .text _ => true | _ => false)
              if plain then
                let codes := (written.flatMap Prod.fst)
                .ok ('f' :: enclosed (lightly allQuotes false codes))
              else
                let step := fun (acc : Text × List Text) (part : List Nat × Bool) =>
                  let (t, quotes) := lightly acc.2 part.2 part.1
                  (acc.1 ++ t, quotes)
                .ok ('f' :: enclosed (written.foldl step ([], allQuotes)))
          | .tuple => do
              let t := tupleItems (← items flat)
              .ok (if flat.isEmpty then '(' :: t ++ [')'] else bracketed place .tuple t)
          | .list => return '[' :: join [',', ' '] (← items flat) ++ [']']
          | .set => return '\x7b' :: join [',', ' '] (← items flat) ++ ['\x7d']
          | .dict => return '\x7b' :: join [',', ' '] (← items flat) ++ ['\x7d']
          | .pair => return (← item first) ++ [':', ' '] ++ (← item second)
          | .unpackPair => return '*' :: '*' :: (← at' .bitOr first)
          | .listComp => return '[' :: (← item first) ++ (← clauses second) ++ [']']
          | .setComp => return '\x7b' :: (← item first) ++ (← clauses second) ++ ['\x7d']
          | .dictComp => return '\x7b' :: (← item first) ++ (← clauses second) ++ ['\x7d']
          | .generator => return '(' :: (← item first) ++ (← clauses second) ++ [')']
          | .clause | .asyncClause => do
              let word : Text := if form = .clause then " for ".toList else " async for ".toList
              let target ← at' .tuple first
              let source ← at' Level.test.next second
              let tests ← (Node.flatParts [n.part 2]).mapM fun m => do
                return " if ".toList ++ (← at' Level.test.next m)
              .ok (word ++ target ++ " in ".toList ++ source ++ tests.flatten)
          | .boolAnd | .boolOr => do
              let own : Level := if form = .boolAnd then .and else .or
              let word : Text := if form = .boolAnd then " and ".toList else " or ".toList
              let texts ← (flat.zip (risingLevels own flat.length)).mapM fun m => at' m.2 m.1
              .ok (bracketed place own (join word texts))
          | .unary => do
              let op := first.word
              if op = "not".toList then
                .ok (bracketed place .not ("not ".toList ++ (← at' .not second)))
              else .ok (bracketed place .factor (op ++ (← at' .factor second)))
          | .binary => do
              let op := second.word
              let own := Level.ofOperator op
              let (l, r) := if own = .power then (own.next, own) else (own, own.next)
              let left ← at' l first
              let right ← at' r (n.part 2)
              .ok (bracketed place own (left ++ ' ' :: op ++ ' ' :: right))
          | .compare => do
              let left ← at' Level.compare.next first
              let others ← (Node.flatParts (parts.drop 1)).mapM fun c => do
                let op := join [' '] ((Node.flatParts [c.part 1, c.part 2]).map Node.word)
                return ' ' :: op ++ ' ' :: (← at' Level.compare.next (c.part 0))
              .ok (bracketed place .compare (left ++ others.flatten))
          | .conditional => do
              let body ← at' Level.test.next first
              let test ← at' Level.test.next second
              let other ← at' .test (n.part 2)
              .ok (bracketed place .test
                (body ++ " if ".toList ++ test ++ " else ".toList ++ other))
          | .lambda => do
              let params ← (Node.flatParts [first]).mapM item
              let head : Text := if params.isEmpty then [] else ' ' :: join [',', ' '] params
              .ok (bracketed place .test
                ("lambda".toList ++ head ++ [':', ' '] ++ (← at' .test second)))
          | .param =>
              match second with
              | .absent => .ok first.word
              | value => return first.word ++ '=' :: (← item value)
          | .slash => .ok ['/']
          | .star => .ok ('*' :: (first.part 0).word)
          | .doubleStar => .ok ('*' :: '*' :: (first.part 0).word)
          | .await => return bracketed place .await ("await ".toList ++ (← at' .atom first))
          | .yield =>
              match first with
              | .absent => .ok (bracketed place .yield "yield".toList)
              | value => return bracketed place .yield ("yield ".toList ++ (← at' .atom value))
          | .yieldFrom =>
              return bracketed place .yield ("yield from ".toList ++ (← at' .atom first))
          | .starred => return '*' :: (← at' .bitOr first)
          | .named =>
              return bracketed place .named (first.word ++ " := ".toList ++ (← at' .atom second))
          | .member => do
              let value ← at' .atom first
              .ok (value ++ (if needsBlank first then [' ', '.'] else ['.']) ++ second.word)
          | .subscript => do
              let value ← at' .atom first
              let index := Node.flatParts (match second with
                | .node .tuple _ ms => ms
                | _ => [])
              let inner ← if index.isEmpty then item second else (items index).map tupleItems
              .ok (value ++ '[' :: inner ++ [']'])
          | .slice => do
              let lower ← optional first
              let upper ← optional second
              let step ← match n.part 2 with
                | .absent => .ok []
                | m => (item m).map (':' :: ·)
              .ok (lower ++ ':' :: upper ++ step)
          | .call => do
              let function ← at' .atom first
              let given := match second with
                | .node .arguments _ ms => Node.flatParts ms
                | .absent => []
                | m => [m]
              let values ← items (given.filter isPositional)
              let others ← items (given.filter fun m => !isPositional m)
              .ok (function ++ '(' :: join [',', ' '] (values ++ others) ++ [')'])
          | .keywordArg => return first.word ++ '=' :: (← item second)
          | .unpackArg => return '*' :: '*' :: (← item first)
          | _ => .ok []
      | _ => .ok []

/-- The code points of a part of a formatted string before quoting. -/
def writeField : Nat → Node → Except Text (List Nat)
  | 0, _ => .ok []
  | fuel + 1, n =>
      match n with
      | .text codes => .ok (doubleBraces codes)
      | .node .joined _ parts => return (← parts.mapM (writeField fuel)).flatten
      | .node .formatted _ _ => do
          let value ← write true fuel Level.test.next (n.part 0)
          if value.contains '\\' then .error backslashMessage
          else
            let gap : Text := if value.head? = some '\x7b' then [' '] else []
            let letter : List Nat := match n.part 1 with
              | .text codes => '!'.toNat :: codes
              | _ => []
            let format ← match n.part 2 with
              | .absent => .ok []
              | m => (writeField fuel m).map (':'.toNat :: ·)
            .ok ('\x7b'.toNat :: (gap ++ value).map Char.toNat ++ letter ++ format
              ++ ['\x7d'.toNat])
      | _ => .ok []

end

end TypeText

mutual

/-- The height of a syntax tree. -/
def Node.height : Node → Nat
  | .list items => heights items + 1
  | .node _ _ parts => heights parts + 1
  | _ => 1

/-- The greatest height among trees. -/
def heights : List Node → Nat
  | [] => 0
  | n :: more => max n.height (heights more)

end

/-- The canonical text of a type expression, or why it has none. -/
def Node.typeText (n : Node) : Except Text Text :=
  TypeText.write false (2 * n.height) .test n

end DocPress.Docstring
