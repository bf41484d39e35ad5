import DocPress.Json.Basic

/-!
# Writing JSON

Every character outside printable ASCII is escaped, so the text of a value is
one line of ASCII.  Characters beyond the first 65536 become two escapes.  A
printer has limits: an integer with too many digits has no text, nor has a value
with too many arrays and objects one in the other.
-/

namespace DocPress.Json

/-- What a printer can write at most. -/
structure Limits where
  /-- The digits of an integer. -/
  digits : Nat
  /-- The arrays and objects that stand one in the other. -/
  depth : Nat
deriving DecidableEq, Inhabited

/-- Why a value cannot be written. -/
inductive PrintError where
  /-- An integer has too many digits. -/
  | tooLong
  /-- Arrays and objects are nested too deeply. -/
  | tooDeep
deriving DecidableEq, Inhabited

/-- A four-digit escape of a 16-bit unit. -/
def unitEscape (n : Nat) : Text := '\\' :: 'u' :: Text.hex 4 n

/-- One character of a JSON string. -/
def escapeChar (c : Char) : Text :=
  if c = '"' then ['\\', '"']
  else if c = '\\' then ['\\', '\\']
  else if c = '\n' then ['\\', 'n']
  else if c = '\r' then ['\\', 'r']
  else if c = '\t' then ['\\', 't']
  else if c = '\x08' then ['\\', 'b']
  else if c = '\x0c' then ['\\', 'f']
  else if 32 ≤ c.toNat && c.toNat < 127 then [c]
  else if c.toNat < 0x10000 then unitEscape c.toNat
  else
    let n := c.toNat - 0x10000
    unitEscape (0xD800 + n / 0x400) ++ unitEscape (0xDC00 + n % 0x400)

/-- A JSON string. -/
def quote (t : Text) : Text := '"' :: t.flatMap escapeChar ++ ['"']

/-- An integer of no more than the given number of digits. -/
def printInt (digits : Nat) (n : Int) : Except PrintError Text :=
  if digits < (Text.ofNat n.natAbs).length then .error .tooLong else .ok (Text.ofInt n)

mutual

/-- The text of a value on one line; `room` counts the arrays and objects that may still be
opened one in the other. -/
def printIn (digits : Nat) : Nat → Json → Except PrintError Text
  | _, null => .ok ['n', 'u', 'l', 'l']
  | _, bool true => .ok ['t', 'r', 'u', 'e']
  | _, bool false => .ok ['f', 'a', 'l', 's', 'e']
  | _, int n => printInt digits n
  | _, decimal d => .ok d.toText
  | _, nan => .ok ['N', 'a', 'N']
  | _, infinity negative =>
      .ok ((if negative then ['-'] else []) ++ ['I', 'n', 'f', 'i', 'n', 'i', 't', 'y'])
  | _, text t => .ok (quote t)
  | 0, array _ => .error .tooDeep
  | 0, object _ => .error .tooDeep
  | room + 1, array items => do return '[' :: (← printItems digits room items) ++ [']']
  | room + 1, object fields => do return '\x7b' :: (← printFields digits room fields) ++ ['\x7d']

/-- The items of an array with a comma and a space between them. -/
def printItems (digits room : Nat) : List Json → Except PrintError Text
  | [] => .ok []
  | [v] => printIn digits room v
  | v :: more => do
      return (← printIn digits room v) ++ ',' :: ' ' :: (← printItems digits room more)

/-- The fields of an object with a comma and a space between them. -/
def printFields (digits room : Nat) : List (Text × Json) → Except PrintError Text
  | [] => .ok []
  | [(k, v)] => do return quote k ++ ':' :: ' ' :: (← printIn digits room v)
  | (k, v) :: more => do
      return quote k ++ ':' :: ' ' :: (← printIn digits room v)
        ++ ',' :: ' ' :: (← printFields digits room more)

end

/-- The text of a value on one line. -/
def print (l : Limits) (v : Json) : Except PrintError Text := printIn l.digits l.depth v

/-- A line end followed by two spaces for each level. -/
def lineBreak (level : Nat) : Text := '\n' :: List.replicate (2 * level) ' '

mutual

/-- The text of a value over several lines, two spaces for each level; `room` counts the
arrays and objects that may still be opened one in the other. -/
def prettyIn (digits : Nat) : Nat → Nat → Json → Except PrintError Text
  | room + 1, level, array (v :: more) => do
      return '[' :: lineBreak (level + 1) ++ (← prettyItems digits room (level + 1) (v :: more))
        ++ lineBreak level ++ [']']
  | room + 1, level, object (f :: more) => do
      return '\x7b' :: lineBreak (level + 1) ++ (← prettyFields digits room (level + 1) (f :: more))
        ++ lineBreak level ++ ['\x7d']
  | room, _, v => printIn digits room v

/-- The items of an array, one a line. -/
def prettyItems (digits room level : Nat) : List Json → Except PrintError Text
  | [] => .ok []
  | [v] => prettyIn digits room level v
  | v :: more => do
      return (← prettyIn digits room level v) ++ ',' :: lineBreak level
        ++ (← prettyItems digits room level more)

/-- The fields of an object, one a line. -/
def prettyFields (digits room level : Nat) : List (Text × Json) → Except PrintError Text
  | [] => .ok []
  | [(k, v)] => do return quote k ++ ':' :: ' ' :: (← prettyIn digits room level v)
  | (k, v) :: more => do
      return quote k ++ ':' :: ' ' :: (← prettyIn digits room level v) ++ ',' :: lineBreak level
        ++ (← prettyFields digits room level more)

end

/-- The text of a value over several lines. -/
def pretty (l : Limits) (v : Json) : Except PrintError Text := prettyIn l.digits l.depth 0 v

end DocPress.Json
