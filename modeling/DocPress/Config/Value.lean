import DocPress.Time.Date
import DocPress.Decimal.Shortest
import DocPress.Text.Quoted

/-!
# Values of settings

A configuration is a tree of values of several kinds.  Mappings keep the order
of their entries.
-/

namespace DocPress

/-- A value of a setting. -/
inductive Value where
  | null
  | bool (b : Bool)
  | int (n : Int)
  | float (x : Float)
  | text (t : Text)
  | bytes (bs : List Nat)
  | date (d : Date)
  | moment (d : Date) (c : Clock)
  | list (items : List Value)
  | tuple (items : List Value)
  | set (items : List Value)
  | map (entries : List (Value × Value))
deriving Inhabited

namespace Value

/-- Values that count as nothing: no value, no number, no text, no items. -/
def isEmpty : Value → Bool
  | null => true
  | bool b => !b
  | int n => n = 0
  | float x => x == 0
  | text t => t.isEmpty
  | bytes bs => bs.isEmpty
  | date _ => false
  | moment _ _ => false
  | list items => items.isEmpty
  | tuple items => items.isEmpty
  | set items => items.isEmpty
  | map entries => entries.isEmpty

/-- The word for a truth value. -/
def truth (b : Bool) : Text := if b then "True".toList else "False".toList

/-- The fields of a date between brackets, after what it is called. -/
def shownFields (name : String) (fields : List Nat) (more : List Text) : Text :=
  name.toList ++ '(' :: Text.join [',', ' '] (fields.map Text.ofNat ++ more) ++ [')']

mutual

/-- A value as it is shown inside another one. -/
def shown : Value → Text
  | null => "None".toList
  | bool b => truth b
  | int n => Text.ofInt n
  | float x => Decimal.floatText x
  | text t => Text.quoted t
  | bytes bs => Text.quotedBytes bs
  | date d => shownFields "datetime.date" d.fields []
  | moment d c =>
      shownFields "datetime.datetime" (d.fields ++ c.fields)
        (match c.zone with
        | none => []
        | some minutes => ["tzinfo=".toList ++ Clock.shownZone minutes])
  | list items => '[' :: Text.join [',', ' '] (shownItems items) ++ [']']
  | tuple items =>
      match items with
      | [v] => '(' :: shown v ++ [',', ')']
      | items => '(' :: Text.join [',', ' '] (shownItems items) ++ [')']
  | set items =>
      match items with
      | [] => "set()".toList
      | items => '\x7b' :: Text.join [',', ' '] (shownItems items) ++ ['\x7d']
  | map entries => '\x7b' :: Text.join [',', ' '] (shownEntries entries) ++ ['\x7d']

/-- Values as they are shown inside another one. -/
def shownItems : List Value → List Text
  | [] => []
  | v :: more => shown v :: shownItems more

/-- Entries as they are shown inside a mapping. -/
def shownEntries : List (Value × Value) → List Text
  | [] => []
  | (k, v) :: more => (shown k ++ ':' :: ' ' :: shown v) :: shownEntries more

end

/-- A value as text: texts and dates stand for themselves. -/
def toText : Value → Text
  | text t => t
  | date d => d.toText
  | moment d c => d.toText ++ ' ' :: c.toText
  | v => v.shown

/-- The number of a value that can stand for a number in a key. -/
def keyNumber? : Value → Option Float
  | bool b => some (if b then 1 else 0)
  | int n => some (Float.ofInt n)
  | float x => some x
  | _ => none

/-- Whether two values are the same key of a mapping. -/
def sameKey (a b : Value) : Bool :=
  match a, b with
  | null, null => true
  | int m, int n => m = n
  | text s, text t => s = t
  | bytes s, bytes t => s = t
  | date d, date e => d = e
  | moment d c, moment e f => d = e && c = f
  | a, b =>
      match a.keyNumber?, b.keyNumber? with
      | some x, some y => x == y
      | _, _ => false

/-- Whether a value can be a key. -/
def isKey : Value → Bool
  | list _ => false
  | set _ => false
  | map _ => false
  | _ => true

/-- Put an entry into a mapping: a known key keeps its place and gets the new
value. -/
def put (entries : List (Value × Value)) (key value : Value) : List (Value × Value) :=
  match entries with
  | [] => [(key, value)]
  | (k, v) :: more =>
      if k.sameKey key then (k, value) :: more else (k, v) :: put more key value

/-- The value under a text key. -/
def lookup? (entries : List (Value × Value)) (key : Text) : Option Value :=
  (entries.find? fun e => e.1.sameKey (.text key)).map Prod.snd

end Value
end DocPress
