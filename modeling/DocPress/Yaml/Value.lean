import DocPress.Config.Value
import DocPress.Decimal.Reader
import DocPress.Yaml.Kind
import DocPress.Yaml.Node

/-!
# Values of documents

The value that a document describes.  A tag decides the kind of a value; a
plain scalar without one is read by its text.
-/

namespace DocPress.Yaml

open Text

/-- Why a document has no value. -/
inductive Failure where
  /-- The document is not well formed. -/
  | malformed
  /-- A scalar is out of range for its kind. -/
  | badValue (message : Text)
  /-- A word is no truth value. -/
  | noTruth (word : Text)
  /-- A number has no digits. -/
  | noNumber
  /-- A text is no timestamp. -/
  | noMoment
  /-- The value would contain itself. -/
  | endless
deriving DecidableEq, Inhabited

/-- The common beginning of the tags of known kinds. -/
def coreTag (name : String) : Text := "tag:yaml.org,2002:".toList ++ name.toList

/-! ### Scalars -/

/-- The value of digits in a base. -/
def valueIn (base : Nat) (digits : List Nat) : Nat := digits.foldl (fun n d => n * base + d) 0

/-- The value of a digit in a base; decimal digits of every script count. -/
def digitIn? (base : Nat) (c : Char) : Option Nat :=
  ((digitValue? c).or (Ranges.hexDigit? c)).filter (· < base)

/-- A text without the mark of a base. -/
def withoutMark (base : Nat) (t : Text) : Text :=
  let mark := if base = 2 then 'b' else if base = 8 then 'o' else 'x'
  match t with
  | '0' :: c :: rest => if base != 10 && c.toLower = mark then rest else t
  | t => t

/-- A whole number in a base.  Blanks around it, a sign, and the mark of the base
are allowed. -/
def wholeNumber (base : Nat) (t : Text) : Except Failure Int :=
  let u := trim t
  match (withoutMark base (unsigned u)).mapM (digitIn? base) with
  | some (d :: digits) =>
      let n := valueIn base (d :: digits)
      .ok (if u.head? = some '-' then -(n : Int) else n)
  | _ =>
      .error (.badValue ("invalid literal for int() with base ".toList ++ Text.ofNat base
        ++ ": ".toList ++ Text.quoted t))

/-- A number to base sixty from its parts. -/
def fromSixties (parts : List Int) : Int := parts.foldl (fun n p => n * 60 + p) 0

/-- A whole number as a scalar: its beginning tells its base, and colons divide
the digits of base sixty. -/
def intValue (t : Text) : Except Failure Int := do
  let t := t.filter (· != '_')
  let u := unsigned t
  let n ← match u with
    | [] => .error .noNumber
    | '0' :: 'b' :: digits => wholeNumber 2 digits
    | '0' :: 'x' :: digits => wholeNumber 16 digits
    | ['0'] => .ok 0
    | '0' :: _ => wholeNumber 8 u
    | _ =>
        if u.contains ':' then do .ok (fromSixties (← (splitAt ':' u).mapM (wholeNumber 10)))
        else wholeNumber 10 u
  .ok (if t.head? = some '-' then -n else n)

/-- A number with a point from the digits around it. -/
def checkedFloat (t : Text) : Except Failure Float :=
  match Decimal.float? t with
  | some x => .ok x
  | none => .error (.badValue ("could not convert string to float: ".toList ++ Text.quoted t))

/-- A number with a point. -/
def floatValue (t : Text) : Except Failure Float := do
  let t := (t.filter (· != '_')).map Char.toLower
  let sign : Float := if t.head? = some '-' then -1 else 1
  let u := unsigned t
  if t.isEmpty then .error .noNumber
  else if u = ".inf".toList then .ok (sign * (1.0 / 0.0))
  else if u = ".nan".toList then .ok (0.0 / 0.0)
  else if u.contains ':' then do
    let parts ← (splitAt ':' u).mapM checkedFloat
    let step := fun (acc : Float × Float) (x : Float) => (acc.1 + x * acc.2, acc.2 * 60)
    .ok (sign * (parts.reverse.foldl step (0, 1)).1)
  else do .ok (sign * (← checkedFloat u))

/-- The decimal value of digits. -/
def decimal (t : Text) : Nat := valueIn 10 (t.filterMap digitValue?)

/-- The distance of a zone from universal time in minutes. -/
def zoneMinutes (zone : Text) : Option Int :=
  match zone with
  | [] => none
  | s :: rest =>
      if s = 'Z' then some 0
      else
        let hours := rest.takeWhile Char.isDigit
        let minutes := rest.drop (hours.length + 1)
        let total : Int := decimal hours * 60 + decimal minutes
        some (if s = '-' then -total else total)

/-- A date or a moment. -/
def timestampValue (t : Text) : Except Failure Value :=
  match timestamp? t with
  | none => .error .noMoment
  | some s =>
      let d : Date := ⟨decimal s.year, decimal s.month, decimal s.day⟩
      let check := fun (fault : Option Text) (v : Value) =>
        match fault with
        | some message => Except.error (Failure.badValue message)
        | none => .ok v
      match s.clock with
      | none => check d.fault? (.date d)
      | some (hour, minute, second, fraction, zone) =>
          let micro := decimal ((fraction ++ List.replicate 6 '0').take 6)
          let c : Clock := ⟨decimal hour, decimal minute, decimal second, micro, zoneMinutes zone⟩
          check (((c.zone.bind Clock.zoneFault?).or d.fault?).or c.fault?) (.moment d c)

/-- The bytes of a text in base 64; other characters are passed over. -/
def base64? (t : Text) : Option (List Nat) :=
  let letters := "ABCDEFGHIJKLMNOPQRSTUVWXYZabcdefghijklmnopqrstuvwxyz0123456789+/".toList
  let digits := t.filterMap fun c => letters.idxOf? c
  let complete := digits.length % 4 = 0 || 4 ≤ digits.length % 4 + t.count '='
  if t.any fun c => 128 ≤ c.toNat then none
  else if digits.length % 4 = 1 || !complete then none
  else some (groups digits)
where
  /-- Three bytes from every four digits. -/
  groups : List Nat → List Nat
    | a :: b :: c :: d :: more =>
        (a * 4 + b / 16) :: (b % 16 * 16 + c / 4) :: (c % 4 * 64 + d) :: groups more
    | [a, b, c] => [a * 4 + b / 16, b % 16 * 16 + c / 4]
    | [a, b] => [a * 4 + b / 16]
    | _ => []

/-- The value of a scalar of a kind. -/
def scalarValue (kind : Kind) (t : Text) : Except Failure Value :=
  match kind with
  | .null => .ok .null
  | .bool =>
      let word := t.map Char.toLower
      if word = "yes".toList || word = "true".toList || word = "on".toList then .ok (.bool true)
      else if word = "no".toList || word = "false".toList || word = "off".toList then
        .ok (.bool false)
      else .error (.noTruth word)
  | .int => do .ok (.int (← intValue t))
  | .float => do .ok (.float (← floatValue t))
  | .timestamp => timestampValue t
  | .str => .ok (.text t)
  | .merge => .error .malformed
  | .value => .error .malformed

/-- The kind that a tag asks for. -/
def kindOfTag? (tag : Text) : Option Kind :=
  [(coreTag "null", Kind.null), (coreTag "bool", .bool), (coreTag "int", .int),
    (coreTag "float", .float), (coreTag "timestamp", .timestamp), (coreTag "str", .str),
    (coreTag "merge", .merge), (coreTag "value", .value)].lookup tag

/-- The kind of a scalar node; none if its tag is not one of a scalar kind. -/
def scalarKind? (tag : Option Text) (t : Text) (plain : Bool) : Option Kind :=
  match tag with
  | some tag => kindOfTag? tag
  | none => some (if plain then kindOf t else .str)

/-! ### Collections -/

/-- Whether a node is the key that merges other mappings. -/
def isMergeKey : Node → Bool
  | .scalar tag t plain => scalarKind? tag t plain = some .merge
  | _ => false

/-- Whether a node is the key that stands for the mapping as a whole. -/
def isValueKey : Node → Bool
  | .scalar tag t plain => scalarKind? tag t plain = some .value
  | _ => false

/-- The entries of a mapping with those of merged mappings in front of them.
At most `fuel` levels are merged. -/
def mergedEntries : Nat → List (Node × Node) → Except Failure (List (Node × Node))
  | 0, _ => .error .endless
  | fuel + 1, entries => do
      let merged ← (entries.filter fun e => isMergeKey e.1).mapM fun e =>
        match e.2 with
        | .mapping _ inner => mergedEntries fuel inner
        | .sequence _ items => do
            let lists ← items.mapM fun n =>
              match n with
              | .mapping _ inner => mergedEntries fuel inner
              | .loop => .error .endless
              | _ => .error .malformed
            .ok lists.reverse.flatten
        | .loop => .error .endless
        | _ => .error .malformed
      .ok (merged.flatten ++ entries.filter fun e => !isMergeKey e.1)

/-- Whether a tag is the given one or missing. -/
def hasTag (tag : Option Text) (name : String) : Bool := tag.isNone || tag = some (coreTag name)

/-- The value of a node.  At most `fuel` levels are read. -/
def valueOf : Nat → Node → Except Failure Value
  | 0, _ => .error .endless
  | fuel + 1, n =>
      match n with
      | .loop => .error .endless
      | .scalar tag t plain =>
          match scalarKind? tag t plain with
          | some kind => scalarValue kind t
          | none =>
              if tag = some (coreTag "binary") then
                match base64? t with
                | some bytes => .ok (.bytes bytes)
                | none => .error .malformed
              else .error .malformed
      | .sequence tag items =>
          if hasTag tag "seq" then do .ok (.list (← items.mapM (valueOf fuel)))
          else if tag = some (coreTag "omap") || tag = some (coreTag "pairs") then do
            let pairs ← items.mapM fun item =>
              match item with
              | .mapping _ [(k, v)] => do .ok (Value.tuple [← valueOf fuel k, ← valueOf fuel v])
              | .loop => .error .endless
              | _ => .error .malformed
            .ok (.list pairs)
          else .error .malformed
      | .mapping tag entries =>
          if hasTag tag "map" then do .ok (.map (← mapEntries fuel entries))
          else if tag = some (coreTag "set") then do
            .ok (.set ((← mapEntries fuel entries).map Prod.fst))
          else .error .malformed
where
  /-- The entries of a mapping in order; of equal keys the last value counts. -/
  mapEntries (fuel : Nat) (entries : List (Node × Node)) :
      Except Failure (List (Value × Value)) := do
    let entries ← mergedEntries (fuel + 1) entries
    let pairs ← entries.mapM fun e => do
      let key ← match e.1 with
        | .scalar _ t _ => if isValueKey e.1 then .ok (Value.text t) else valueOf fuel e.1
        | k => valueOf fuel k
      if !key.isKey then .error .malformed
      else do .ok (key, ← valueOf fuel e.2)
    .ok (pairs.foldl (fun acc e => Value.put acc e.1 e.2) [])

/-- The value of a text; one without a document is nothing. -/
def read (t : Text) : Except Failure Value :=
  match readNode? t with
  | none => .error .malformed
  | some none => .ok .null
  | some (some n) => valueOf (t.length + 2) n

end DocPress.Yaml
