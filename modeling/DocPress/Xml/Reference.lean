import DocPress.Xml.Name

/-!
# References

A reference names a character by its number, or an entity.  Five entities are
known without a declaration.
-/

namespace DocPress.Xml

open Text

/-- What a reference stands for. -/
inductive Reference where
  | char (c : Char)
  | entity (name : Text)
deriving DecidableEq

/-- The character of a number, if a document may refer to it. -/
def referable? (n : Nat) : Option Char :=
  if n.isValidChar && isDocumentChar (Char.ofNat n) then some (Char.ofNat n) else none

/-- Decimal digits. -/
def decimalValue (digits : Text) : Nat := digits.foldl (fun n c => n * 10 + (c.toNat - 48)) 0

/-- A reference by number after its `&#`. -/
def numbered? (t : Text) : Option (Reference × Text) :=
  match t with
  | 'x' :: more =>
      let digits := more.takeWhile fun c => (Ranges.hexDigit? c).isSome
      finish digits (Ranges.ofHex digits) (more.drop digits.length)
  | more =>
      let digits := more.takeWhile Char.isDigit
      finish digits (decimalValue digits) (more.drop digits.length)
where
  /-- The semicolon ends a reference, which needs a digit. -/
  finish (digits : Text) (n : Nat) (rest : Text) : Option (Reference × Text) :=
    match rest with
    | ';' :: rest => if digits.isEmpty then none else (referable? n).map fun c => (.char c, rest)
    | _ => none

/-- The character of an entity that is known without a declaration. -/
def predefined? (name : Text) : Option Char :=
  if name = "lt".toList then some '<'
  else if name = "gt".toList then some '>'
  else if name = "amp".toList then some '&'
  else if name = "quot".toList then some '"'
  else if name = "apos".toList then some '\''
  else none

/-- A reference after its `&`. -/
def reference? (t : Text) : Option (Reference × Text) :=
  match t with
  | '#' :: more => numbered? more
  | _ => do
      let (name, rest) ← name? t
      match rest with
      | ';' :: rest =>
          match predefined? name with
          | some c => some (.char c, rest)
          | none => some (.entity name, rest)
      | _ => none

end DocPress.Xml
