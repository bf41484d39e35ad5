import DocPress.Text.Basic

/-!
# Text as bytes

The bytes of a text and the text of bytes.  Bytes that stand for no character
are told by the longest beginning of a sequence that could still have become
one, so each fault has a place and a length.
-/

namespace DocPress

/-- The content of a file. -/
abbrev Bytes := List UInt8

namespace Utf8

/-- The bytes of a text. -/
def encode (t : Text) : Bytes := t.flatMap String.utf8EncodeChar

/-- Why bytes stand for no character. -/
inductive Fault where
  | badStart
  | badContinuation
  | truncated
deriving DecidableEq, Inhabited

/-- What stands at the beginning of bytes, with its length. -/
inductive Item where
  | char (c : Char)
  | invalid (fault : Fault)
deriving DecidableEq, Inhabited

/-- A first byte of a longer sequence: its own bits, the number of bytes to
follow, and the bounds of the first of them. -/
structure Lead where
  bits : Nat
  more : Nat
  low : Nat
  high : Nat

/-- The sequence that a byte begins. -/
def lead? (b : Nat) : Option Lead :=
  if 0xC2 ≤ b && b ≤ 0xDF then some ⟨b - 0xC0, 1, 0x80, 0xBF⟩
  else if b = 0xE0 then some ⟨0, 2, 0xA0, 0xBF⟩
  else if b = 0xED then some ⟨0xD, 2, 0x80, 0x9F⟩
  else if 0xE1 ≤ b && b ≤ 0xEF then some ⟨b - 0xE0, 2, 0x80, 0xBF⟩
  else if b = 0xF0 then some ⟨0, 3, 0x90, 0xBF⟩
  else if 0xF1 ≤ b && b ≤ 0xF3 then some ⟨b - 0xF0, 3, 0x80, 0xBF⟩
  else if b = 0xF4 then some ⟨4, 3, 0x80, 0x8F⟩
  else none

/-- The rest of a sequence of which `taken` bytes are read. -/
def continued (bits low high taken : Nat) : Nat → Bytes → Item × Nat
  | 0, _ => (.char (Char.ofNat bits), taken)
  | _ + 1, [] => (.invalid .truncated, taken)
  | more + 1, b :: rest =>
      let n := b.toNat
      if low ≤ n && n ≤ high then
        continued (bits * 64 + n % 64) 0x80 0xBF (taken + 1) more rest
      else (.invalid .badContinuation, taken)

/-- What begins with a byte, and its length. -/
def first (b : UInt8) (rest : Bytes) : Item × Nat :=
  let n := b.toNat
  if n < 0x80 then (.char (Char.ofNat n), 1)
  else
    match lead? n with
    | some l => continued l.bits l.low l.high 1 l.more rest
    | none => (.invalid .badStart, 1)

/-- The items of bytes with their lengths, after the bytes to skip. -/
def items : Nat → Bytes → List (Item × Nat)
  | _, [] => []
  | skip + 1, _ :: rest => items skip rest
  | 0, b :: rest =>
      let item := first b rest
      item :: items (item.2 - 1) rest

/-- The text of bytes; what stands for no character is replaced. -/
def decodeReplacing (bs : Bytes) : Text :=
  (items 0 bs).map fun item =>
    match item.1 with
    | .char c => c
    | .invalid _ => '\uFFFD'

/-- Bytes that are no text: the fault, its place and its bytes. -/
structure DecodeError where
  fault : Fault
  position : Nat
  bytes : Bytes
deriving DecidableEq, Inhabited

/-- The first fault among items. -/
def firstFault? (position : Nat) : List (Item × Nat) → Option (Fault × Nat × Nat)
  | [] => none
  | (.char _, size) :: more => firstFault? (position + size) more
  | (.invalid fault, size) :: _ => some (fault, position, size)

/-- The text of bytes that are one. -/
def decode (bs : Bytes) : Except DecodeError Text :=
  let all := items 0 bs
  match firstFault? 0 all with
  | some (fault, position, size) => .error ⟨fault, position, (bs.drop position).take size⟩
  | none => .ok (decodeReplacing bs)

/-- The words for a fault. -/
def Fault.message : Fault → Text
  | badStart => "invalid start byte".toList
  | badContinuation => "invalid continuation byte".toList
  | truncated => "unexpected end of data".toList

/-- The words about bytes that are no text. -/
def DecodeError.message (e : DecodeError) : Text :=
  "'utf-8' codec can't decode ".toList
    ++ (match e.bytes with
      | [b] => "byte 0x".toList ++ Text.hex 2 b.toNat ++ " in position ".toList
          ++ Text.ofNat e.position
      | bs => "bytes in position ".toList ++ Text.ofNat e.position ++ '-' ::
          Text.ofNat (e.position + bs.length - 1))
    ++ ':' :: ' ' :: e.fault.message

/-- The error as a reader sees it that takes bytes piece by piece: a sequence
cut off by the end is found when all before it is gone. -/
def DecodeError.piecewise (e : DecodeError) : DecodeError :=
  match e.fault with
  | .truncated => { e with position := 0 }
  | _ => e

end Utf8

/-- A text with every line end written as a line feed. -/
def Text.plainBreaks : Text → Text
  | [] => []
  | '\r' :: '\n' :: rest => '\n' :: plainBreaks rest
  | '\r' :: rest => '\n' :: plainBreaks rest
  | c :: rest => c :: plainBreaks rest

end DocPress
