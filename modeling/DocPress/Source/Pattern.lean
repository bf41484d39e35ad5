import DocPress.Config.Error

/-!
# Patterns of paths

A star stands for any characters, separators included, a question mark for one,
and a bracket for one of a set of characters.  A bracket that is not closed
stands for itself.
-/

namespace DocPress

/-- A part of a pattern. -/
inductive PatternPart where
  | anything
  | single
  | exactly (c : Char)
  | among (negated : Bool) (ranges : List (Char × Char))
deriving DecidableEq, Inhabited

/-- Whether one character fits a part. -/
def PatternPart.fits (c : Char) : PatternPart → Bool
  | anything => true
  | single => true
  | exactly d => c = d
  | among negated ranges => (ranges.any fun r => r.1 ≤ c && c ≤ r.2) != negated

/-- A pattern in its parts. -/
abbrev Pattern := List PatternPart

namespace Pattern

/-! ### Sets of characters -/

/-- Cut the inside of a bracket at the hyphens that make ranges.  The first
character of a piece is never such a hyphen, nor the one after the end of a
range; `shield` counts the characters that cannot be one. -/
def cutAtHyphens (shield : Nat) : Text → List Text
  | [] => [[]]
  | c :: rest =>
      if c = '-' && shield = 0 then [] :: cutAtHyphens 2 rest
      else
        match cutAtHyphens (shield - 1) rest with
        | [] => [[c]]
        | piece :: more => (c :: piece) :: more

/-- A hyphen at the very end of a bracket stands for itself. -/
def closeLast : List Text → List Text
  | [piece, []] => [piece ++ ['-']]
  | piece :: more => piece :: closeLast more
  | [] => []

/-- Join the pieces of an empty range without its ends, from the last on. -/
def joinEmptyRanges : List Text → List Text
  | [] => []
  | piece :: more =>
      match joinEmptyRanges more with
      | [] => [piece]
      | next :: others =>
          match piece.getLast?, next with
          | some a, b :: tail =>
              if b < a then (piece.dropLast ++ tail) :: others else piece :: next :: others
          | _, _ => piece :: next :: others

/-- A sign inside a bracket: a character, or the hyphen of a range. -/
inductive SetSign where
  | char (c : Char)
  | hyphen

/-- Pieces as signs, with the hyphens of ranges between them. -/
def signs (pieces : List Text) : List SetSign :=
  List.intercalate [.hyphen] (pieces.map fun p => p.map .char)

/-- The ranges of signs; a hyphen that is not between two characters is one. -/
def rangesOf : List SetSign → List (Char × Char)
  | [] => []
  | .hyphen :: rest => ('-', '-') :: rangesOf rest
  | .char a :: .hyphen :: .char b :: rest => (a, b) :: rangesOf rest
  | .char a :: rest => (a, a) :: rangesOf rest

/-- The set that the inside of a bracket describes. -/
def setOf (inside : Text) : PatternPart :=
  let shield := if inside.head? = some '!' then 2 else 1
  match signs (joinEmptyRanges (closeLast (cutAtHyphens shield inside))) with
  | [.char '!'] => .single
  | .char '!' :: rest => .among true (rangesOf rest)
  | all => .among false (rangesOf all)

/-! ### Reading and matching -/

/-- The inside of a bracket after its opening, and what follows it.  A closing
bracket at the beginning belongs to the inside. -/
def bracket? (t : Text) : Option (Text × Text) :=
  let mark : Text := if t.head? = some '!' then ['!'] else []
  let first : Text := if (t.drop mark.length).head? = some ']' then [']'] else []
  let body := (t.drop (mark ++ first).length).takeWhile (· != ']')
  let inside := mark ++ first ++ body
  match t.drop inside.length with
  | [] => none
  | _ :: rest => some (inside, rest)

/-- What follows a bracket is shorter than the text after its opening. -/
theorem length_lt_of_bracket? {t inside rest : Text} (h : bracket? t = some (inside, rest)) :
    rest.length < t.length := by
  unfold bracket? at h
  dsimp only at h
  split at h
  · cases h
  · rename_i hdrop
    cases h
    have hlen := congrArg List.length hdrop
    simp only [List.length_drop, List.length_cons] at hlen
    omega

/-- A pattern from its text. -/
def read (t : Text) : Pattern :=
  match t with
  | [] => []
  | '*' :: rest => .anything :: read rest
  | '?' :: rest => .single :: read rest
  | '[' :: rest =>
      match h : bracket? rest with
      | some (inside, after) =>
          have := length_lt_of_bracket? h
          setOf inside :: read after
      | none => .exactly '[' :: read rest
  | c :: rest => .exactly c :: read rest
termination_by t.length

/-- What is left of a text after each of its beginnings. -/
def remainders : Text → List Text
  | [] => [[]]
  | c :: rest => (c :: rest) :: remainders rest

/-- Whether a whole text fits a pattern. -/
def isMatch : Pattern → Text → Bool
  | [], t => t.isEmpty
  | .anything :: parts, t => (remainders t).any (isMatch parts)
  | _ :: _, [] => false
  | part :: parts, c :: rest => part.fits c && isMatch parts rest

end Pattern
end DocPress
