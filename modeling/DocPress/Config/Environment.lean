import DocPress.Config.Value

/-!
# Environment references

A text of a configuration may refer to variables of the environment: a dollar
sign, then a name between braces.  The name is not empty and ends at the first
closing brace.  A text is cut into pieces once, from the left, so a value that
is put in is never read again.
-/

namespace DocPress

/-- Variables with their values. -/
abbrev Environment := List (Text × Text)

/-- The value of a variable. -/
def Environment.value? (env : Environment) (name : Text) : Option Text :=
  (env.find? fun v => v.1 == name).map Prod.snd

/-- A reference to a variable that has no value. -/
structure UnsetVariable where
  name : Text
deriving DecidableEq, Inhabited

namespace UnsetVariable

/-- The report of a variable without a value. -/
def message (e : UnsetVariable) : Text := "Environment variable not set: ".toList ++ e.name

end UnsetVariable

namespace Environment

/-- A piece of a text: a character that stands for itself, or a reference. -/
inductive Piece where
  | copied (c : Char)
  | reference (name : Text)
deriving DecidableEq

/-- Everything but the brace that ends a name. -/
def isNameChar (c : Char) : Bool := c != '\x7d'

/-- The name of the reference that a text starts with, and the text after it. -/
def leading? : Text → Option (Text × Text)
  | '$' :: '\x7b' :: rest =>
      match rest.dropWhile isNameChar with
      | [] => none
      | _ :: more =>
          let name := rest.takeWhile isNameChar
          if name.isEmpty then none else some (name, more)
  | _ => none

/-- What follows a reference is shorter than the text it stands in. -/
theorem length_lt_of_leading? {t name rest : Text} (h : leading? t = some (name, rest)) :
    rest.length < t.length := by
  unfold leading? at h
  split at h
  · rename_i body
    split at h
    · cases h
    · rename_i more hdrop
      simp only [Option.ite_none_left_eq_some, Option.some.injEq, Prod.mk.injEq] at h
      obtain ⟨_, _, rfl⟩ := h
      have hle := (List.dropWhile_suffix isNameChar (l := body)).length_le
      rw [hdrop] at hle
      simp only [List.length_cons] at hle ⊢
      omega
  · cases h

/-- The pieces of a text, from the left. -/
def pieces (t : Text) : List Piece :=
  match h : leading? t with
  | some (name, rest) =>
      have := length_lt_of_leading? h
      .reference name :: pieces rest
  | none =>
      match t with
      | [] => []
      | c :: rest => .copied c :: pieces rest
termination_by t.length

/-- What a piece contributes to the text. -/
def expandPiece (env : Environment) : Piece → Except UnsetVariable Text
  | .copied c => .ok [c]
  | .reference name =>
      match env.value? name with
      | some value => .ok value
      | none => .error ⟨name⟩

/-- A text with the values of its references. -/
def expand (env : Environment) (t : Text) : Except UnsetVariable Text := do
  .ok (← (pieces t).mapM (expandPiece env)).flatten

mutual

/-- A value with the references in its texts replaced.  Keys of mappings stay
as they are. -/
def substitute (env : Environment) : Value → Except UnsetVariable Value
  | .text t => do .ok (.text (← expand env t))
  | .list items => do .ok (.list (← substituteItems env items))
  | .map entries => do .ok (.map (← substituteEntries env entries))
  | v => .ok v

/-- Values in order, each with its references replaced. -/
def substituteItems (env : Environment) : List Value → Except UnsetVariable (List Value)
  | [] => .ok []
  | v :: more => do
      let v ← substitute env v
      .ok (v :: (← substituteItems env more))

/-- Entries in order, the value of each with its references replaced. -/
def substituteEntries (env : Environment) :
    List (Value × Value) → Except UnsetVariable (List (Value × Value))
  | [] => .ok []
  | (k, v) :: more => do
      let v ← substitute env v
      .ok ((k, v) :: (← substituteEntries env more))

end

end Environment
end DocPress
