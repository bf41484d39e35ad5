import DocPress.Text.Case
import DocPress.Text.Quoted

/-!
# Registries

A registry finds the one handler for an identifier, in any letter case.  It is
built from all its handlers at once and is never changed.
-/

namespace DocPress

/-- Handlers of one kind by their identifiers in lower case. -/
structure Registry (α : Type) where
  kind : Text
  handlers : List (Text × α)

/-- What a handler says about itself. -/
structure HandlerView (α : Type) where
  /-- What the handler is for. -/
  identifier : α → Text
  /-- The name that error reports use for it. -/
  title : α → Text

/-- Why a handler cannot be had. -/
inductive RegistryError where
  /-- Two handlers have one identifier. -/
  | duplicate (kind identifier first second : Text)
  /-- No handler has the identifier, which may be missing. -/
  | unknown (kind : Text) (identifier : Option Text) (available : List Text)
deriving DecidableEq, Inhabited

namespace RegistryError

/-- The kind of the handler. -/
def kind : RegistryError → Text
  | duplicate k _ _ _ => k
  | unknown k _ _ => k

/-- The identifier of the handler. -/
def identifier : RegistryError → Option Text
  | duplicate _ i _ _ => some i
  | unknown _ i _ => i

/-- The words about an error. -/
def message : RegistryError → Text
  | duplicate kind identifier first second =>
      "Duplicate ".toList ++ kind ++ " for '".toList ++ identifier ++ "': ".toList ++ first
        ++ " and ".toList ++ second
  | unknown kind identifier available =>
      "No ".toList ++ kind ++ " registered for '".toList ++ identifier.getD "None".toList
        ++ "'. Available: ".toList ++ Text.quotedList available

end RegistryError

namespace Registry

variable {α : Type}

/-- The handler of an identifier that is in lower case. -/
def find? (r : Registry α) (key : Text) : Option α :=
  (r.handlers.find? fun h => h.1 == key).map (·.2)

/-- The registry with one more handler. -/
def add (view : HandlerView α) (r : Registry α) (handler : α) :
    Except RegistryError (Registry α) :=
  let key := Text.lower (view.identifier handler)
  match r.find? key with
  | some other => .error (.duplicate r.kind key (view.title other) (view.title handler))
  | none => .ok { r with handlers := r.handlers ++ [(key, handler)] }

/-- The registry of some handlers. -/
def build (view : HandlerView α) (kind : Text) (handlers : List α) :
    Except RegistryError (Registry α) :=
  handlers.foldlM (add view) ⟨kind, []⟩

/-- The handler of an identifier; a missing or empty one has none. -/
def get? (r : Registry α) (identifier : Option Text) : Option α :=
  match identifier with
  | none => none
  | some [] => none
  | some t => r.find? (Text.lower t)

/-- All identifiers in order. -/
def identifiers (r : Registry α) : List Text := Text.sort (r.handlers.map (·.1))

/-- The handler of an identifier that must have one. -/
def require (r : Registry α) (identifier : Option Text) : Except RegistryError α :=
  match r.get? identifier with
  | some handler => .ok handler
  | none => .error (.unknown r.kind identifier r.identifiers)

/-- Whether an identifier is known. -/
def contains (r : Registry α) (identifier : Text) : Bool :=
  (r.find? (Text.lower identifier)).isSome

/-- The number of handlers. -/
def size (r : Registry α) : Nat := r.handlers.length

end Registry
end DocPress
