import DocPress.Decimal.Basic

/-!
# JSON values

Objects keep their fields in order.  Integers and decimal numbers are told
apart, because their texts are.
-/

namespace DocPress

/-- A JSON value, with the three names for numbers that are none. -/
inductive Json where
  | null
  | bool (b : Bool)
  | int (n : Int)
  | decimal (d : Decimal)
  | nan
  | infinity (negative : Bool)
  | text (t : Text)
  | array (items : List Json)
  | object (fields : List (Text × Json))
deriving Inhabited

namespace Json

/-- The field of an object; of several with one key, the last. -/
def field? : Json → Text → Option Json
  | object fields, key => (fields.reverse.find? fun f => f.1 == key).map (·.2)
  | _, _ => none

/-- An array of texts. -/
def texts (ts : List Text) : Json := array (ts.map text)

end Json
end DocPress
