import DocPress.Config.Environment

/-!
# Errors of a configuration

Each way in which a configuration is refused, and the words for it.
-/

namespace DocPress

/-- The name of the kind of a value. -/
def Value.kindName : Value → Text
  | null => "NoneType".toList
  | bool _ => "bool".toList
  | int _ => "int".toList
  | float _ => "float".toList
  | text _ => "str".toList
  | bytes _ => "bytes".toList
  | date _ => "datetime.date".toList
  | moment _ _ => "datetime.datetime".toList
  | list _ => "list".toList
  | tuple _ => "tuple".toList
  | set _ => "set".toList
  | map _ => "dict".toList

/-- Why a configuration is refused. -/
inductive ConfigError where
  /-- A text refers to a variable without a value. -/
  | unset (v : UnsetVariable)
  /-- The data holds no sections at all. -/
  | notCollection (data : Value)
  /-- The data mentions a section without holding one. -/
  | notSections (data : Value)
  /-- A section is no mapping. -/
  | notMapping (part : Value)
  /-- A value that is no list stands where patterns are listed. -/
  | notList (value : Value)
  /-- A value of a kind that has no number stands for one. -/
  | notNumber (value : Value)
  /-- A text or bytes that stand for a number are none. -/
  | notNumeral (value : Value)
  /-- A number is too large to be used as a length. -/
  | tooLarge
  | pageSize (name : Text)
  | fontSize (points : Float)
  | margin (points : Float)
deriving Inhabited

namespace ConfigError

/-- A kind of value between apostrophes. -/
def ofKind (v : Value) : Text := '\'' :: v.kindName ++ ['\'']

/-- The words about data that mentions a section without holding one. -/
def noSectionIn : Value → Text
  | .list _ => "list indices must be integers or slices, not str".toList
  | .text _ => "string indices must be integers, not 'str'".toList
  | v => ofKind v ++ " object is not subscriptable".toList

/-- The words about an error. -/
def message : ConfigError → Text
  | unset v => v.message
  | notCollection (.bytes _) => "a bytes-like object is required, not 'str'".toList
  | notCollection v => "argument of type ".toList ++ ofKind v ++ " is not iterable".toList
  | notSections v => noSectionIn v
  | notMapping v => ofKind v ++ " object has no attribute 'get'".toList
  | notList v => ofKind v ++ " object is not iterable".toList
  | notNumber v =>
      "float() argument must be a string or a real number, not ".toList ++ ofKind v
  | notNumeral v => "could not convert string to float: ".toList ++ v.shown
  | tooLarge => "int too large to convert to float".toList
  | pageSize name =>
      "Invalid page size: ".toList ++ name ++ ". Valid: ['a4', 'letter']".toList
  | fontSize points =>
      "PDF font size must be positive (got ".toList ++ Decimal.floatText points ++ [')']
  | margin points =>
      "PDF margin must not be negative (got ".toList ++ Decimal.floatText points ++ [')']

end ConfigError
end DocPress
