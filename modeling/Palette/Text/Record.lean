/-!
# Records as text

Values are described by the name of their type and their fields in braces. Three points at the
end say that there is more to the value than what is shown.
-/

namespace Palette.Text

/-- A field with its name. -/
def field (name value : String) : String := name ++ ": " ++ value

/-- A described value whose fields are all shown. -/
def record (name : String) (fields : List String) : String :=
  name ++ " \x7b " ++ ", ".intercalate fields ++ " \x7d"

/-- A described value with more to it than the fields shown. -/
def openRecord (name : String) (fields : List String) : String :=
  record name (fields ++ [".."])

/-- The elements between brackets. -/
def bracketed (elements : List String) : String := "[" ++ ", ".intercalate elements ++ "]"

/-- An optional value, named when present. -/
def optional : Option String → String
  | some text => "Some(" ++ text ++ ")"
  | none => "None"

/-- A truth value. -/
def truth (b : Bool) : String := if b then "true" else "false"

end Palette.Text
