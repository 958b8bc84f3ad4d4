namespace AddonExchange

/-- Causes for which a settings value is refused. -/
inductive Issue.Cause where
  | notSection (name : String)
  | notInteger
  | unreadableInteger
  | oversizedInteger
  | fractionalInteger
  | notFinite
  | notAbove (bound : Int)
  | notAtLeast (bound : Int)
  | notBelow (bound : Int)
  | notBoolean
  | unreadableBoolean
  | notText
  | undecodableText
  | notAmong (choices : List String)
deriving DecidableEq

/-- A cause together with the keys that lead to the value. -/
structure Issue where
  cause : Issue.Cause
  location : List String := []
deriving DecidableEq

namespace Issue

/-- Words in quotes, the last two joined by a word and the others by commas. -/
def listing : List String → String
  | [] => ""
  | [only] => "'" ++ only ++ "'"
  | [first, last] => "'" ++ first ++ "' or '" ++ last ++ "'"
  | first :: rest => "'" ++ first ++ "', " ++ listing rest

namespace Cause

def code : Cause → String
  | notSection _ => "model_type"
  | notInteger => "int_type"
  | unreadableInteger => "int_parsing"
  | oversizedInteger => "int_parsing_size"
  | fractionalInteger => "int_from_float"
  | notFinite => "finite_number"
  | notAbove _ => "greater_than"
  | notAtLeast _ => "greater_than_equal"
  | notBelow _ => "less_than"
  | notBoolean => "bool_type"
  | unreadableBoolean => "bool_parsing"
  | notText => "string_type"
  | undecodableText => "string_unicode"
  | notAmong _ => "literal_error"

def message : Cause → String
  | notSection name => "Input should be a valid dictionary or instance of " ++ name
  | notInteger => "Input should be a valid integer"
  | unreadableInteger => "Input should be a valid integer, unable to parse string as an integer"
  | oversizedInteger => "Unable to parse input string as an integer, exceeded maximum size"
  | fractionalInteger => "Input should be a valid integer, got a number with a fractional part"
  | notFinite => "Input should be a finite number"
  | notAbove bound => "Input should be greater than " ++ toString bound
  | notAtLeast bound => "Input should be greater than or equal to " ++ toString bound
  | notBelow bound => "Input should be less than " ++ toString bound
  | notBoolean => "Input should be a valid boolean"
  | unreadableBoolean => "Input should be a valid boolean, unable to interpret input"
  | notText => "Input should be a valid string"
  | undecodableText =>
    "Input should be a valid string, unable to parse raw data as a unicode string"
  | notAmong choices => "Input should be " ++ listing choices

end Cause

/-- The same issue one key further out. -/
def below (key : String) (issue : Issue) : Issue := ⟨issue.cause, key :: issue.location⟩

end Issue

/-- A value, or everything that is wrong with what it was to be read from. -/
abbrev Checked (α : Type) := Except (List Issue) α

namespace Checked

/-- One issue at the value itself. -/
def fail {α : Type} (cause : Issue.Cause) : Checked α := .error [⟨cause, []⟩]

/-- Two checks, both made; the issues of the first come first. -/
def both {α β : Type} : Checked α → Checked β → Checked (α × β)
  | .ok first, .ok second => .ok (first, second)
  | .error issues, .ok _ => .error issues
  | .ok _, .error issues => .error issues
  | .error issues, .error more => .error (issues ++ more)

end Checked

end AddonExchange
