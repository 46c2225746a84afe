/-
Why a value could not be read.
-/
import CaseGateway.Value.Type

namespace CaseGateway

/-- Why a value on the wire has no meaning. -/
inductive ValueError
  /-- A number that is malformed or does not fit its type. -/
  | numberFormat (text : String)
  | dateFormat (text : String)
  /-- Malformed base64, with the fault in words. -/
  | base64 (fault : String)
  | unsupportedType (tag : String)
  | unrecognizedFormat (name : String)
  /-- A kind of JSON that no value of the type is written as. -/
  | shapeMismatch (type : ValueType) (found : String)
  /-- A kind of JSON that tells no type by itself. -/
  | untyped (found : String)
  deriving DecidableEq, Repr

namespace ValueError

/-- The wording of an error. -/
def message : ValueError → String
  | .numberFormat text => "number format exception: For input string: \"" ++ text ++ "\""
  | .dateFormat text => "parse exception: Unparseable date: \"" ++ text ++ "\""
  | .base64 fault => "base64 decode exception: " ++ fault
  | .unsupportedType tag => "The variable type '" ++ tag ++ "' is not supported."
  | .unrecognizedFormat name => "Unrecognized serialization data format: " ++ name
  | .shapeMismatch type found =>
    "Cannot convert a JSON " ++ found ++ " to a value of type " ++ type.tag
  | .untyped found =>
    "Cannot infer the type of a JSON " ++ found ++ "; declare the variable type explicitly"

/-- Whether the kind of JSON was right and only the text in it was not. -/
def isParseFailure : ValueError → Bool
  | .numberFormat _ | .dateFormat _ | .base64 _ => true
  | _ => false

/-- The wording of an error in the value of a named variable. -/
def describeFor (e : ValueError) (name : String) : String :=
  if e.isParseFailure then name ++ " due to " ++ e.message else name ++ ": " ++ e.message

end ValueError

end CaseGateway
