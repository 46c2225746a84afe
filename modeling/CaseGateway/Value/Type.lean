/-
The types of variable values and their tags.

The set is closed.  A tag is read without regard to the case of ASCII letters, and the
binary type goes by two names; written, every type has one tag.
-/
import CaseGateway.Number.Sized
import CaseGateway.Text.Ascii

namespace CaseGateway

/-- The declared type of a variable value. -/
inductive ValueType
  | null
  | string
  | boolean
  | integral (w : IntWidth)
  | double
  | date
  | bytes
  | object
  /-- An object in the engine's own serialization format. -/
  | serializable
  deriving DecidableEq, Repr

namespace ValueType

/-- The tag written for a type. -/
def tag : ValueType → String
  | .null => "Null"
  | .string => "String"
  | .boolean => "Boolean"
  | .integral .short => "Short"
  | .integral .integer => "Integer"
  | .integral .long => "Long"
  | .double => "Double"
  | .date => "Date"
  | .bytes => "byte[]"
  | .object => "Object"
  | .serializable => "Serializable"

/-- The tags that are understood, in lower case, each with its type. -/
def tags : List (String × ValueType) :=
  [("null", .null), ("string", .string), ("boolean", .boolean), ("short", .integral .short),
    ("integer", .integral .integer), ("long", .integral .long), ("double", .double),
    ("date", .date), ("bytes", .bytes), ("byte[]", .bytes), ("object", .object),
    ("serializable", .serializable)]

/-- The type a tag names. -/
def ofTag? (tag : String) : Option ValueType :=
  (tags.find? (·.1 == Text.lower tag)).map (·.2)

end ValueType

end CaseGateway
