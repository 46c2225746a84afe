/-
Values of variables.

A value keeps its declared type even where there is no value: a null of type `Integer`
is another value than a null of type `String`.  Objects are never looked into, they are
kept in the serialized form in which they came.
-/
import CaseGateway.Json.Basic
import CaseGateway.Text.Utf8
import CaseGateway.Timestamp.Basic
import CaseGateway.Value.Format
import CaseGateway.Value.Type

namespace CaseGateway

/-- An object in serialized form. -/
structure ObjectValue where
  /-- Nothing for a null, or where the payload was not fetched. -/
  data : Option Bytes
  format : Option String
  typeName : Option String
  /-- What the engine reports about the serializer. -/
  configuration : Dictionary Json

/-- Whether the object is in the engine's own format. -/
def ObjectValue.isNative (o : ObjectValue) : Bool :=
  o.format == some DataFormats.native

/-- A value together with its type. -/
inductive TypedValue
  | null
  | string (s : Option String)
  | boolean (b : Option Bool)
  | integral (w : IntWidth) (n : Option (SizedInt w))
  | double (d : Option Double)
  | date (t : Option Timestamp)
  | bytes (bs : Option Bytes)
  | object (o : ObjectValue)

namespace TypedValue

instance : Inhabited TypedValue := ⟨.null⟩

/-- The type of a value. -/
def type : TypedValue → ValueType
  | .null => .null
  | .string _ => .string
  | .boolean _ => .boolean
  | .integral w _ => .integral w
  | .double _ => .double
  | .date _ => .date
  | .bytes _ => .bytes
  | .object o => if o.isNative then .serializable else .object

/-- Whether there is no value, with or without a type. -/
def isNull : TypedValue → Bool
  | .null => true
  | .string s => s.isNone
  | .boolean b => b.isNone
  | .integral _ n => n.isNone
  | .double d => d.isNone
  | .date t => t.isNone
  | .bytes bs => bs.isNone
  | .object o => o.data.isNone

/-- The value in the precision in which it travels: dates are cut to whole seconds. -/
def normalized : TypedValue → TypedValue
  | .date (some t) => .date (some t.wholeSecond)
  | v => v

/-- The value without the content of a byte array. -/
def withoutBytes : TypedValue → TypedValue
  | .bytes _ => .bytes none
  | v => v

end TypedValue

/-- Why there is no binary content to hand out. -/
inductive BinaryAccessError
  | missing
  | notBinary
  deriving DecidableEq, Repr

/-- The wording of a failed access. -/
def BinaryAccessError.message : BinaryAccessError → String
  | .missing => "variable does not exist"
  | .notBinary => "variable does not hold binary content"

/-- The bytes behind a byte array or an object; a null has none of them, but is one. -/
def binaryContent : Option TypedValue → Except BinaryAccessError Bytes
  | none => .error .missing
  | some (.bytes bs) => .ok (bs.getD [])
  | some (.object o) => .ok (o.data.getD [])
  | some _ => .error .notBinary

end CaseGateway
