/-
Writing values in their wire form.

Two options hold back what a reader may not want: the content of byte arrays, and the
decoded form of objects.  Neither touches the tag, the information on the type or the
stored payload.
-/
import CaseGateway.Json.Reader
import CaseGateway.Text.Base64
import CaseGateway.Timestamp.Text
import CaseGateway.Value.Basic
import CaseGateway.Value.Wire

namespace CaseGateway

/-- What is written of a value beside its type. -/
structure EncodeOptions where
  /-- Whether byte arrays are written with their content. -/
  binaryFetching : Bool
  /-- Whether objects are written in decoded form. -/
  objectDeserialization : Bool
  deriving DecidableEq, Repr

namespace EncodeOptions

/-- Everything is written. -/
def full : EncodeOptions := ⟨true, true⟩

instance : Inhabited EncodeOptions := ⟨full⟩

end EncodeOptions

/-- The number of a count; counts beyond 64 bits do not occur. -/
def Number.count (n : Nat) : Number :=
  .integer (min n 0xFFFFFFFFFFFFFFFF : Nat) (by omega)

namespace TypedValue

/-- A double in JSON: a number, or the name of one that is not finite. -/
def doubleJson (d : Double) : Json :=
  if h : d.isFinite then .number (.double d h)
  else if d.isNaN then .string "NaN"
  else if d.negative then .string "-Infinity"
  else .string "Infinity"

/-- What stands for a value other than an object. -/
def scalarJson (options : EncodeOptions) : TypedValue → Json
  | .string (some s) => .string s
  | .boolean (some b) => .bool b
  | .integral _ (some n) => .number (.ofSized n)
  | .double (some d) => doubleJson d
  | .date (some t) => .string t.text
  | .bytes (some bs) => if options.binaryFetching then .string (Base64.encode bs) else .null
  | _ => .null

end TypedValue

namespace ObjectValue

/-- The information on an object's type. -/
def info (o : ObjectValue) : Dictionary Json :=
  .ofList <|
    (o.typeName.map fun name => (WireValue.objectTypeName, Json.string name)).toList ++
      (o.format.map fun name => (WireValue.serializationDataFormat, Json.string name)).toList

/-- What stands for an object in the engine's own format, whose payload stays with the engine. -/
def descriptor (o : ObjectValue) (data : Bytes) : Json :=
  .object
    [("byteLength", .number (.count data.length)),
      ("objectTypeName", .ofText? o.typeName),
      ("serializationDataFormat", .ofText? o.format)]

/-- The document or the text that a payload of another format holds. -/
def content (o : ObjectValue) (data : Bytes) : Json :=
  let text := Json.string (Text.ofUtf8Lossy data)
  if o.format = some DataFormats.json then (Json.ofBytes? data).getD text else text

/-- An object in its wire form. -/
def encode (options : EncodeOptions) (o : ObjectValue) : WireValue :=
  let tag := (TypedValue.object o).type.tag
  match o.data with
  | none => ⟨.null, some tag, o.info, none⟩
  | some data =>
    let shown (j : Json) : Json := if options.objectDeserialization then j else .null
    if o.isNative then ⟨shown (o.descriptor data), some tag, o.info, none⟩
    else
      ⟨shown (o.content data), some tag, o.info,
        some ⟨.string (Text.ofUtf8Lossy data), o.configuration⟩⟩

end ObjectValue

/-- A value in its wire form. -/
def TypedValue.encode (options : EncodeOptions) : TypedValue → WireValue
  | .object o => o.encode options
  | v => ⟨v.scalarJson options, some v.type.tag, .empty, none⟩

end CaseGateway
