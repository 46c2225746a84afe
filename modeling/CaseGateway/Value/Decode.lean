/-
Reading values from their wire form.

With a tag the value is read as that type or not at all; nothing is converted from a
type that the tag does not name, apart from scalars that spell the value out.  Without a
tag the kind of JSON decides.
-/
import CaseGateway.Json.Printer
import CaseGateway.Text.Base64
import CaseGateway.Timestamp.Text
import CaseGateway.Value.Basic
import CaseGateway.Value.Error
import CaseGateway.Value.Wire

namespace CaseGateway

namespace TypedValue

/-- The value that untyped JSON stands for: an integer is taken for the narrower of the two
wider widths that holds it, and for a double beyond them. -/
def infer : Json → Except ValueError TypedValue
  | .null => .ok .null
  | .bool b => .ok (.boolean (some b))
  | .string s => .ok (.string (some s))
  | .number n =>
    match n.toSized? .integer, n.toSized? .long with
    | some i, _ => .ok (.integral .integer (some i))
    | none, some l => .ok (.integral .long (some l))
    | none, none => .ok (.double (some n.toDouble))
  | j@(.array _) | j@(.object _) => .error (.untyped j.kind)

/-- A text, or the text of a number or a truth value. -/
def decodeString : Json → Except ValueError (Option String)
  | .null => .ok none
  | .string s => .ok (some s)
  | .number n => .ok (some n.text)
  | .bool b => .ok (some (toString b))
  | j => .error (.shapeMismatch .string j.kind)

/-- A truth value, or its name in any letter case. -/
def decodeBoolean : Json → Except ValueError (Option Bool)
  | .null => .ok none
  | .bool b => .ok (some b)
  | .string s =>
    if Text.sameLetters s "true" then .ok (some true)
    else if Text.sameLetters s "false" then .ok (some false)
    else .error (.shapeMismatch .boolean (Json.string s).kind)
  | j => .error (.shapeMismatch .boolean j.kind)

/-- An integer of the given width, or its decimal text. -/
def decodeIntegral (w : IntWidth) : Json → Except ValueError (Option (SizedInt w))
  | .null => .ok none
  | .string s =>
    match SizedInt.ofText? w s with
    | some n => .ok (some n)
    | none => .error (.numberFormat s)
  | .number n =>
    match n.toSized? w with
    | some i => .ok (some i)
    | none => .error (.numberFormat n.text)
  | j => .error (.shapeMismatch (.integral w) j.kind)

/-- Any number, or the text of a double. -/
def decodeDouble : Json → Except ValueError (Option Double)
  | .null => .ok none
  | .string s =>
    match Double.ofText? s with
    | some d => .ok (some d)
    | none => .error (.numberFormat s)
  | .number n => .ok (some n.toDouble)
  | j => .error (.shapeMismatch .double j.kind)

/-- The text of a timestamp. -/
def decodeDate : Json → Except ValueError (Option Timestamp)
  | .null => .ok none
  | .string s =>
    match Timestamp.parse? s with
    | some t => .ok (some t)
    | none => .error (.dateFormat s)
  | j => .error (.dateFormat j.text)

/-- The bytes of a base64 text. -/
def decodeBase64 (s : String) : Except ValueError Bytes :=
  (Base64.decode s).mapError fun fault => .base64 fault.message

/-- A byte array in base64. -/
def decodeBytes : Json → Except ValueError (Option Bytes)
  | .null => .ok none
  | .string s => (decodeBase64 s).map some
  | j => .error (.shapeMismatch .bytes j.kind)

end TypedValue

namespace DataFormats

/-- The canonical name of a format that has to be in use. -/
def require (formats : DataFormats) (name : String) : Except ValueError String :=
  match formats.resolve? name with
  | some canonicalName => .ok canonicalName
  | none => .error (.unrecognizedFormat name)

/-- The format an object is in: the declared one, or the one its type implies. -/
def formatOf (formats : DataFormats) (type : ValueType) (info : Dictionary Json) :
    Except ValueError String :=
  match info.get? WireValue.serializationDataFormat with
  | some (.string declared) => formats.require declared
  | none | some .null =>
    if type = .serializable then formats.require native else .ok formats.standard
  | some j => .error (.unrecognizedFormat j.text)

/-- The payload of an object: base64 in the engine's own format, a text as it is, and the text of
any other document where the format allows for it. -/
def payloadOf (format : String) (type : ValueType) : Json → Except ValueError (Option Bytes)
  | .null => .ok none
  | .string s =>
    if format = native then (TypedValue.decodeBase64 s).map some
    else .ok (some (Text.toUtf8 s))
  | j@(.array _) | j@(.object _) =>
    if format = json then .ok (some (Text.toUtf8 j.text))
    else .error (.shapeMismatch type j.kind)
  | j => .ok (some (Text.toUtf8 j.text))

/-- The object a wire form stands for. -/
def decodeObject (formats : DataFormats) (type : ValueType) (w : WireValue) :
    Except ValueError TypedValue := do
  let format ← formats.formatOf type w.info
  let data ← payloadOf format type w.value
  return .object
    { data
      format := some format
      typeName := (w.info.get? WireValue.objectTypeName).bind Json.toText?
      configuration := .empty }

/-- The value of the given type that a wire form stands for. -/
def decodeAs (formats : DataFormats) (w : WireValue) : ValueType → Except ValueError TypedValue
  | .null =>
    match w.value with
    | .null => .ok .null
    | j => .error (.shapeMismatch .null j.kind)
  | .string => (TypedValue.decodeString w.value).map .string
  | .boolean => (TypedValue.decodeBoolean w.value).map .boolean
  | .integral width => (TypedValue.decodeIntegral width w.value).map (.integral width)
  | .double => (TypedValue.decodeDouble w.value).map .double
  | .date => (TypedValue.decodeDate w.value).map .date
  | .bytes => (TypedValue.decodeBytes w.value).map .bytes
  | .object => formats.decodeObject .object w
  | .serializable => formats.decodeObject .serializable w

/-- The value a wire form stands for. -/
def decode (formats : DataFormats) (w : WireValue) : Except ValueError TypedValue :=
  match w.typeTag with
  | none => TypedValue.infer w.value
  | some tag =>
    match ValueType.ofTag? tag with
    | none => .error (.unsupportedType tag)
    | some type => formats.decodeAs w type

/-- The value of an upload: a byte array, or with a type name an object in the format that its
content type names. -/
def decodeUpload (formats : DataFormats) (payload : Bytes) (typeName contentType : Option String) :
    Except ValueError TypedValue :=
  match typeName with
  | none => .ok (.bytes (some payload))
  | some typeName => do
    let format ← match contentType with
      | some name => formats.require name
      | none => .ok formats.standard
    return .object
      { data := some payload, format := some format, typeName := some typeName,
        configuration := .empty }

end DataFormats

end CaseGateway
