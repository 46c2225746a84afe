/-
The data formats in which objects may be serialized.

Formats are media types.  Parameters, blanks around the type and the case of ASCII
letters do not matter: every name is brought into one canonical form before it is
stored or looked up.
-/
import CaseGateway.Dictionary
import CaseGateway.Text.Ascii
import CaseGateway.Text.Blank
import CaseGateway.Text.Pieces

namespace CaseGateway

/-- The data formats in use: a default for objects that declare none, and all of them. -/
structure DataFormats where
  standard : String
  names : Dictionary Unit

namespace DataFormats

/-- The format of JSON documents. -/
def json : String := "application/json"

/-- The format of XML documents. -/
def xml : String := "application/xml"

/-- The engine's own format, whose payloads are binary. -/
def native : String := "application/x-java-serialized-object"

/-- The format of plain text. -/
def plainText : String := "text/plain"

/-- The canonical form of a format name: what stands before a semicolon, without blanks at its
ends, in lower case. -/
def canonical (name : String) : String :=
  Text.lower (Text.trim (String.ofList (Text.cutAt ';' name.toList).1))

/-- The set of some names. -/
def namesOf (names : List String) : Dictionary Unit :=
  .ofList (names.map fun name => (name, ()))

/-- The formats in use where nothing is configured. -/
def builtIn : DataFormats :=
  ⟨json, namesOf [json, xml, native, plainText]⟩

instance : Inhabited DataFormats := ⟨builtIn⟩

/-- The formats of a list of names, the first being the default.  Empty names are skipped, and
without any other name the built-in formats are used. -/
def ofNames (names : List String) : DataFormats :=
  match (names.map canonical).filter (!·.isEmpty) with
  | [] => builtIn
  | first :: rest => ⟨first, namesOf (first :: rest)⟩

/-- The formats of a text with commas between the names. -/
def ofList (list : String) : DataFormats :=
  ofNames (Text.split ',' list)

/-- Whether a format is in use. -/
def supports (formats : DataFormats) (name : String) : Bool :=
  (formats.names.get? (canonical name)).isSome

/-- The canonical name of a format in use. -/
def resolve? (formats : DataFormats) (name : String) : Option String :=
  if formats.supports name then some (canonical name) else none

end DataFormats

end CaseGateway
