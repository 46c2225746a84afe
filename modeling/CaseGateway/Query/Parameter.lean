/-
Single parameters of a query.

A parameter is a text from a query string or a document from a body.  What a filter
wants to see of it does not depend on where it came from: a list is a text with commas
or an array, a number is a number or its text.
-/
import CaseGateway.Failure
import CaseGateway.Json.Printer
import CaseGateway.Text.Pieces
import CaseGateway.Timestamp.Text

namespace CaseGateway

/-- The value of a parameter as it was given. -/
inductive Parameter
  | text (s : String)
  | json (j : Json)

namespace Parameter

/-- The text of a scalar document. -/
def scalarText? : Json → Option String
  | .string s => some s
  | .number n => some n.text
  | .bool b => some (toString b)
  | _ => none

/-- The parameter as a text; arrays, objects and null have none. -/
def toText? : Parameter → Option String
  | .text s => some s
  | .json j => scalarText? j

/-- The items of a text with commas between them; empty ones do not count. -/
def splitItems (s : String) : List String :=
  (Text.split ',' s).filter (!·.isEmpty)

/-- The parameter as a list of texts, without empty ones. -/
def toList? : Parameter → Option (List String)
  | .json (.array items) => (items.mapM scalarText?).map fun texts => texts.filter (!·.isEmpty)
  | p => p.toText?.map splitItems

/-- The parameter as a truth value. -/
def toBool? (p : Parameter) : Option Bool :=
  match p.toText? with
  | some "true" => some true
  | some "false" => some false
  | _ => none

/-- The parameter as an integer of 32 bits. -/
def toInteger? : Parameter → Option (SizedInt .integer)
  | .json (.number n) => n.toSized? .integer
  | p => p.toText?.bind (SizedInt.ofText? .integer)

/-- The parameter as a timestamp. -/
def toTimestamp? (p : Parameter) : Option Timestamp :=
  p.toText?.bind Timestamp.parse?

/-- The parameter as it is shown in messages. -/
def shown : Parameter → String
  | .text s => s
  | .json (.string s) => s
  | .json j => j.text

/-- That a parameter is not what is wanted of it. -/
def conversionError (name : String) (p : Parameter) : RestError :=
  .invalidRequest (.parameter name p.shown)

/-- One of the views of a parameter, or the error that it has none. -/
def require {α : Type} (name : String) (p : Parameter) (view : Parameter → Option α) :
    Except RestError α :=
  match view p with
  | some a => .ok a
  | none => .error (conversionError name p)

end Parameter

end CaseGateway
