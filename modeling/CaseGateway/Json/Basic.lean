/-
JSON documents.

A number is an integer between -2⁶³ and 2⁶⁴ - 1 or a finite double; nothing else has a
literal.  The members of an object stand in the order in which they are written: a
document that was read has them in ascending order of their names.
-/
import CaseGateway.Dictionary
import CaseGateway.Number.Rounding
import CaseGateway.Number.Sized

namespace CaseGateway

/-- A number of a JSON document. -/
inductive Number
  | integer (n : Int) (inRange : -0x8000000000000000 ≤ n ∧ n < 0x10000000000000000)
  | double (d : Double) (finite : d.isFinite)
  deriving DecidableEq

/-- A JSON document. -/
inductive Json
  | null
  | bool (b : Bool)
  | number (n : Number)
  | string (s : String)
  | array (items : List Json)
  | object (members : List (String × Json))

namespace Number

theorem inRange_of_fits {w : IntWidth} {n : Int} (h : w.Fits n) :
    -0x8000000000000000 ≤ n ∧ n < 0x10000000000000000 := by
  cases w <;> simp only [IntWidth.Fits, IntWidth.half] at h <;> omega

/-- The number of a fixed-width integer. -/
def ofSized {w : IntWidth} (n : SizedInt w) : Number :=
  .integer n.val (inRange_of_fits n.fits)

/-- The number as an integer of the given width: doubles have none, even whole ones. -/
def toSized? (w : IntWidth) : Number → Option (SizedInt w)
  | .integer n _ => SizedInt.ofInt? w n
  | .double _ _ => none

/-- The number as a double, the nearest one for an integer. -/
def toDouble : Number → Double
  | .integer n _ => .ofRank (n < 0) (Double.nearestRank n.natAbs 1)
  | .double d _ => d

end Number

namespace Json

instance : Inhabited Json := ⟨.null⟩

/-- The document of an optional text. -/
def ofText? : Option String → Json
  | some s => .string s
  | none => .null

/-- The object of a dictionary. -/
def ofDictionary (d : Dictionary Json) : Json :=
  .object d.entries

/-- What kind of value a document is, in words. -/
def kind : Json → String
  | .null => "null"
  | .bool _ => "boolean"
  | .number _ => "number"
  | .string _ => "string"
  | .array _ => "array"
  | .object _ => "object"

/-- The value of the member of the given name, for a list of members. -/
def member? (members : List (String × Json)) (name : String) : Option Json :=
  (members.find? (·.1 == name)).map (·.2)

end Json

end CaseGateway
