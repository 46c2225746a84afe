/-
The JSON form in which values travel.

The form is a record of a value, a type tag, further information on the type, and for
objects the serialized payload.  Written, the parts stand in this order and empty ones
are left out.  Read, a record is an object with its members in any order, or an array
with the parts in the order of the record.
-/
import CaseGateway.Json.Basic

namespace CaseGateway

/-! ### Records in JSON -/

namespace Json

/-- The members of a record with the given fields: those of an object, or the items of an array
that is not too long, named in order. -/
def recordMembers? (fields : List String) : Json → Option (List (String × Json))
  | .object members => some members
  | .array items => if items.length ≤ fields.length then some (fields.zip items) else none
  | _ => none

/-- A part that may be missing or null. -/
def optional {α : Type} (read : Json → Option α) : Option Json → Option (Option α)
  | none | some .null => some none
  | some j => (read j).map some

/-- A part that takes a default when it is missing, but may not be null. -/
def orDefault {α : Type} (default : α) (read : Json → Option α) : Option Json → Option α
  | none => some default
  | some j => read j

/-- The text of a string. -/
def toText? : Json → Option String
  | .string s => some s
  | _ => none

/-- The truth value of a literal. -/
def toBool? : Json → Option Bool
  | .bool b => some b
  | _ => none

/-- The members of an object as a dictionary. -/
def toDictionary? : Json → Option (Dictionary Json)
  | .object members => some (.ofList members)
  | _ => none

/-- The items of an array, each read in the same way. -/
def toList? {α : Type} (read : Json → Option α) : Json → Option (List α)
  | .array items => items.mapM read
  | _ => none

/-- The members of an object, their values each read in the same way. -/
def toEntries? {α : Type} (read : Json → Option α) : Json → Option (Dictionary α)
  | .object members =>
    (members.mapM fun (m : String × Json) => (read m.2).map fun a => (m.1, a)).map Dictionary.ofList
  | _ => none

end Json

/-! ### The wire form of a value -/

/-- The payload of an object as it is stored. -/
structure SerializedPayload where
  value : Json
  configuration : Dictionary Json

/-- A value as it travels. -/
structure WireValue where
  value : Json
  typeTag : Option String
  info : Dictionary Json
  serialized : Option SerializedPayload

namespace WireValue

/-- The name under which the information on a type holds the name of an object's type. -/
def objectTypeName : String := "objectTypeName"

/-- The name under which the information on a type holds an object's data format. -/
def serializationDataFormat : String := "serializationDataFormat"

/-- A record with nothing in it. -/
def empty : WireValue := ⟨.null, none, .empty, none⟩

instance : Inhabited WireValue := ⟨empty⟩

/-- The names of the parts, in order. -/
def fields : List String := ["value", "type", "valueInfo", "serializedValue"]

/-- The payload in JSON. -/
def payloadJson (p : SerializedPayload) : Json :=
  .object [("value", p.value), ("configuration", .ofDictionary p.configuration)]

/-- The members of the record in JSON. -/
def members (w : WireValue) : List (String × Json) :=
  [("value", w.value)] ++
    (w.typeTag.map fun tag => ("type", Json.string tag)).toList ++
    (if w.info.isEmpty then [] else [("valueInfo", .ofDictionary w.info)]) ++
    (w.serialized.map fun p => ("serializedValue", payloadJson p)).toList

/-- The record in JSON. -/
def toJson (w : WireValue) : Json :=
  .object w.members

/-- The payload a document holds. -/
def payloadOfJson? (j : Json) : Option SerializedPayload := do
  let members ← j.recordMembers? ["value", "configuration"]
  let value ← Json.member? members "value"
  let configuration ← Json.orDefault .empty Json.toDictionary? (Json.member? members "configuration")
  return ⟨value, configuration⟩

/-- The record that some members make up; members of other names are ignored. -/
def ofMembers? (members : List (String × Json)) : Option WireValue := do
  let tag ← Json.optional Json.toText? (Json.member? members "type")
  let info ← Json.orDefault .empty Json.toDictionary? (Json.member? members "valueInfo")
  let payload ← Json.optional payloadOfJson? (Json.member? members "serializedValue")
  return ⟨(Json.member? members "value").getD .null, tag, info, payload⟩

/-- The record a document holds. -/
def ofJson? (j : Json) : Option WireValue :=
  (j.recordMembers? fields).bind ofMembers?

end WireValue

end CaseGateway
