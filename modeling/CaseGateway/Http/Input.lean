/-
What requests say: query strings and bodies.
-/
import CaseGateway.Http.Message
import CaseGateway.Json.Reader
import CaseGateway.Query.Parameters
import CaseGateway.Text.Percent
import CaseGateway.Value.Wire

namespace CaseGateway.Http

/-- The blanks that leave a body empty. -/
def isBodyBlank (b : UInt8) : Bool :=
  b == 0x20 || b == 0x09 || b == 0x0A || b == 0x0C || b == 0x0D

/-- The fault of a body that cannot be read. -/
def bodyFault : RestError := .invalidRequest .body

namespace Request

/-- The parameters in the query string. -/
def parameters (r : Request) : Except RestError Parameters :=
  Parameters.ofPairs (Text.formPairs r.queryString)

/-- The document in the body; null if there is nothing but blanks. -/
def document (r : Request) : Except RestError Json :=
  if r.body.all isBodyBlank then .ok .null
  else
    match Json.ofBytes? r.body with
    | some j => .ok j
    | none => .error bodyFault

/-- The parameters in the body, with paging from the query string where it has any. -/
def bodyParameters (r : Request) : Except RestError Parameters := do
  let fromQuery ← r.parameters
  let fromBody ← Parameters.ofBody (← r.document)
  return fromBody.withPagingFrom fromQuery

/-- What the body is read as, with a default for null. -/
def read {α : Type} (r : Request) (default : α) (read? : Json → Option α) : Except RestError α := do
  match ← r.document with
  | .null => return default
  | j =>
    match read? j with
    | some a => return a
    | none => throw bodyFault

end Request

/-! ### Changes to the variables of a case execution -/

/-- Variables to be set and names to be removed.  Nothing is another thing than none. -/
structure PatchBody where
  modifications : Option (Dictionary WireValue)
  deletions : Option (List String)

namespace PatchBody

/-- No changes. -/
def empty : PatchBody := ⟨none, none⟩

/-- The changes a document asks for. -/
def ofJson? (j : Json) : Option PatchBody := do
  let members ← j.recordMembers? ["modifications", "deletions"]
  let modifications ←
    Json.optional (Json.toEntries? WireValue.ofJson?) (Json.member? members "modifications")
  let deletions ← Json.optional (Json.toList? Json.toText?) (Json.member? members "deletions")
  return ⟨modifications, deletions⟩

end PatchBody

/-- Changes that go with a transition, each of them marked as local or not. -/
structure TriggerBody where
  settings : Dictionary (WireValue × Bool)
  deletions : List (String × Bool)

namespace TriggerBody

/-- No changes. -/
def empty : TriggerBody := ⟨.empty, []⟩

/-- The mark of a change; it is not local where nothing is said. -/
def localMark? (members : List (String × Json)) : Option Bool :=
  Json.orDefault false Json.toBool? (Json.member? members "local")

/-- A variable to be set, which has to be an object. -/
def setting? : Json → Option (WireValue × Bool)
  | .object members => do return (← WireValue.ofMembers? members, ← localMark? members)
  | _ => none

/-- A name to be removed. -/
def deletion? (j : Json) : Option (String × Bool) := do
  let members ← j.recordMembers? ["name", "local"]
  return (← Json.toText? (← Json.member? members "name"), ← localMark? members)

/-- The changes a document asks for. -/
def ofJson? (j : Json) : Option TriggerBody := do
  let members ← j.recordMembers? ["variables", "deletions"]
  let settings ← Json.optional (Json.toEntries? setting?) (Json.member? members "variables")
  let deletions ← Json.optional (Json.toList? deletion?) (Json.member? members "deletions")
  return ⟨settings.getD .empty, deletions.getD []⟩

end TriggerBody

end CaseGateway.Http
