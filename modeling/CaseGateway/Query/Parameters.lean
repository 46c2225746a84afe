/-
The parameters of a query.

Four names are set apart for paging and sorting; all others belong to filters.  The
parameters are taken in ascending order of their names, so which of several faults is
reported does not depend on the order in which they came.
-/
import CaseGateway.Query.Parameter

namespace CaseGateway

/-- The parameters of a query. -/
structure Parameters where
  filters : Dictionary Parameter
  firstResult : Option (SizedInt .integer)
  maxResults : Option (SizedInt .integer)
  sortBy : Option String
  sortOrder : Option String

namespace Parameters

/-- No parameters. -/
def empty : Parameters := ⟨.empty, none, none, none, none⟩

instance : Inhabited Parameters := ⟨empty⟩

/-- Adds a parameter under its name. -/
def add (ps : Parameters) (name : String) (p : Parameter) : Except RestError Parameters :=
  if name = "firstResult" then do
    return { ps with firstResult := some (← p.require name Parameter.toInteger?) }
  else if name = "maxResults" then do
    return { ps with maxResults := some (← p.require name Parameter.toInteger?) }
  else if name = "sortBy" then do
    return { ps with sortBy := some (← p.require name Parameter.toText?) }
  else if name = "sortOrder" then do
    return { ps with sortOrder := some (← p.require name Parameter.toText?) }
  else .ok { ps with filters := ps.filters.insert name p }

/-- The parameters of a dictionary. -/
def ofDictionary (d : Dictionary Parameter) : Except RestError Parameters :=
  d.entries.foldlM (fun ps e => ps.add e.1 e.2) empty

/-- The parameters of a query string; of several with one name the first counts. -/
def ofPairs (pairs : List (String × String)) : Except RestError Parameters :=
  ofDictionary (.ofList (pairs.reverse.map fun e => (e.1, .text e.2)))

/-- The parameters of a body, in which null stands for nothing. -/
def ofBody : Json → Except RestError Parameters
  | .null => .ok empty
  | .object members =>
    let present := (Dictionary.ofList members).entries.filter fun e =>
      match e.2 with
      | .null => false
      | _ => true
    ofDictionary (.ofList (present.map fun e => (e.1, .json e.2)))
  | j => .error (.invalidRequest (.notAnObject j.text))

/-- These parameters, with the paging of others where they have any. -/
def withPagingFrom (ps other : Parameters) : Parameters :=
  { ps with
    firstResult := other.firstResult.or ps.firstResult
    maxResults := other.maxResults.or ps.maxResults }

/-- The parameter of a filter. -/
def get? (ps : Parameters) (name : String) : Option Parameter :=
  ps.filters.get? name

/-- A truth value that is no filter, with a default. -/
def switch (ps : Parameters) (name : String) (default : Bool) : Except RestError Bool :=
  match ps.get? name with
  | none => .ok default
  | some p => p.require name Parameter.toBool?

/-- Whether objects are wanted in decoded form. -/
def deserializeValues (ps : Parameters) : Except RestError Bool :=
  ps.switch "deserializeValues" true

/-- Whether only a page of the rows is wanted. -/
def isPaged (ps : Parameters) : Bool :=
  ps.firstResult.isSome || ps.maxResults.isSome

end Parameters

end CaseGateway
