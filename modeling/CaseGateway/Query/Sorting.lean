/-
Sort keys and directions.

A sort table maps the keys a client may name to what they stand for.  It keeps the order
in which keys were first registered; registering a key again replaces what it stands for
and leaves it in its place.
-/
import CaseGateway.Failure

namespace CaseGateway

/-- The direction of a sorting. -/
inductive SortOrder
  | asc
  | desc
  deriving DecidableEq, Repr

namespace SortOrder

/-- The name of a direction. -/
def name : SortOrder → String
  | .asc => "asc"
  | .desc => "desc"

/-- The direction of a name. -/
def parse? : String → Option SortOrder
  | "asc" => some .asc
  | "desc" => some .desc
  | _ => none

end SortOrder

/-- Sort keys with what they stand for. -/
structure SortTable (γ : Type) where
  entries : List (String × γ)

namespace SortTable

variable {γ : Type}

/-- The table without keys. -/
def empty : SortTable γ := ⟨[]⟩

/-- Puts an entry at the place of its key, or at the end. -/
def registerEntry (key : String) (call : γ) : List (String × γ) → List (String × γ)
  | [] => [(key, call)]
  | e :: es => if e.1 = key then (key, call) :: es else e :: registerEntry key call es

/-- Registers a key. -/
def register (table : SortTable γ) (key : String) (call : γ) : SortTable γ :=
  ⟨registerEntry key call table.entries⟩

/-- Registers keys one after the other. -/
def ofList (entries : List (String × γ)) : SortTable γ :=
  entries.foldl (fun table e => table.register e.1 e.2) empty

/-- What a key stands for. -/
def resolve? (table : SortTable γ) (key : String) : Option γ :=
  (table.entries.find? (·.1 == key)).map (·.2)

/-- The keys in the order of their first registration. -/
def keys (table : SortTable γ) : List String :=
  table.entries.map (·.1)

/-- Whether there are no keys. -/
def isEmpty (table : SortTable γ) : Bool :=
  table.entries.isEmpty

/-- What the two sorting parameters ask for: nothing, or a key with a direction. -/
def select (table : SortTable γ) : (sortBy sortOrder : Option String) →
    Except RestError (Option (γ × SortOrder))
  | none, none => .ok none
  | some key, some order =>
    match table.resolve? key with
    | none => .error (.invalidRequest (.sortKey key))
    | some call =>
      match SortOrder.parse? order with
      | none => .error (.invalidRequest (.sortOrder order))
      | some direction => .ok (some (call, direction))
  | _, _ => .error (.invalidRequest .loneSortParameter)

end SortTable

end CaseGateway
