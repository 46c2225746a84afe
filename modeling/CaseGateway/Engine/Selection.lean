/-
What the calls on a query amount to.

A selection gathers the conditions and the completed orderings of a query.  A sort key
waits for its direction; a key that is followed by another key, a direction without a
key, and a key still waiting when the query is run are misuses, and a misused query
yields nothing but the error.
-/
import CaseGateway.Failure
import CaseGateway.Query.Call
import CaseGateway.Query.Spec

namespace CaseGateway

/-- How the ordering calls of a query can be misused. -/
inductive OrderingMisuse
  | directionWithoutKey
  | keyWithoutDirection
  deriving DecidableEq, Repr

/-- The error of a misused query. -/
def OrderingMisuse.error : OrderingMisuse → EngineError
  | .directionWithoutKey =>
    ⟨.badUserRequest, "Invalid query: You should call any of the orderBy methods first before " ++
      "specifying a direction"⟩
  | .keyWithoutDirection =>
    ⟨.badUserRequest, "Invalid query: call asc() or desc() after using orderByXX()"⟩

/-- What a query selects, and in which order. -/
structure Selection (χ ε κ : Type) where
  conditions : List (Condition χ ε)
  orderings : List (SortKey χ κ × SortOrder)
  /-- The sort key that waits for its direction. -/
  pending : Option (SortKey χ κ)
  /-- The latest misuse. -/
  misuse : Option OrderingMisuse
  binaryFetching : Bool

namespace Selection

variable {ρ χ ε κ : Type}

/-- The selection of a query on which nothing has been called. -/
def all : Selection χ ε κ := ⟨[], [], none, none, true⟩

/-- The selection after one more call.  Objects are kept serialized anyway, so that they are
not to be deserialized changes nothing. -/
def call (s : Selection χ ε κ) : QueryCall χ ε κ → Selection χ ε κ
  | .condition c => { s with conditions := s.conditions ++ [c] }
  | .orderBy key =>
    { s with
      pending := some key
      misuse := if s.pending.isSome then some .keyWithoutDirection else s.misuse }
  | .direction order =>
    match s.pending with
    | some key => { s with pending := none, orderings := s.orderings ++ [(key, order)] }
    | none => { s with misuse := some .directionWithoutKey }
  | .disableBinaryFetching => { s with binaryFetching := false }
  | .disableObjectDeserialization => s

/-- The selection of some calls. -/
def ofCalls (calls : List (QueryCall χ ε κ)) : Selection χ ε κ :=
  calls.foldl call all

/-- The misuse for which the query must not be run. -/
def fault? (s : Selection χ ε κ) : Option OrderingMisuse :=
  s.misuse.or (s.pending.map fun _ => .keyWithoutDirection)

variable [Queryable ρ χ ε κ]

/-- The order of two rows: that of the first ordering that tells them apart. -/
def compareRows (orderings : List (SortKey χ κ × SortOrder)) (a b : ρ) : Ordering :=
  orderings.foldr (fun o rest => (o.1.compareIn o.2 a b).then rest) .eq

/-- The rows that are selected, in order; rows that no ordering tells apart stay as they were. -/
def rows (s : Selection χ ε κ) (stored : List ρ) : List ρ :=
  let matching := stored.filter fun row => s.conditions.all fun c => c.holds row
  let sorted := matching.mergeSort fun a b => (compareRows s.orderings a b).isLE
  if s.binaryFetching then sorted else sorted.map Queryable.withoutBytes

/-- Runs the selection over the stored rows. -/
def run (s : Selection χ ε κ) (stored : List ρ) : Except EngineError (List ρ) :=
  match s.fault? with
  | some misuse => .error misuse.error
  | none => .ok (s.rows stored)

end Selection

/-- What a way of running a query makes of the selected rows.  Negative bounds of a page count as
zero. -/
def Execution.result {ρ α : Type} : Execution ρ α → List ρ → Except EngineError α
  | .list, rows => .ok rows
  | .page first max, rows => .ok ((rows.drop first.toNat).take max.toNat)
  | .count, rows => .ok rows.length
  | .single, rows =>
    match rows with
    | [] => .ok none
    | [row] => .ok (some row)
    | rows => .error (.ambiguous rows.length)

end CaseGateway
