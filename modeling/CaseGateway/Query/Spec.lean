/-
What a resource can be queried for.

A specification turns parameters into calls on a query.  Its filters are bound in the
order in which they are declared, each one making its call or none; then comes the sort
key and its direction.  The calls are values: a plan lists those that are made, with
either what comes of it in the end or the first fault, which cuts the list short.
-/
import CaseGateway.Query.Parameters
import CaseGateway.Query.Sorting

namespace CaseGateway

/-- How a filter turns its parameter into a call. -/
inductive FilterSetter (γ : Type)
  | text (call : String → γ)
  /-- Makes no call for an empty list. -/
  | list (call : List String → γ)
  /-- Makes its call only when the parameter is true. -/
  | flag (call : γ)
  | date (call : Timestamp → γ)
  /-- Needs the parameter `partner` as well, whose value comes first in the call; `message`
  says so where it is missing. -/
  | paired (partner message : String) (call : String → String → γ)

/-- A filter under the name of its parameter. -/
structure Filter (γ : Type) where
  name : String
  setter : FilterSetter γ

/-- The call a filter makes, if any. -/
def Filter.bind {γ : Type} (f : Filter γ) (ps : Parameters) : Except RestError (Option γ) :=
  match ps.get? f.name with
  | none => .ok none
  | some p =>
    match f.setter with
    | .text call => do return some (call (← p.require f.name Parameter.toText?))
    | .list call => do
      let values ← p.require f.name Parameter.toList?
      return if values.isEmpty then none else some (call values)
    | .flag call => do return if ← p.require f.name Parameter.toBool? then some call else none
    | .date call => do return some (call (← p.require f.name Parameter.toTimestamp?))
    | .paired partner message call =>
      match ps.get? partner with
      | none => .error (.invalidRequest (.stated message))
      | some other => do
        let first ← other.require partner Parameter.toText?
        let second ← p.require f.name Parameter.toText?
        return some (call first second)

/-- Calls that are made, and what comes of them. -/
structure Plan (γ α : Type) where
  calls : List γ
  outcome : Except RestError α

namespace Plan

variable {γ α β : Type}

/-- A plan with further calls in front. -/
def after (calls : List γ) (p : Plan γ α) : Plan γ α :=
  ⟨calls ++ p.calls, p.outcome⟩

/-- A plan followed by another one, unless it fails. -/
def andThen (p : Plan γ α) (next : α → Plan γ β) : Plan γ β :=
  match p.outcome with
  | .error e => ⟨p.calls, .error e⟩
  | .ok a => (next a).after p.calls

end Plan

/-- The ways of running a query over rows `ρ`, each with what it yields. -/
inductive Execution (ρ : Type) : Type → Type
  | list : Execution ρ (List ρ)
  /-- At most `max` rows, the first `first` ones left out. -/
  | page (first max : Int) : Execution ρ (List ρ)
  | count : Execution ρ Nat
  /-- The only row, if there is one. -/
  | single : Execution ρ (Option ρ)

/-- The filters and sort keys of a resource, with the calls they stand for. -/
structure QuerySpec (γ : Type) where
  resource : String
  filters : List (Filter γ)
  sorting : SortTable γ
  /-- The call that gives the preceding sort key its direction. -/
  direction : SortOrder → γ

namespace QuerySpec

variable {γ ρ : Type}

/-- The calls of some filters, up to the first that cannot be bound. -/
def bindFilters (ps : Parameters) : List (Filter γ) → Plan γ Unit
  | [] => ⟨[], .ok ()⟩
  | f :: fs =>
    match f.bind ps with
    | .error e => ⟨[], .error e⟩
    | .ok call => (bindFilters ps fs).after call.toList

/-- The calls of the sorting parameters. -/
def bindSorting (spec : QuerySpec γ) (ps : Parameters) : Plan γ Unit :=
  match spec.sorting.select ps.sortBy ps.sortOrder with
  | .error e => ⟨[], .error e⟩
  | .ok none => ⟨[], .ok ()⟩
  | .ok (some (call, order)) => ⟨[call, spec.direction order], .ok ()⟩

/-- The calls of all parameters. -/
def apply (spec : QuerySpec γ) (ps : Parameters) : Plan γ Unit :=
  (bindFilters ps spec.filters).andThen fun _ => spec.bindSorting ps

/-- The greatest number of rows a page can be asked to have. -/
def unlimited : Int := 2147483647

/-- How the rows are to be listed: all of them unless a bound is given. -/
def listing (ps : Parameters) : Execution ρ (List ρ) :=
  if ps.isPaged then
    .page ((ps.firstResult.map SizedInt.val).getD 0) ((ps.maxResults.map SizedInt.val).getD unlimited)
  else .list

/-- The plan of a listing. -/
def list (spec : QuerySpec γ) (ps : Parameters) : Plan γ (Execution ρ (List ρ)) :=
  (spec.apply ps).andThen fun _ => ⟨[], .ok (listing ps)⟩

/-- The plan of a count, which takes no notice of paging. -/
def count (spec : QuerySpec γ) (ps : Parameters) : Plan γ (Execution ρ Nat) :=
  (spec.apply ps).andThen fun _ => ⟨[], .ok .count⟩

/-- The names of the filters in the order of their declaration. -/
def filterNames (spec : QuerySpec γ) : List String :=
  spec.filters.map (·.name)

end QuerySpec

end CaseGateway
