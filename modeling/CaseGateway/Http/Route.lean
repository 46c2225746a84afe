/-
Paths.

A path is matched as it was sent, segment by segment; where a fixed segment and a
parameter could both match, the fixed one does.  A parameter may be empty, but not at
the end of a path.  Parameters are freed of percent escapes only afterwards, so an
escaped slash does not end a segment.
-/
import CaseGateway.Http.Message
import CaseGateway.Lifecycle
import CaseGateway.Text.Percent
import CaseGateway.Text.Pieces

namespace CaseGateway.Http

/-- What a path leads to. -/
inductive Route
  | instances
  | instanceCount
  | variableInstance (id : String)
  | instanceData (id : String)
  | historic
  | historicCount
  | historicVariable (id : String)
  | historicData (id : String)
  | links
  | linkCount
  | report
  | reportCount
  | transition (id : String) (t : Transition)
  | executionVariables (id scope : String)
  | executionVariable (id scope name : String)
  | executionData (id scope name : String)
  deriving DecidableEq

namespace Route

/-- The transition that a segment names. -/
def transitionOf? : String → Option Transition
  | "manual-start" => some .manualStart
  | "disable" => some .disable
  | "reenable" => some .reenable
  | "complete" => some .complete
  | _ => none

/-- The route of some segments. -/
def ofSegments? : List String → Option Route
  | ["variable-instance"] => some .instances
  | ["variable-instance", "count"] => some .instanceCount
  | ["variable-instance", id] => some (.variableInstance id)
  | ["variable-instance", id, "data"] => some (.instanceData id)
  | ["history", "variable-instance"] => some .historic
  | ["history", "variable-instance", "count"] => some .historicCount
  | ["history", "variable-instance", id] => some (.historicVariable id)
  | ["history", "variable-instance", id, "data"] => some (.historicData id)
  | ["history", "identity-link-log"] => some .links
  | ["history", "identity-link-log", "count"] => some .linkCount
  | ["history", "process-definition", "cleanable-process-instance-report"] => some .report
  | ["history", "process-definition", "cleanable-process-instance-report", "count"] =>
    some .reportCount
  | ["case-execution", id, segment] =>
    match transitionOf? segment with
    | some t => some (.transition id t)
    | none => some (.executionVariables id segment)
  | ["case-execution", id, scope, name] => some (.executionVariable id scope name)
  | ["case-execution", id, scope, name, "data"] => some (.executionData id scope name)
  | _ => none

/-- The text behind a beginning. -/
def behind? : (beginning text : List Char) → Option (List Char)
  | [], cs => some cs
  | _ :: _, [] => none
  | b :: bs, c :: cs => if b = c then behind? bs cs else none

/-- The route of a path that starts with a base path and does not end in a slash. -/
def ofPath? (basePath path : String) : Option Route :=
  match behind? basePath.toList path.toList with
  | some ('/' :: cs) =>
    let segments := (Text.pieces '/' cs).map String.ofList
    if segments.getLast? = some "" then none else ofSegments? segments
  | _ => none

/-- The methods that a route answers to, without those that every or another one implies. -/
def allows : Route → Method → Bool
  | .instances, m | .instanceCount, m | .historic, m | .historicCount, m
  | .executionVariables _ _, m | .executionData _ _ _, m => m = .get ∨ m = .post
  | .transition _ _, m => m = .post
  | .executionVariable _ _ _, m => m = .get ∨ m = .put ∨ m = .delete
  | _, m => m = .get

/-- A parameter without its escapes, or its name if that gives no text. -/
def parameter (name segment : String) : Except String String :=
  match Text.ofPathSegment? segment with
  | some s => .ok s
  | none => .error name

/-- The route with its parameters freed of escapes, or the name of the first for which that
fails. -/
def unescaped : Route → Except String Route
  | .variableInstance id => return .variableInstance (← parameter "id" id)
  | .instanceData id => return .instanceData (← parameter "id" id)
  | .historicVariable id => return .historicVariable (← parameter "id" id)
  | .historicData id => return .historicData (← parameter "id" id)
  | .transition id t => return .transition (← parameter "id" id) t
  | .executionVariables id scope =>
    return .executionVariables (← parameter "id" id) (← parameter "scope" scope)
  | .executionVariable id scope name =>
    return .executionVariable (← parameter "id" id) (← parameter "scope" scope)
      (← parameter "name" name)
  | .executionData id scope name =>
    return .executionData (← parameter "id" id) (← parameter "scope" scope)
      (← parameter "name" name)
  | route => .ok route

end Route

end CaseGateway.Http
