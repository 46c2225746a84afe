/-
The life cycle of case executions.

Four states and four transitions; a transition that has no edge from the present state
is refused.  Started and completed executions never come back.
-/

namespace CaseGateway

/-- The state of a case execution. -/
inductive Lifecycle
  | enabled
  | disabled
  | active
  | completed
  deriving DecidableEq, Repr

/-- A step in the life of a case execution. -/
inductive Transition
  | manualStart
  | disable
  | reenable
  | complete
  deriving DecidableEq, Repr

/-- The name of a transition. -/
def Transition.name : Transition → String
  | .manualStart => "manualStart"
  | .disable => "disable"
  | .reenable => "reenable"
  | .complete => "complete"

namespace Lifecycle

/-- The name of a state. -/
def name : Lifecycle → String
  | .enabled => "enabled"
  | .disabled => "disabled"
  | .active => "active"
  | .completed => "completed"

/-- The state after a transition, where there is an edge for it. -/
def after? : Lifecycle → Transition → Option Lifecycle
  | .enabled, .manualStart => some .active
  | .enabled, .disable => some .disabled
  | .disabled, .reenable => some .enabled
  | .active, .complete => some .completed
  | _, _ => none

end Lifecycle

end CaseGateway
