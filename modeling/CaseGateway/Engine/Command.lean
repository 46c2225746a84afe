/-
Commands on case executions.

A command queues changes to the variables of one execution.  Calls that name several
variables queue one change for each of them, in order.
-/
import CaseGateway.Value.Basic

namespace CaseGateway

/-- Which variables of a case execution are meant. -/
inductive VariableScope
  /-- Those visible from the execution, its own ones hiding those of the case instance.  New
  ones belong to the case instance. -/
  | global
  /-- Only the execution's own. -/
  | localOnly
  deriving DecidableEq, Repr

/-- A change to one variable. -/
inductive VariableChange
  | set (name : String) (value : TypedValue) (scope : VariableScope)
  | remove (name : String) (scope : VariableScope)

/-- A call that queues changes. -/
inductive CommandCall
  | setVariable (name : String) (value : TypedValue) (scope : VariableScope)
  | setVariables (values : Dictionary TypedValue) (scope : VariableScope)
  | removeVariable (name : String) (scope : VariableScope)
  | removeVariables (names : List String) (scope : VariableScope)

/-- The changes a call queues. -/
def CommandCall.changes : CommandCall → List VariableChange
  | .setVariable name value scope => [.set name value scope]
  | .setVariables values scope => values.entries.map fun e => .set e.1 e.2 scope
  | .removeVariable name scope => [.remove name scope]
  | .removeVariables names scope => names.map fun name => .remove name scope

/-- Changes queued for one case execution. -/
structure Command where
  execution : String
  calls : List CommandCall

/-- All changes of a command, in order. -/
def Command.changes (c : Command) : List VariableChange :=
  c.calls.flatMap CommandCall.changes

/-- What is known of a command that was handed in to be carried out later. -/
structure Batch where
  id : String
  type : String
  jobs : Nat
  deriving DecidableEq, Repr

/-- The type of the batches of commands. -/
def Batch.variablesType : String := "case-execution-variables"

/-- The greatest number of jobs a batch reports. -/
def Batch.maximalJobs : Nat := 0xFFFFFFFF

end CaseGateway
