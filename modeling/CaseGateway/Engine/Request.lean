/-
What an engine can be asked.

Four collections of rows can be queried, and case executions can be changed and looked
at.  A request is a value that says what it yields, so that whatever stands between a
client and an engine can be written, and reasoned about, without either.
-/
import CaseGateway.Engine.Command
import CaseGateway.Resource.CleanableReport
import CaseGateway.Resource.HistoricVariable
import CaseGateway.Resource.IdentityLink
import CaseGateway.Resource.VariableInstance

namespace CaseGateway

/-- The collections of rows, each with the calls on its queries and its kind of row. -/
inductive Collection : (γ ρ : Type) → Type
  | instances : Collection VariableInstance.Call VariableInstance
  | historic : Collection HistoricVariable.Call HistoricVariable
  | links : Collection IdentityLink.Call IdentityLink
  | reports : Collection CleanableReport.Call CleanableReport

namespace Collection

variable {γ ρ : Type}

/-- What a collection can be queried for. -/
def spec : Collection γ ρ → QuerySpec γ
  | .instances => VariableInstance.spec
  | .historic => HistoricVariable.spec
  | .links => IdentityLink.spec
  | .reports => CleanableReport.spec

/-- A call in words. -/
def wording : Collection γ ρ → γ → String
  | .instances, call => call.wording
  | .historic, call => call.wording
  | .links, call => call.wording
  | .reports, call => call.wording

end Collection

/-- A request that yields an `α`. -/
inductive EngineRequest : Type → Type 1
  /-- Makes the calls on a new query and runs it. -/
  | query {γ ρ α : Type} (c : Collection γ ρ) (calls : List γ) (execution : Execution ρ α) :
    EngineRequest α
  /-- Applies a command. -/
  | execute (c : Command) : EngineRequest Unit
  /-- Applies a command and takes its execution through a transition. -/
  | trigger (c : Command) (t : Transition) : EngineRequest Unit
  /-- Hands in a command to be applied later. -/
  | submit (c : Command) : EngineRequest Batch
  /-- The variables of a case execution. -/
  | scopedVariables (execution : String) (scope : VariableScope) : EngineRequest (Dictionary TypedValue)
  /-- One variable of a case execution. -/
  | scopedVariable (execution name : String) (scope : VariableScope) : EngineRequest (Option TypedValue)

/-- An engine with states `σ`. -/
class CaseEngine (σ : Type) where
  /-- Answers a request. -/
  answer {α : Type} : EngineRequest α → σ → Except EngineError α × σ
  /-- Takes note of a query on which calls are made but which is never run. -/
  abandon {γ ρ : Type} : Collection γ ρ → List γ → σ → σ

end CaseGateway
