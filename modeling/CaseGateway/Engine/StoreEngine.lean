/-
The store as an engine.

Only commands change the store, and only those that succeed.
-/
import CaseGateway.Engine.Request
import CaseGateway.Engine.Store

namespace CaseGateway.Store

/-- The rows of a collection. -/
def rows {γ ρ : Type} : Collection γ ρ → Store → List ρ
  | .instances, s => s.instances
  | .historic, s => s.historic
  | .links, s => s.links
  | .reports, s => s.reports

/-- Runs a query over the rows of a collection. -/
def runQuery {γ ρ α : Type} : Collection γ ρ → List γ → Execution ρ α → Store →
    Except EngineError α
  | .instances, calls, execution, s => query s.instances calls execution
  | .historic, calls, execution, s => query s.historic calls execution
  | .links, calls, execution, s => query s.links calls execution
  | .reports, calls, execution, s => query s.reports calls execution

/-- The outcome of a command, with the store it leaves behind. -/
def settle (s : Store) : Except EngineError Store → Except EngineError Unit × Store
  | .ok s' => (.ok (), s')
  | .error e => (.error e, s)

/-- Answers a request. -/
def answer {α : Type} (request : EngineRequest α) (s : Store) : Except EngineError α × Store :=
  match request with
  | .query c calls execution => (runQuery c calls execution s, s)
  | .execute c => s.settle (s.execute c)
  | .trigger c t => s.settle (s.trigger c t)
  | .submit c =>
    match s.submit c with
    | .ok (batch, s') => (.ok batch, s')
    | .error e => (.error e, s)
  | .scopedVariables execution scope => (s.scopedVariables execution scope, s)
  | .scopedVariable execution name scope =>
    ((s.scopedVariables execution scope).map fun d => d.get? name, s)

instance : CaseEngine Store where
  answer := answer
  abandon _ _ s := s

end CaseGateway.Store
