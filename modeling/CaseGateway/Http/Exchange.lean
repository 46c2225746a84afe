/-
What a request comes to.

Every request is answered without the engine, or makes calls on a query that is then
given up, or puts exactly one request to the engine and makes a response of what it
yields.  Which of these it is depends on the request alone, never on the state of the
engine.
-/
import CaseGateway.Engine.Request
import CaseGateway.Http.Message
import CaseGateway.Value.Encode

namespace CaseGateway.Http

/-- A request's dealings with the engine, up to the response. -/
inductive Exchange : Type 1
  /-- The engine is not needed. -/
  | settled (r : Response)
  /-- Calls are made on a query, but an error keeps it from being run. -/
  | abandoned {γ ρ : Type} (c : Collection γ ρ) (calls : List γ) (e : RestError)
  /-- The engine is asked. -/
  | ask {α : Type} (request : EngineRequest α) (respond : Except EngineError α → Response)

namespace Exchange

/-- The exchange for some input, or the report of the error that there is none. -/
def given {α : Type} (input : Except RestError α) (exchange : α → Exchange) : Exchange :=
  match input with
  | .ok a => exchange a
  | .error e => .settled (.ofError e)

/-- A response, or the report of an error. -/
def report : Except RestError Response → Response
  | .ok r => r
  | .error e => .ofError e

/-- Asks the engine, reporting its failure as it is. -/
def asking {α : Type} (request : EngineRequest α) (show? : α → Except RestError Response) : Exchange :=
  .ask request fun
    | .ok a => report (show? a)
    | .error e => .ofError (.engine e)

/-- Asks the engine, reporting its failure as that of an attempt. -/
def attempting {α : Type} (attempt : Attempt) (request : EngineRequest α)
    (show? : α → Except RestError Response) : Exchange :=
  .ask request fun
    | .ok a => report (show? a)
    | .error e => .ofError (.engine (e.withContext attempt.failed))

/-- Carries out the plan of a query. -/
def ofPlan {γ ρ α : Type} (c : Collection γ ρ) (plan : Plan γ (Execution ρ α))
    (show? : α → Except RestError Response) : Exchange :=
  match plan.outcome with
  | .error e => .abandoned c plan.calls e
  | .ok execution => asking (.query c plan.calls execution) show?

/-- Carries out an exchange with an engine in a state. -/
def run {σ : Type} [CaseEngine σ] : Exchange → σ → Response × σ
  | .settled r, s => (r, s)
  | .abandoned c calls e, s => (.ofError e, CaseEngine.abandon c calls s)
  | .ask request respond, s =>
    let (outcome, s) := CaseEngine.answer request s
    (respond outcome, s)

end Exchange

/-- The response that hands out binary content, in the format of an object if it has one. -/
def binaryResponse (value : Option TypedValue) (missing : Missing) (notBinary : NotBinary) :
    Except RestError Response :=
  match binaryContent value with
  | .error .missing => .error (.notFound missing)
  | .error .notBinary => .error (.notBinary notBinary)
  | .ok content =>
    let contentType :=
      match value with
      | some (.object o) => o.format.getD "application/octet-stream"
      | _ => "application/octet-stream"
    .ok (.binary contentType content)

end CaseGateway.Http
