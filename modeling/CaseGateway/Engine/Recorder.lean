/-
An engine that writes down what it is told.

The recorder answers from rows that were prepared for it, whatever the conditions, and
keeps a journal of every call in words.  A failure that was set up is the answer to
every request that would otherwise be carried out.
-/
import CaseGateway.Engine.Request

namespace CaseGateway

/-- Prepared answers, and the journal so far. -/
structure Recorder where
  instances : List VariableInstance
  historic : List HistoricVariable
  links : List IdentityLink
  reports : List CleanableReport
  caseVariables : Dictionary TypedValue
  failure : Option EngineError
  journal : List String

namespace Recorder

/-- A recorder with nothing prepared. -/
def empty : Recorder := ⟨[], [], [], [], .empty, none, []⟩

instance : Inhabited Recorder := ⟨empty⟩

/-- The prepared rows of a collection. -/
def rows {γ ρ : Type} : Collection γ ρ → Recorder → List ρ
  | .instances, r => r.instances
  | .historic, r => r.historic
  | .links, r => r.links
  | .reports, r => r.reports

/-- What a way of running a query yields on prepared rows, which are neither cut nor counted
against a limit. -/
def prepared {ρ α : Type} : Execution ρ α → List ρ → α
  | .list, rows => rows
  | .page _ _, rows => rows
  | .count, rows => rows.length
  | .single, rows => rows.head?

/-- What marks the calls for the local scope. -/
def scopeMark : VariableScope → String
  | .global => ""
  | .localOnly => "Local"

/-- A call on a command in words. -/
def commandWording : CommandCall → String
  | .setVariable name value scope =>
    callText ("setVariable" ++ scopeMark scope) [name, value.type.tag]
  | .setVariables values scope => callText ("setVariables" ++ scopeMark scope) values.keys
  | .removeVariable name scope => callText ("removeVariable" ++ scopeMark scope) [name]
  | .removeVariables names scope => callText ("removeVariables" ++ scopeMark scope) names

/-- The calls on a command in words, from its creation to its end. -/
def commandWordings (c : Command) (ending : String) : List String :=
  callText "withCaseExecution" [c.execution] :: c.calls.map commandWording ++ [callText ending []]

/-- What a request adds to the journal. -/
def wordings {α : Type} : EngineRequest α → List String
  | .query c calls execution => calls.map c.wording ++ [execution.wording]
  | .execute c => commandWordings c "execute"
  | .trigger c t => commandWordings c t.name
  | .submit c => commandWordings c "executeAsync"
  | .scopedVariables execution scope => [callText ("getVariables" ++ scopeMark scope) [execution]]
  | .scopedVariable execution name scope =>
    [callText ("getVariable" ++ scopeMark scope) [execution, name]]

/-- What a request yields when there is no failure. -/
def response {α : Type} (request : EngineRequest α) (r : Recorder) : α :=
  match request with
  | .query c _ execution => prepared execution (rows c r)
  | .execute _ => ()
  | .trigger _ _ => ()
  | .submit _ => ⟨"aBatchId", Batch.variablesType, 1⟩
  | .scopedVariables _ _ => r.caseVariables
  | .scopedVariable _ name _ => r.caseVariables.get? name

/-- The recorder with more in its journal. -/
def note (r : Recorder) (entries : List String) : Recorder :=
  { r with journal := r.journal ++ entries }

/-- Answers a request. -/
def answer {α : Type} (request : EngineRequest α) (r : Recorder) : Except EngineError α × Recorder :=
  (match r.failure with
    | some e => .error e
    | none => .ok (response request r),
    r.note (wordings request))

instance : CaseEngine Recorder where
  answer := answer
  abandon c calls r := r.note (calls.map c.wording)

end Recorder

end CaseGateway
