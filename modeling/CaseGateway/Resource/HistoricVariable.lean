/-
Historic variables, what is remembered of variables.
-/
import CaseGateway.Query.Spec
import CaseGateway.Query.Wording
import CaseGateway.Value.Basic

namespace CaseGateway

/-- A remembered variable with the places it belonged to. -/
structure HistoricVariable where
  id : String
  name : String
  value : TypedValue
  processDefinitionKey : Option String
  processDefinitionId : Option String
  processInstanceId : Option String
  executionId : Option String
  activityInstanceId : Option String
  caseDefinitionKey : Option String
  caseDefinitionId : Option String
  caseInstanceId : Option String
  caseExecutionId : Option String
  taskId : Option String
  tenantId : Option String
  errorMessage : Option String
  state : String
  createTime : Option Timestamp

namespace TypedValue

/-- Whether a text renders a value: the text that is written for it, or for a double any text
of the same number.  Typed nulls, byte arrays and objects have no rendering. -/
def rendersAs (v : TypedValue) (text : String) : Bool :=
  match v with
  | .string (some s) => s == text
  | .boolean (some b) => toString b == text
  | .integral _ (some n) => n.text == text
  | .double (some d) => (Double.ofLooseText? text).any d.sameNumber
  | .date (some t) => t.text == text
  | _ => false

end TypedValue

namespace HistoricVariable

/-- The columns that queries can refer to. -/
inductive Column
  | id
  | name
  | processDefinitionId
  | processInstanceId
  | executionId
  | activityInstanceId
  | caseInstanceId
  | taskId
  | tenantId
  deriving DecidableEq

/-- Historic variables can be asked for by name and value together. -/
inductive Special
  | valueEquals (name value : String)
  deriving DecidableEq

/-- The text in a column. -/
def column (v : HistoricVariable) : Column → Option String
  | .id => some v.id
  | .name => some v.name
  | .processDefinitionId => v.processDefinitionId
  | .processInstanceId => v.processInstanceId
  | .executionId => v.executionId
  | .activityInstanceId => v.activityInstanceId
  | .caseInstanceId => v.caseInstanceId
  | .taskId => v.taskId
  | .tenantId => v.tenantId

instance : Queryable HistoricVariable Column Special Empty where
  column := column
  satisfies | v, .valueEquals name value => v.name == name && v.value.rendersAs value
  compareBy k _ _ := k.elim
  withoutBytes v := { v with value := v.value.withoutBytes }

instance : Worded Column where
  wording
    | .id => "variableId"
    | .name => "variableName"
    | .processDefinitionId => "processDefinitionId"
    | .processInstanceId => "processInstanceId"
    | .executionId => "executionId"
    | .activityInstanceId => "activityInstanceId"
    | .caseInstanceId => "caseInstanceId"
    | .taskId => "taskId"
    | .tenantId => "tenantId"

instance : Worded Special where
  wording | .valueEquals name value => callText "variableValueEquals" [name, value]

/-- A call on a query for historic variables. -/
abbrev Call := QueryCall Column Special Empty

/-- What is said to a client that asks for a value without a name. -/
def valueWithoutName : String :=
  "Only a single variable value parameter specified: variable name and value are required to be " ++
    "able to query after a specific variable value."

/-- What historic variables can be queried for. -/
def spec : QuerySpec Call where
  resource := "history/variable-instance"
  filters :=
    [⟨"processInstanceId", .text fun s => .condition (.equals .processInstanceId s)⟩,
      ⟨"processDefinitionId", .text fun s => .condition (.equals .processDefinitionId s)⟩,
      ⟨"executionIdIn", .list fun ss => .condition (.oneOf .executionId ss)⟩,
      ⟨"taskIdIn", .list fun ss => .condition (.oneOf .taskId ss)⟩,
      ⟨"activityInstanceIdIn", .list fun ss => .condition (.oneOf .activityInstanceId ss)⟩,
      ⟨"caseInstanceId", .text fun s => .condition (.equals .caseInstanceId s)⟩,
      ⟨"variableName", .text fun s => .condition (.equals .name s)⟩,
      ⟨"variableNameLike", .text fun s => .condition (.like .name s)⟩,
      ⟨"variableValue", .paired "variableName" valueWithoutName fun name value =>
        .condition (.special (.valueEquals name value))⟩,
      ⟨"tenantIdIn", .list fun ss => .condition (.oneOf .tenantId ss)⟩]
  sorting := .ofList
    [("instanceId", .orderBy (.column .processInstanceId)),
      ("variableName", .orderBy (.column .name)),
      ("tenantId", .orderBy (.column .tenantId))]
  direction := .direction

end HistoricVariable

end CaseGateway
