/-
Variable instances, the variables that exist now.
-/
import CaseGateway.Query.Spec
import CaseGateway.Query.Wording
import CaseGateway.Value.Basic

namespace CaseGateway

/-- A variable with the places it belongs to. -/
structure VariableInstance where
  id : String
  name : String
  value : TypedValue
  processInstanceId : Option String
  executionId : Option String
  caseInstanceId : Option String
  caseExecutionId : Option String
  taskId : Option String
  activityInstanceId : Option String
  tenantId : Option String
  errorMessage : Option String

namespace VariableInstance

/-- A variable that belongs to nothing. -/
def plain (id name : String) (value : TypedValue) : VariableInstance :=
  ⟨id, name, value, none, none, none, none, none, none, none, none⟩

/-- The columns that queries can refer to. -/
inductive Column
  | id
  | name
  | processInstanceId
  | executionId
  | caseInstanceId
  | caseExecutionId
  | taskId
  | activityInstanceId
  | tenantId
  deriving DecidableEq

/-- Variables can be sorted by the tag of their value's type. -/
inductive Key
  | variableType
  deriving DecidableEq

/-- The text in a column. -/
def column (v : VariableInstance) : Column → Option String
  | .id => some v.id
  | .name => some v.name
  | .processInstanceId => v.processInstanceId
  | .executionId => v.executionId
  | .caseInstanceId => v.caseInstanceId
  | .caseExecutionId => v.caseExecutionId
  | .taskId => v.taskId
  | .activityInstanceId => v.activityInstanceId
  | .tenantId => v.tenantId

instance : Queryable VariableInstance Column Empty Key where
  column := column
  satisfies _ e := e.elim
  compareBy | .variableType, v, w => compare v.value.type.tag w.value.type.tag
  withoutBytes v := { v with value := v.value.withoutBytes }

instance : Worded Column where
  wording
    | .id => "variableId"
    | .name => "variableName"
    | .processInstanceId => "processInstanceId"
    | .executionId => "executionId"
    | .caseInstanceId => "caseInstanceId"
    | .caseExecutionId => "caseExecutionId"
    | .taskId => "taskId"
    | .activityInstanceId => "activityInstanceId"
    | .tenantId => "tenantId"

instance : Worded Key where
  wording | .variableType => "variableType"

/-- A call on a query for variables. -/
abbrev Call := QueryCall Column Empty Key

/-- What variables can be queried for. -/
def spec : QuerySpec Call where
  resource := "variable-instance"
  filters :=
    [⟨"variableName", .text fun s => .condition (.equals .name s)⟩,
      ⟨"variableNameLike", .text fun s => .condition (.like .name s)⟩,
      ⟨"processInstanceIdIn", .list fun ss => .condition (.oneOf .processInstanceId ss)⟩,
      ⟨"executionIdIn", .list fun ss => .condition (.oneOf .executionId ss)⟩,
      ⟨"caseInstanceIdIn", .list fun ss => .condition (.oneOf .caseInstanceId ss)⟩,
      ⟨"caseExecutionIdIn", .list fun ss => .condition (.oneOf .caseExecutionId ss)⟩,
      ⟨"taskIdIn", .list fun ss => .condition (.oneOf .taskId ss)⟩,
      ⟨"activityInstanceIdIn", .list fun ss => .condition (.oneOf .activityInstanceId ss)⟩,
      ⟨"tenantIdIn", .list fun ss => .condition (.oneOf .tenantId ss)⟩]
  sorting := .ofList
    [("variableName", .orderBy (.column .name)),
      ("variableType", .orderBy (.special .variableType)),
      ("activityInstanceId", .orderBy (.column .activityInstanceId)),
      ("tenantId", .orderBy (.column .tenantId))]
  direction := .direction

end VariableInstance

end CaseGateway
