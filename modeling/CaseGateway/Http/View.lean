/-
Rows as documents.

A row's value stands among its own members, between its name and the places it belongs
to; a member without a text is null.
-/
import CaseGateway.Resource.CleanableReport
import CaseGateway.Resource.HistoricVariable
import CaseGateway.Resource.IdentityLink
import CaseGateway.Resource.VariableInstance
import CaseGateway.Value.Encode

namespace CaseGateway

/-- A variable as a document. -/
def VariableInstance.toJson (options : EncodeOptions) (v : VariableInstance) : Json :=
  .object <|
    [("id", .string v.id), ("name", .string v.name)] ++ (v.value.encode options).members ++
      [("processInstanceId", .ofText? v.processInstanceId),
        ("executionId", .ofText? v.executionId),
        ("caseInstanceId", .ofText? v.caseInstanceId),
        ("caseExecutionId", .ofText? v.caseExecutionId),
        ("taskId", .ofText? v.taskId),
        ("activityInstanceId", .ofText? v.activityInstanceId),
        ("tenantId", .ofText? v.tenantId),
        ("errorMessage", .ofText? v.errorMessage)]

/-- A historic variable as a document. -/
def HistoricVariable.toJson (options : EncodeOptions) (v : HistoricVariable) : Json :=
  .object <|
    [("id", .string v.id), ("name", .string v.name)] ++ (v.value.encode options).members ++
      [("processDefinitionKey", .ofText? v.processDefinitionKey),
        ("processDefinitionId", .ofText? v.processDefinitionId),
        ("processInstanceId", .ofText? v.processInstanceId),
        ("executionId", .ofText? v.executionId),
        ("activityInstanceId", .ofText? v.activityInstanceId),
        ("caseDefinitionKey", .ofText? v.caseDefinitionKey),
        ("caseDefinitionId", .ofText? v.caseDefinitionId),
        ("caseInstanceId", .ofText? v.caseInstanceId),
        ("caseExecutionId", .ofText? v.caseExecutionId),
        ("taskId", .ofText? v.taskId),
        ("tenantId", .ofText? v.tenantId),
        ("errorMessage", .ofText? v.errorMessage),
        ("state", .string v.state),
        ("createTime", .ofText? (v.createTime.map Timestamp.text))]

/-- An entry of the log of identity links as a document. -/
def IdentityLink.toJson (l : IdentityLink) : Json :=
  .object
    [("id", .string l.id),
      ("time", .string l.time.text),
      ("type", .ofText? l.type),
      ("userId", .ofText? l.userId),
      ("groupId", .ofText? l.groupId),
      ("taskId", .ofText? l.taskId),
      ("processDefinitionId", .ofText? l.processDefinitionId),
      ("processDefinitionKey", .ofText? l.processDefinitionKey),
      ("operationType", .ofText? l.operationType),
      ("assignerId", .ofText? l.assignerId),
      ("tenantId", .ofText? l.tenantId)]

/-- A row of the report as a document. -/
def CleanableReport.toJson (r : CleanableReport) : Json :=
  .object
    [("processDefinitionId", .string r.processDefinitionId),
      ("processDefinitionKey", .string r.processDefinitionKey),
      ("processDefinitionName", .ofText? r.processDefinitionName),
      ("processDefinitionVersion", .number (.ofSized r.processDefinitionVersion)),
      ("historyTimeToLive", (r.historyTimeToLive.map fun n => Json.number (.ofSized n)).getD .null),
      ("finishedProcessInstanceCount", .number (.ofSized r.finished)),
      ("cleanableProcessInstanceCount", .number (.ofSized r.cleanable)),
      ("tenantId", .ofText? r.tenantId)]

/-- A number of rows as a document. -/
def Json.ofCount (n : Nat) : Json :=
  .object [("count", .number (.count n))]

end CaseGateway
