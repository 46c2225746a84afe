/-
The log of identity links: who was linked to which task, when and by whom.
-/
import CaseGateway.Query.Spec
import CaseGateway.Query.Wording

namespace CaseGateway

/-- An entry of the log. -/
structure IdentityLink where
  id : String
  time : Timestamp
  type : Option String
  userId : Option String
  groupId : Option String
  taskId : Option String
  processDefinitionId : Option String
  processDefinitionKey : Option String
  operationType : Option String
  assignerId : Option String
  tenantId : Option String
  deriving DecidableEq

namespace IdentityLink

/-- The columns that queries can refer to. -/
inductive Column
  | type
  | userId
  | groupId
  | taskId
  | processDefinitionId
  | processDefinitionKey
  | operationType
  | assignerId
  | tenantId
  deriving DecidableEq

/-- Entries can be asked for by inclusive bounds on their time. -/
inductive Special
  | notAfter (t : Timestamp)
  | notBefore (t : Timestamp)
  deriving DecidableEq

/-- Entries can be sorted by their time. -/
inductive Key
  | time
  deriving DecidableEq

/-- The text in a column. -/
def column (l : IdentityLink) : Column → Option String
  | .type => l.type
  | .userId => l.userId
  | .groupId => l.groupId
  | .taskId => l.taskId
  | .processDefinitionId => l.processDefinitionId
  | .processDefinitionKey => l.processDefinitionKey
  | .operationType => l.operationType
  | .assignerId => l.assignerId
  | .tenantId => l.tenantId

instance : Queryable IdentityLink Column Special Key where
  column := column
  satisfies
    | l, .notAfter t => (compare l.time t).isLE
    | l, .notBefore t => (compare l.time t).isGE
  compareBy | .time, l, m => compare l.time m.time
  withoutBytes l := l

instance : Worded Column where
  wording
    | .type => "type"
    | .userId => "userId"
    | .groupId => "groupId"
    | .taskId => "taskId"
    | .processDefinitionId => "processDefinitionId"
    | .processDefinitionKey => "processDefinitionKey"
    | .operationType => "operationType"
    | .assignerId => "assignerId"
    | .tenantId => "tenantId"

instance : Worded Special where
  wording
    | .notAfter t => callText "dateBefore" [t.text]
    | .notBefore t => callText "dateAfter" [t.text]

instance : Worded Key where
  wording | .time => "time"

/-- A call on a query for log entries. -/
abbrev Call := QueryCall Column Special Key

/-- What log entries can be queried for. -/
def spec : QuerySpec Call where
  resource := "history/identity-link-log"
  filters :=
    [⟨"type", .text fun s => .condition (.equals .type s)⟩,
      ⟨"userId", .text fun s => .condition (.equals .userId s)⟩,
      ⟨"groupId", .text fun s => .condition (.equals .groupId s)⟩,
      ⟨"dateBefore", .date fun t => .condition (.special (.notAfter t))⟩,
      ⟨"dateAfter", .date fun t => .condition (.special (.notBefore t))⟩,
      ⟨"assignerId", .text fun s => .condition (.equals .assignerId s)⟩,
      ⟨"taskId", .text fun s => .condition (.equals .taskId s)⟩,
      ⟨"processDefinitionId", .text fun s => .condition (.equals .processDefinitionId s)⟩,
      ⟨"processDefinitionKey", .text fun s => .condition (.equals .processDefinitionKey s)⟩,
      ⟨"operationType", .text fun s => .condition (.equals .operationType s)⟩,
      ⟨"tenantIdIn", .list fun ss => .condition (.oneOf .tenantId ss)⟩]
  sorting := .ofList
    [("time", .orderBy (.special .time)),
      ("type", .orderBy (.column .type)),
      ("userId", .orderBy (.column .userId)),
      ("groupId", .orderBy (.column .groupId)),
      ("assignerId", .orderBy (.column .assignerId)),
      ("taskId", .orderBy (.column .taskId)),
      ("processDefinitionId", .orderBy (.column .processDefinitionId)),
      ("processDefinitionKey", .orderBy (.column .processDefinitionKey)),
      ("operationType", .orderBy (.column .operationType)),
      ("tenantId", .orderBy (.column .tenantId))]
  direction := .direction

end IdentityLink

end CaseGateway
