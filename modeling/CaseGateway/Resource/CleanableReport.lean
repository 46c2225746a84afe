/-
The report on finished process instances that may be cleaned up, by process definition.
-/
import CaseGateway.Query.Spec
import CaseGateway.Query.Wording

namespace CaseGateway

/-- A row of the report. -/
structure CleanableReport where
  processDefinitionId : String
  processDefinitionKey : String
  processDefinitionName : Option String
  processDefinitionVersion : SizedInt .integer
  historyTimeToLive : Option (SizedInt .integer)
  finished : SizedInt .long
  cleanable : SizedInt .long
  tenantId : Option String
  deriving DecidableEq

namespace CleanableReport

/-- The columns that queries can refer to. -/
inductive Column
  | processDefinitionId
  | processDefinitionKey
  | tenantId
  deriving DecidableEq

/-- The report can be cut down to definitions without a tenant, or with finished instances. -/
inductive Special
  | withoutTenant
  | compact
  deriving DecidableEq

/-- The text in a column. -/
def column (r : CleanableReport) : Column → Option String
  | .processDefinitionId => some r.processDefinitionId
  | .processDefinitionKey => some r.processDefinitionKey
  | .tenantId => r.tenantId

instance : Queryable CleanableReport Column Special Empty where
  column := column
  satisfies
    | r, .withoutTenant => r.tenantId.isNone
    | r, .compact => 0 < r.finished.val
  compareBy k _ _ := k.elim
  withoutBytes r := r

instance : Worded Column where
  wording
    | .processDefinitionId => "processDefinitionId"
    | .processDefinitionKey => "processDefinitionKey"
    | .tenantId => "tenantId"

instance : Worded Special where
  wording
    | .withoutTenant => callText "withoutTenantId" []
    | .compact => callText "compact" []

/-- A call on a query for the report. -/
abbrev Call := QueryCall Column Special Empty

/-- What the report can be queried for.  It cannot be sorted. -/
def spec : QuerySpec Call where
  resource := "cleanable-process-instance-report"
  filters :=
    [⟨"processDefinitionIdIn", .list fun ss => .condition (.oneOf .processDefinitionId ss)⟩,
      ⟨"processDefinitionKeyIn", .list fun ss => .condition (.oneOf .processDefinitionKey ss)⟩,
      ⟨"tenantIdIn", .list fun ss => .condition (.oneOf .tenantId ss)⟩,
      ⟨"withoutTenantId", .flag (.condition (.special .withoutTenant))⟩,
      ⟨"compact", .flag (.condition (.special .compact))⟩]
  sorting := .empty
  direction := .direction

end CleanableReport

end CaseGateway
