/-
Listings, counts and single rows.
-/
import CaseGateway.Http.Exchange
import CaseGateway.Http.Input
import CaseGateway.Http.View

namespace CaseGateway.Http

/-! ### Rows of any kind -/

/-- Lists rows as an array of documents. -/
def listRows {γ ρ : Type} (c : Collection γ ρ) (toJson : ρ → Json) (firstCalls : List γ)
    (ps : Parameters) : Exchange :=
  .ofPlan c ((c.spec.list ps).after firstCalls) fun rows =>
    .ok (.json 200 (.array (rows.map toJson)))

/-- Counts rows. -/
def countRows {γ ρ : Type} (c : Collection γ ρ) (ps : Parameters) : Exchange :=
  .ofPlan c (c.spec.count ps) fun n => .ok (.json 200 (.ofCount n))

/-! ### Rows that hold values -/

/-- What rows with values have in common: an id, a value, and calls that choose by id. -/
structure ValueRows (χ ε κ ρ : Type) where
  collection : Collection (QueryCall χ ε κ) ρ
  idColumn : χ
  value : ρ → TypedValue
  toJson : EncodeOptions → ρ → Json

/-- The variables that exist. -/
def variableRows : ValueRows VariableInstance.Column Empty VariableInstance.Key VariableInstance :=
  ⟨.instances, .id, VariableInstance.value, VariableInstance.toJson⟩

/-- The variables that are remembered. -/
def historicRows : ValueRows HistoricVariable.Column HistoricVariable.Special Empty HistoricVariable :=
  ⟨.historic, .id, HistoricVariable.value, HistoricVariable.toJson⟩

namespace ValueRows

variable {χ ε κ ρ : Type}

/-- The calls that keep unwanted parts of the values from being fetched: always the content of
byte arrays, and objects in decoded form unless they are wanted. -/
def withholding (deserialize : Bool) : List (QueryCall χ ε κ) :=
  .disableBinaryFetching :: (if deserialize then [] else [.disableObjectDeserialization])

/-- How values are written in listings. -/
def options (deserialize : Bool) : EncodeOptions := ⟨false, deserialize⟩

/-- Lists the rows that some parameters describe, with objects in decoded form or not. -/
def list (rows : ValueRows χ ε κ ρ) (deserialize : Bool) (ps : Parameters) : Exchange :=
  listRows rows.collection (rows.toJson (options deserialize)) (withholding deserialize) ps

/-- The call that chooses the row of an id. -/
def choose (rows : ValueRows χ ε κ ρ) (id : String) : QueryCall χ ε κ :=
  .condition (.equals rows.idColumn id)

/-- Lists what the query string describes. -/
def listByQuery (rows : ValueRows χ ε κ ρ) (r : Request) : Exchange :=
  .given (do
    let ps ← r.parameters
    return (← ps.deserializeValues, ps)) fun (deserialize, ps) => rows.list deserialize ps

/-- Lists what the body describes; the switch is in the query string even so. -/
def listByBody (rows : ValueRows χ ε κ ρ) (r : Request) : Exchange :=
  .given (do
    let switches ← r.parameters
    let ps ← r.bodyParameters
    return (← switches.deserializeValues, ps)) fun (deserialize, ps) => rows.list deserialize ps

/-- Shows the row of an id. -/
def single (rows : ValueRows χ ε κ ρ) (r : Request) (id : String) : Exchange :=
  .given (do (← r.parameters).deserializeValues) fun deserialize =>
    .asking (.query rows.collection (rows.choose id :: withholding deserialize) .single) fun
      | some row => .ok (.json 200 (rows.toJson (options deserialize) row))
      | none => .error (.notFound (.variableInstance id))

/-- Hands out the binary content of the row of an id. -/
def data (rows : ValueRows χ ε κ ρ) (id : String) : Exchange :=
  .asking (.query rows.collection [rows.choose id, .disableObjectDeserialization] .single) fun row =>
    binaryResponse (row.map rows.value) (.variableInstance id) (.variableInstance id)

end ValueRows

/-- Counts what the query string describes. -/
def countByQuery {γ ρ : Type} (c : Collection γ ρ) (r : Request) : Exchange :=
  .given r.parameters (countRows c)

/-- Counts what the body describes. -/
def countByBody {γ ρ : Type} (c : Collection γ ρ) (r : Request) : Exchange :=
  .given r.bodyParameters (countRows c)

/-- Lists rows without values that the query string describes. -/
def listByQuery {γ ρ : Type} (c : Collection γ ρ) (toJson : ρ → Json) (r : Request) : Exchange :=
  .given r.parameters (listRows c toJson [])

end CaseGateway.Http
