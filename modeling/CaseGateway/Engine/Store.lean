/-
An engine that keeps everything in memory.

The variables of case executions are ordinary variable rows that name their execution.
A command is looked at before anything of it is applied: if the execution is not known
or its transition has no edge, the store stays as it is.  Ids of new rows and batches
come from a counter and are never used twice.
-/
import CaseGateway.Engine.Command
import CaseGateway.Engine.Selection
import CaseGateway.Resource.CleanableReport
import CaseGateway.Resource.HistoricVariable
import CaseGateway.Resource.IdentityLink
import CaseGateway.Resource.VariableInstance

namespace CaseGateway

/-- A registered case execution.  A case instance is an execution that is its own instance. -/
structure CaseExecution where
  caseInstance : String
  lifecycle : Lifecycle
  deriving DecidableEq, Repr

/-- Everything the engine knows. -/
structure Store where
  instances : List VariableInstance
  historic : List HistoricVariable
  links : List IdentityLink
  reports : List CleanableReport
  executions : Dictionary CaseExecution
  /-- The number of ids given out so far. -/
  issued : Nat

namespace Store

/-- The store that knows nothing. -/
def empty : Store := ⟨[], [], [], [], .empty, 0⟩

instance : Inhabited Store := ⟨empty⟩

/-- What all generated ids begin with. -/
def generatedStart : String := "00000000-0000-7000-8000-"

/-- The generated id of the given number. -/
def generatedId (n : Nat) : String :=
  generatedStart ++ String.ofList (Text.padded 12 n)

/-! ### Filling the store -/

/-- Adds a variable, its value in the precision in which it travels. -/
def insertVariable (s : Store) (v : VariableInstance) : Store :=
  { s with instances := s.instances ++ [{ v with value := v.value.normalized }] }

/-- Adds a historic variable, its value in the precision in which it travels. -/
def insertHistoric (s : Store) (v : HistoricVariable) : Store :=
  { s with historic := s.historic ++ [{ v with value := v.value.normalized }] }

/-- Adds an entry to the log of identity links. -/
def insertLink (s : Store) (l : IdentityLink) : Store :=
  { s with links := s.links ++ [l] }

/-- Adds a row to the report. -/
def insertReport (s : Store) (r : CleanableReport) : Store :=
  { s with reports := s.reports ++ [r] }

/-- Makes a case execution known, in the enabled state, and its case instance too, as an active
execution, unless it is known already. -/
def register (s : Store) (execution caseInstance : String) : Store :=
  let withInstance :=
    if (s.executions.get? caseInstance).isSome then s.executions
    else s.executions.insert caseInstance ⟨caseInstance, .active⟩
  { s with
    executions :=
      if execution = caseInstance then withInstance
      else withInstance.insert execution ⟨caseInstance, .enabled⟩ }

/-! ### Variables of case executions -/

/-- A known case execution. -/
def execution (s : Store) (id : String) : Except EngineError CaseExecution :=
  match s.executions.get? id with
  | some e => .ok e
  | none => .error (.unknownExecution id)

/-- Whether a row is the variable of the given name that belongs to the given execution. -/
def isVariable (execution name : String) (v : VariableInstance) : Bool :=
  v.name == name && v.caseExecutionId == some execution

/-- Whether an execution has a variable of its own of the given name. -/
def hasVariable (s : Store) (execution name : String) : Bool :=
  s.instances.any (isVariable execution name)

/-- The list with the first element that satisfies `p` replaced by its image. -/
def updateFirst {α : Type} (p : α → Bool) (f : α → α) : List α → List α
  | [] => []
  | a :: as => if p a then f a :: as else a :: updateFirst p f as

/-- Gives a variable of an execution a value, adding it if there is none of the name. -/
def write (s : Store) (target caseInstance name : String) (value : TypedValue) : Store :=
  if s.hasVariable target name then
    { s with
      instances := updateFirst (isVariable target name) (fun v => { v with value }) s.instances }
  else
    let row :=
      { VariableInstance.plain (generatedId s.issued) name value with
        caseInstanceId := some caseInstance
        caseExecutionId := some target }
    { s with instances := s.instances ++ [row], issued := s.issued + 1 }

/-- Removes a variable of an execution, if there is one of the name. -/
def erase (s : Store) (target name : String) : Store :=
  { s with instances := s.instances.eraseP (isVariable target name) }

/-- Applies a change.  In the global scope it concerns the execution's own variable if there is
one, and the case instance's otherwise. -/
def change (execution caseInstance : String) (s : Store) : VariableChange → Store
  | .set name value scope =>
    let target :=
      if scope = .localOnly ∨ s.hasVariable execution name then execution else caseInstance
    s.write target caseInstance name value.normalized
  | .remove name scope =>
    let target :=
      if scope = .localOnly ∨ s.hasVariable execution name then execution else caseInstance
    s.erase target name

/-- Applies changes one after the other. -/
def changeAll (execution caseInstance : String) (s : Store) (changes : List VariableChange) : Store :=
  changes.foldl (change execution caseInstance) s

/-- Adds the variables that belong to an execution to a dictionary. -/
def collect (s : Store) (execution : String) (seen : Dictionary TypedValue) :
    Dictionary TypedValue :=
  (s.instances.filter fun v => v.caseExecutionId == some execution).foldl
    (fun d v => d.insert v.name v.value) seen

/-- The variables of a case execution in a scope. -/
def scopedVariables (s : Store) (id : String) (scope : VariableScope) :
    Except EngineError (Dictionary TypedValue) := do
  let e ← s.execution id
  let inherited :=
    if scope = .global ∧ e.caseInstance ≠ id then s.collect e.caseInstance .empty else .empty
  return s.collect id inherited

/-! ### Commands -/

/-- Applies a command. -/
def execute (s : Store) (c : Command) : Except EngineError Store := do
  let e ← s.execution c.execution
  return s.changeAll c.execution e.caseInstance c.changes

/-- Hands in a command.  It is applied at once. -/
def submit (s : Store) (c : Command) : Except EngineError (Batch × Store) := do
  let s ← s.execute c
  let batch :=
    { id := generatedId s.issued
      type := Batch.variablesType
      jobs := min c.changes.length Batch.maximalJobs }
  return (batch, { s with issued := s.issued + 1 })

/-- Applies a command and takes its execution through a transition. -/
def trigger (s : Store) (c : Command) (t : Transition) : Except EngineError Store := do
  let e ← s.execution c.execution
  match e.lifecycle.after? t with
  | none => .error (.illegalTransition c.execution e.lifecycle t)
  | some next =>
    let s := s.changeAll c.execution e.caseInstance c.changes
    return { s with executions := s.executions.insert c.execution { e with lifecycle := next } }

/-! ### Queries -/

/-- Runs the query of some calls over stored rows. -/
def query {ρ χ ε κ α : Type} [Queryable ρ χ ε κ] (stored : List ρ) (calls : List (QueryCall χ ε κ))
    (execution : Execution ρ α) : Except EngineError α := do
  execution.result (← (Selection.ofCalls calls).run stored)

end Store

end CaseGateway
