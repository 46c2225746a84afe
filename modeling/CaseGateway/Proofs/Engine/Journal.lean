/-
What a journal shows of a request.

An entry is a call by its name, and the name tells whether the call has something carried out
or only prepares it: sets a condition, names a sort key, queues a change.  Every request to an
engine comes to calls that prepare it and to one call behind them that carries it out, so a
journal shows by its last entry whether a request was carried out or given up.

The names of preparing calls are made from those of columns.  That none of them is by accident
the name of a call that carries something out is a matter of looking through four tables, and
is all that is done with them here.
-/
import CaseGateway.Engine.Recorder

namespace CaseGateway

/-! ### Names of calls -/

/-- The name of a call in words, which is what stands before the bracket. -/
def callName (entry : String) : String :=
  String.ofList (entry.toList.takeWhile (· != '('))

/-- The names of the calls that have an engine carry something out. -/
def executingCalls : List String :=
  ["list", "listPage", "count", "singleResult", "getVariables", "getVariablesLocal",
    "getVariable", "getVariableLocal", "execute", "executeAsync", "manualStart", "disable",
    "reenable", "complete"]

/-- Whether an entry of a journal is of a call that has something carried out. -/
def isExecuting (entry : String) : Bool :=
  executingCalls.contains (callName entry)

/-- Whether a text is the name of a call that only prepares something. -/
def isPreparing (name : String) : Bool :=
  !name.toList.contains '(' && !executingCalls.contains name

theorem callName_callText {name : String} (h : name.toList.contains '(' = false)
    (arguments : List String) : callName (callText name arguments) = name := by
  have hplain : ∀ c ∈ name.toList, (c != '(') = true := by
    intro c hc
    simp only [bne_iff_ne, ne_eq]
    rintro rfl
    simp [hc] at h
  unfold callName callText
  rw [String.toList_append, String.toList_append, String.toList_append, List.append_assoc,
    List.append_assoc, List.takeWhile_append_of_pos hplain]
  simp

theorem isExecuting_callText {name : String} (h : name.toList.contains '(' = false)
    (arguments : List String) :
    isExecuting (callText name arguments) = executingCalls.contains name := by
  rw [isExecuting, callName_callText h]

/-- To disable an execution is one thing, to disable a part of what is fetched another. -/
example : isExecuting "disable()" ∧ isExecuting "disableBinaryFetching()" = false := by decide

theorem isExecuting_of_isPreparing {name : String} (h : isPreparing name)
    (arguments : List String) : isExecuting (callText name arguments) = false := by
  simp only [isPreparing, Bool.and_eq_true, Bool.not_eq_true'] at h
  rw [isExecuting_callText h.1, h.2]

/-! ### Calls on queries -/

section

variable {χ ε κ : Type} [Worded χ] [Worded ε] [Worded κ]

/-- Nothing that is called for the columns, conditions and sort keys of a resource runs a query. -/
structure PreparesOnly (χ ε κ : Type) [Worded χ] [Worded ε] [Worded κ] : Prop where
  equals : ∀ c : χ, isPreparing (Worded.wording c)
  oneOf : ∀ c : χ, isPreparing (Worded.wording c ++ "In")
  like : ∀ c : χ, isPreparing (Worded.wording c ++ "Like")
  special : ∀ e : ε, isExecuting (Worded.wording e) = false
  orderBy : ∀ key : SortKey χ κ, isPreparing ("orderBy" ++ capitalized key.name)

theorem PreparesOnly.wording (h : PreparesOnly χ ε κ) (call : QueryCall χ ε κ) :
    isExecuting call.wording = false := by
  cases call with
  | condition c =>
      cases c with
      | equals c text => exact isExecuting_of_isPreparing (h.equals c) _
      | oneOf c texts => exact isExecuting_of_isPreparing (h.oneOf c) _
      | like c pattern => exact isExecuting_of_isPreparing (h.like c) _
      | special e => exact h.special e
  | orderBy key => exact isExecuting_of_isPreparing (h.orderBy key) _
  | direction order => cases order <;> exact isExecuting_of_isPreparing (by decide) _
  | disableBinaryFetching => exact isExecuting_of_isPreparing (by decide) _
  | disableObjectDeserialization => exact isExecuting_of_isPreparing (by decide) _

end

theorem VariableInstance.preparesOnly : PreparesOnly Column Empty Key where
  equals c := by cases c <;> decide
  oneOf c := by cases c <;> decide
  like c := by cases c <;> decide
  special e := e.elim
  orderBy := by
    rintro (c | key)
    · cases c <;> decide
    · cases key
      decide

theorem HistoricVariable.preparesOnly : PreparesOnly Column Special Empty where
  equals c := by cases c <;> decide
  oneOf c := by cases c <;> decide
  like c := by cases c <;> decide
  special e := by cases e; exact isExecuting_of_isPreparing (by decide) _
  orderBy := by
    rintro (c | key)
    · cases c <;> decide
    · exact key.elim

theorem IdentityLink.preparesOnly : PreparesOnly Column Special Key where
  equals c := by cases c <;> decide
  oneOf c := by cases c <;> decide
  like c := by cases c <;> decide
  special e := by cases e <;> exact isExecuting_of_isPreparing (by decide) _
  orderBy := by
    rintro (c | key)
    · cases c <;> decide
    · cases key
      decide

theorem CleanableReport.preparesOnly : PreparesOnly Column Special Empty where
  equals c := by cases c <;> decide
  oneOf c := by cases c <;> decide
  like c := by cases c <;> decide
  special e := by cases e <;> exact isExecuting_of_isPreparing (by decide) _
  orderBy := by
    rintro (c | key)
    · cases c <;> decide
    · exact key.elim

theorem Collection.isExecuting_wording {γ ρ : Type} (c : Collection γ ρ) (call : γ) :
    isExecuting (c.wording call) = false := by
  cases c with
  | instances => exact VariableInstance.preparesOnly.wording call
  | historic => exact HistoricVariable.preparesOnly.wording call
  | links => exact IdentityLink.preparesOnly.wording call
  | reports => exact CleanableReport.preparesOnly.wording call

theorem Execution.isExecuting_wording {ρ α : Type} (execution : Execution ρ α) :
    isExecuting execution.wording := by
  cases execution <;> exact (isExecuting_callText (by decide) _).trans (by decide)

/-! ### Requests -/

/-- Entries of calls that only prepare something. -/
def Preparing (entries : List String) : Prop :=
  ∀ entry ∈ entries, isExecuting entry = false

/-- Entries of which the last one, and no other, is of a call that has something carried out. -/
def CarriedOut (entries : List String) : Prop :=
  ∃ calls last, entries = calls ++ [last] ∧ Preparing calls ∧ isExecuting last

namespace Recorder

theorem isExecuting_commandWording (call : CommandCall) :
    isExecuting (commandWording call) = false := by
  cases call with
  | setVariable name value scope | setVariables values scope | removeVariable name scope
  | removeVariables names scope =>
      cases scope <;> exact isExecuting_of_isPreparing (by decide) _

theorem carriedOut_commandWordings (c : Command) {ending : String}
    (h : isExecuting (callText ending [])) : CarriedOut (commandWordings c ending) := by
  refine ⟨callText "withCaseExecution" [c.execution] :: c.calls.map commandWording, _, rfl, ?_, h⟩
  intro entry hentry
  rcases List.mem_cons.mp hentry with rfl | hmem
  · exact isExecuting_of_isPreparing (by decide) _
  · obtain ⟨call, -, rfl⟩ := List.mem_map.mp hmem
    exact isExecuting_commandWording call

theorem preparing_wording {γ ρ : Type} (c : Collection γ ρ) (calls : List γ) :
    Preparing (calls.map c.wording) := by
  intro entry hentry
  obtain ⟨call, -, rfl⟩ := List.mem_map.mp hentry
  exact c.isExecuting_wording call

/-- **A request is prepared, and then carried out by the last of its calls.** -/
theorem carriedOut_wordings {α : Type} (request : EngineRequest α) :
    CarriedOut (wordings request) := by
  cases request with
  | query c calls execution =>
      exact ⟨_, _, rfl, preparing_wording c calls, execution.isExecuting_wording⟩
  | execute c | submit c =>
      exact carriedOut_commandWordings c ((isExecuting_callText (by decide) _).trans (by decide))
  | trigger c t =>
      refine carriedOut_commandWordings c ?_
      cases t <;> exact (isExecuting_callText (by decide) _).trans (by decide)
  | scopedVariables execution scope | scopedVariable execution name scope =>
      refine ⟨[], _, rfl, fun entry h => absurd h List.not_mem_nil, ?_⟩
      cases scope <;> exact (isExecuting_callText (by decide) _).trans (by decide)

end Recorder

end CaseGateway
