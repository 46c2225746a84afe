/-
What handlers are made of.

Requests that take an execution through a transition are one family, with one handler; all other
requests are put together from the same five pieces.  A request is settled because something is
wrong with it, or its query is given up, or it asks for information and reports a failure of the
engine either as it is or as that of an attempt, or it has a command executed.  `Ordinary` lists
the pieces.  What is to hold of every request is proved once of each of them, and once of a
transition, and the routes are gone through here and not again.
-/
import CaseGateway.Proofs.Http.Routing

namespace CaseGateway

/-- Whether a request asks for nothing but information. -/
def EngineRequest.isReading {α : Type} : EngineRequest α → Bool
  | .query _ _ _ | .scopedVariables _ _ | .scopedVariable _ _ _ => true
  | .execute _ | .trigger _ _ | .submit _ => false

theorem RestError.status_cases (e : RestError) :
    e.status = 400 ∨ e.status = 403 ∨ e.status = 404 ∨ e.status = 500 := by
  unfold RestError.status
  split <;> first | simp | (split <;> simp)

namespace Http

/-- Whether a response reports success. -/
def Response.isSuccess (r : Response) : Bool :=
  200 ≤ r.status && r.status < 300

theorem Response.isSuccess_of_le {r : Response} (h : 400 ≤ r.status) : r.isSuccess = false := by
  have hhigh : ¬r.status < 300 := by omega
  simp [isSuccess, hhigh]

theorem isSuccess_ofError (e : RestError) : (Response.ofError e).isSuccess = false := by
  refine Response.isSuccess_of_le ?_
  show 400 ≤ e.status
  rcases RestError.status_cases e with h | h | h | h <;> rw [h] <;> decide

namespace Exchange

variable {α γ ρ : Type} {changes : Bool}

/-! ### Requests that are no transitions -/

/-- The exchanges that requests come to, other than those for transitions; those that are to
change something may have a command executed. -/
inductive Ordinary (changes : Bool) : Exchange → Prop
  | settled (r : Response) (h : r.isSuccess = false) : Ordinary changes (.settled r)
  | abandoned {γ ρ : Type} (c : Collection γ ρ) (calls : List γ) (e : RestError) :
    Ordinary changes (.abandoned c calls e)
  | asking {α : Type} {request : EngineRequest α} (h : request.isReading)
    (show? : α → Except RestError Response) : Ordinary changes (asking request show?)
  | attempting {α : Type} (attempt : Attempt) {request : EngineRequest α} (h : request.isReading)
    (show? : α → Except RestError Response) : Ordinary changes (attempting attempt request show?)
  | executing (h : changes) (attempt : Attempt) (c : Command) :
    Ordinary changes (attempting attempt (.execute c) done)

theorem ordinary_given {input : Except RestError α} {x : α → Exchange}
    (h : ∀ a, (x a).Ordinary changes) : (given input x).Ordinary changes := by
  cases input with
  | ok a => exact h a
  | error e => exact .settled _ (isSuccess_ofError e)

theorem ordinary_ofPlan (c : Collection γ ρ) (plan : Plan γ (Execution ρ α))
    (show? : α → Except RestError Response) : (ofPlan c plan show?).Ordinary changes := by
  unfold ofPlan
  split
  · exact .abandoned _ _ _
  · exact .asking rfl _

theorem ordinary_withBody (config : Config) (r : Request) {x : Exchange} (h : x.Ordinary changes) :
    (withBody config r x).Ordinary changes := by
  unfold withBody
  split
  · exact .settled _ rfl
  · exact h

theorem ordinary_withParts (config : Config) (r : Request) {x : Option (List Part) → Exchange}
    (h : ∀ parts?, (x parts?).Ordinary changes) : (withParts config r x).Ordinary changes := by
  unfold withParts
  split
  · exact .settled _ rfl
  · exact h _

end Exchange

open Exchange

section

variable {changes : Bool}

theorem ordinary_listRows {γ ρ : Type} (c : Collection γ ρ) (toJson : ρ → Json)
    (firstCalls : List γ) (ps : Parameters) : (listRows c toJson firstCalls ps).Ordinary changes :=
  ordinary_ofPlan _ _ _

theorem ordinary_countRows {γ ρ : Type} (c : Collection γ ρ) (ps : Parameters) :
    (countRows c ps).Ordinary changes :=
  ordinary_ofPlan _ _ _

theorem ValueRows.ordinary_list {χ ε κ ρ : Type} (rows : ValueRows χ ε κ ρ) (config : Config)
    (r : Request) :
    (if r.method = .post then withBody config r (rows.listByBody r)
      else rows.listByQuery r).Ordinary changes := by
  split
  · exact ordinary_withBody _ _ (ordinary_given fun _ => ordinary_listRows _ _ _ _)
  · exact ordinary_given fun _ => ordinary_listRows _ _ _ _

theorem ordinary_count {γ ρ : Type} (c : Collection γ ρ) (config : Config) (r : Request) :
    (if r.method = .post then withBody config r (countByBody c r)
      else countByQuery c r).Ordinary changes := by
  split
  · exact ordinary_withBody _ _ (ordinary_given fun _ => ordinary_countRows _ _)
  · exact ordinary_given fun _ => ordinary_countRows _ _

end

theorem ordinary_dispatch (config : Config) (r : Request) {route : Route}
    (h : route.transition? = none) :
    (dispatch config r route).Ordinary (route.isChange r.method) := by
  cases route with
  | instances | historic => exact ValueRows.ordinary_list _ _ _
  | instanceCount | historicCount => exact ordinary_count _ _ _
  | variableInstance id | historicVariable id => exact ordinary_given fun _ => .asking rfl _
  | instanceData id | historicData id => exact .asking rfl _
  | links | report => exact ordinary_given fun _ => ordinary_listRows _ _ _ _
  | linkCount | reportCount => exact ordinary_given fun _ => ordinary_countRows _ _
  | transition id t => simp [Route.transition?] at h
  | executionVariables id scope =>
      rw [dispatch]
      split
      · rename_i hpost
        rw [hpost]
        exact ordinary_withBody _ _ (ordinary_given fun _ => .executing rfl _ _)
      · exact ordinary_given fun _ => .asking rfl _
  | executionVariable id scope name =>
      rw [dispatch]
      split
      · rename_i hput
        rw [hput]
        exact ordinary_withBody _ _ (ordinary_given fun _ => .executing rfl _ _)
      · rename_i hdelete
        rw [hdelete]
        exact ordinary_given fun _ => .executing rfl _ _
      · exact ordinary_given fun _ => .attempting _ rfl _
  | executionData id scope name =>
      rw [dispatch]
      split
      · rename_i hpost
        rw [hpost]
        exact ordinary_withParts _ _ fun _ => ordinary_given fun _ => .executing rfl _ _
      · exact ordinary_given fun _ => .attempting _ rfl _

/-- **A request that asks for no transition comes to one of the five pieces.** -/
theorem ordinary_exchange (config : Config) {r : Request} (hmethod : r.method ≠ .options)
    (h : r.transition? config = none) : (exchange config r).Ordinary (r.isChange config) := by
  by_cases hleads : ∃ raw route, r.LeadsTo config raw route
  · obtain ⟨raw, route, hleads⟩ := hleads
    rw [Request.transition?_of_leadsTo hleads] at h
    rw [exchange_of_leadsTo hleads, Request.isChange_of_leadsTo hleads]
    exact ordinary_dispatch config r h
  · obtain ⟨response, hsettled, hrefused⟩ := exchange_of_not_leadsTo hleads
    rw [hsettled]
    exact .settled response (Response.isSuccess_of_le (hrefused hmethod).1)

/-! ### Requests for transitions -/

namespace Exchange

/-- The exchange that has a command end in a transition. -/
def triggering (id : String) (t : Transition) (c : Command) : Exchange :=
  .ask (.trigger c t) fun
    | .ok () => .noContent
    | .error e => .ofError (transitionError (.transition id t) e)

/-- The exchanges that requests for a transition come to. -/
inductive Transitional (id : String) (t : Transition) : Exchange → Prop
  | settled (r : Response) (h : r.isSuccess = false) : Transitional id t (.settled r)
  | triggering (c : Command) (h : c.execution = id) : Transitional id t (triggering id t c)

end Exchange

theorem readTrigger_execution {formats : DataFormats} {r : Request} {id : String} {t : Transition}
    {c : Command} (h : readTrigger formats r id t = .ok c) : c.execution = id := by
  obtain ⟨body, -, h⟩ := bind_eq_ok.mp h
  obtain ⟨settings, -, h⟩ := bind_eq_ok.mp h
  rw [← pure_eq_ok.mp h]

theorem exchange_of_transition? {config : Config} {r : Request} {id : String} {t : Transition}
    (h : r.transition? config = some (id, t)) :
    exchange config r = withBody config r (trigger config.formats r id t) := by
  obtain ⟨raw, hleads⟩ := Request.leadsTo_of_transition? h
  exact exchange_of_leadsTo hleads

/-- **A request for a transition is settled, or asks the engine for that transition.** -/
theorem transitional_exchange {config : Config} {r : Request} {id : String} {t : Transition}
    (h : r.transition? config = some (id, t)) : (exchange config r).Transitional id t := by
  rw [exchange_of_transition? h]
  unfold withBody
  split
  · exact .settled _ rfl
  · cases hc : readTrigger config.formats r id t with
    | error e =>
        simp only [trigger, hc]
        exact .settled _ (isSuccess_ofError e)
    | ok c =>
        simp only [trigger, hc]
        exact .triggering c (readTrigger_execution hc)

end Http

end CaseGateway
