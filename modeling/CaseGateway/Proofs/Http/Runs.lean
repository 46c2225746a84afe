/-
Runs of requests, and the life cycle of executions.

Requests of any number of clients are served one after the other; a run is the list of its
steps.  A step takes an execution through a transition when it asks for that and is answered
204.  One step either follows an edge of the life cycle or leaves the state of every execution
as it is: commands that end without a transition do not touch the executions, and a transition
without an edge is refused before anything is applied.  By induction the transitions of a run
spell a path, whatever stands between them, and what is known of paths holds of runs.
-/
import CaseGateway.Proofs.Http.Effect
import CaseGateway.Proofs.Http.Readers
import CaseGateway.Proofs.Lifecycle

namespace CaseGateway

open Lifecycle (Edge Path)

/-- The state of an execution, if it is known. -/
def Store.lifecycle? (s : Store) (id : String) : Option Lifecycle :=
  (s.executions.get? id).map (·.lifecycle)

theorem Store.lifecycle?_eq_some {s : Store} {id : String} {l : Lifecycle} :
    s.lifecycle? id = some l ↔ ∃ e, s.executions.get? id = some e ∧ e.lifecycle = l := by
  simp [lifecycle?]

namespace Http

/-! ### Runs -/

/-- A request that has been served, with the states before and after it. -/
structure Step (σ : Type) where
  request : Request
  before : σ
  response : Response
  after : σ

/-- The step that serves a request. -/
def Step.serving {σ : Type} [CaseEngine σ] (config : Config) (r : Request) (s : σ) : Step σ :=
  ⟨r, s, (serve config r s).1, (serve config r s).2⟩

/-- The steps of a run. -/
def steps {σ : Type} [CaseEngine σ] (config : Config) : List Request → σ → List (Step σ)
  | [], _ => []
  | r :: rs, s => .serving config r s :: steps config rs (serve config r s).2

/-- The state that a run ends in. -/
def serveAll {σ : Type} [CaseEngine σ] (config : Config) (requests : List Request) (s : σ) : σ :=
  requests.foldl (fun s r => (serve config r s).2) s

/-- The transition that a step takes an execution through. -/
def Step.takes? {σ : Type} (config : Config) (id : String) (step : Step σ) : Option Transition :=
  match step.request.transition? config with
  | some (other, t) => if other = id ∧ step.response.status = 204 then some t else none
  | none => none

/-- The transitions that a run takes an execution through, in order. -/
def taken {σ : Type} (config : Config) (id : String) (run : List (Step σ)) : List Transition :=
  run.filterMap (·.takes? config id)

theorem Step.takes?_eq_some {σ : Type} {config : Config} {id : String} {step : Step σ}
    {t : Transition} :
    step.takes? config id = some t ↔
      step.request.transition? config = some (id, t) ∧ step.response.status = 204 := by
  unfold takes?
  cases step.request.transition? config with
  | none => simp
  | some asked =>
      obtain ⟨other, t'⟩ := asked
      by_cases hother : other = id
      · by_cases hstatus : step.response.status = 204 <;> simp [hother, hstatus]
      · simp [hother]

/-! ### One exchange -/

namespace Exchange

/-- Without a transition nothing happens to the executions. -/
theorem Ordinary.run_executions {changes : Bool} {x : Exchange} (h : x.Ordinary changes)
    (s : Store) :
    (x.run s).2.executions = s.executions := by
  cases h with
  | settled r h => rfl
  | abandoned c calls e => rfl
  | asking h show? => exact congrArg Store.executions (Store.answer_reading h s)
  | attempting attempt h show? => exact congrArg Store.executions (Store.answer_reading h s)
  | executing h attempt c =>
      show (s.settle (s.execute c)).2.executions = s.executions
      cases hs' : s.execute c with
      | error e => rfl
      | ok s' =>
          obtain ⟨e, -, rfl⟩ := Store.execute_eq_ok.mp hs'
          exact (Store.changeAll_beyond _ _ _ s).executions

theorem run_triggering (s : Store) (c : Command) (id : String) (t : Transition) :
    (triggering id t c).run s = match s.trigger c t with
      | .ok s' => (.noContent, s')
      | .error e => (.ofError (transitionError (.transition id t) e), s) := by
  simp only [triggering, run, CaseEngine.answer, Store.answer]
  cases s.trigger c t <;> rfl

end Exchange

/-! ### One step -/

section

variable {config : Config} {r : Request} {id : String} {t : Transition}

theorem serve_executions (h : r.transition? config = none) (s : Store) :
    (serve config r s).2.executions = s.executions := by
  rw [serve_state]
  by_cases hoptions : r.method = .options
  · rw [exchange, if_pos hoptions]
    rfl
  · exact (ordinary_exchange config hoptions h).run_executions s

/-- **A request for a transition follows an edge and is answered 204, or changes nothing.** -/
theorem serve_transition (h : r.transition? config = some (id, t)) (s : Store) :
    ((serve config r s).1.status ≠ 204 ∧ (serve config r s).2 = s) ∨
      ∃ e next, s.executions.get? id = some e ∧ Edge e.lifecycle t next ∧
        (serve config r s).1.status = 204 ∧
        (serve config r s).2.executions = s.executions.insert id { e with lifecycle := next } := by
  rw [serve_status, serve_state]
  have hkind := transitional_exchange h
  generalize exchange config r = x at hkind ⊢
  cases hkind with
  | settled response hfailed =>
      refine Or.inl ⟨?_, rfl⟩
      intro hstatus
      have hstatus : response.status = 204 := hstatus
      rw [Response.isSuccess, hstatus] at hfailed
      exact absurd hfailed (by decide)
  | triggering c hid =>
      cases hs' : s.trigger c t with
      | error e =>
          rw [Exchange.run_triggering, hs']
          exact Or.inl ⟨ofError_status_ne _, rfl⟩
      | ok s' =>
          obtain ⟨e, next, he, hnext, rfl⟩ := Store.trigger_eq_ok.mp hs'
          rw [Exchange.run_triggering, hs']
          rw [hid] at he ⊢
          exact Or.inr ⟨e, next, he, Lifecycle.edge_of_after? hnext, rfl, rfl⟩

/-- A body that is not too long and can be read, with values for all its variables. -/
structure Request.Legible (config : Config) (r : Request) : Prop where
  short : r.body.length ≤ config.maxUploadBytes
  body : ∃ body, r.read .empty TriggerBody.ofJson? = .ok body ∧
    ∀ e ∈ body.settings.entries, ∃ value, config.formats.decode e.2.1 = .ok value

theorem Request.Legible.exchange_eq (hr : r.Legible config)
    (h : r.transition? config = some (id, t)) :
    ∃ c, c.execution = id ∧ exchange config r = .triggering id t c := by
  obtain ⟨body, hbody, hvalues⟩ := hr.body
  obtain ⟨settings, hsettings⟩ : ∃ settings,
      List.Forall₂ (Settles config.formats) body.settings.entries settings := by
    refine exists_forall₂ fun e he => ?_
    obtain ⟨value, hvalue⟩ := hvalues e he
    exact ⟨_, value, hvalue, rfl⟩
  obtain ⟨c, hread⟩ : ∃ c, readTrigger config.formats r id t = .ok c :=
    ⟨_, readTrigger_eq_ok.mpr ⟨body, settings, hbody, hsettings, rfl⟩⟩
  refine ⟨c, readTrigger_execution hread, ?_⟩
  rw [exchange_of_transition? h, withBody, if_neg (Nat.not_lt.mpr hr.short), trigger, hread]
  rfl

/-- A transition that fails is put down to the request. -/
theorem transitionError_of_trigger {s : Store} {c : Command} {e : EngineError}
    (h : s.trigger c t = .error e) (attempt : Attempt) :
    (transitionError attempt e).status = 400 := by
  rcases Store.trigger_eq_error h with rfl | ⟨execution, -, rfl⟩ <;> rfl

/-- **A legible request for a transition is answered by the life cycle alone.** -/
theorem serve_legible (hr : r.Legible config) (h : r.transition? config = some (id, t)) {s : Store}
    {l : Lifecycle} (hl : s.lifecycle? id = some l) :
    (∃ next, Edge l t next) ∧ (serve config r s).1.status = 204 ∨
      (¬∃ next, Edge l t next) ∧ (serve config r s).1.status = 400 := by
  obtain ⟨c, hid, hexchange⟩ := hr.exchange_eq h
  obtain ⟨e, he, rfl⟩ := Store.lifecycle?_eq_some.mp hl
  rw [serve_status, hexchange]
  cases hs' : s.trigger c t with
  | ok s' =>
      obtain ⟨e', next, he', hnext, -⟩ := Store.trigger_eq_ok.mp hs'
      rw [hid, he] at he'
      rw [Exchange.run_triggering, hs', Option.some.inj he']
      exact Or.inl ⟨⟨next, Lifecycle.edge_of_after? hnext⟩, rfl⟩
  | error error =>
      rw [Exchange.run_triggering, hs']
      refine Or.inr ⟨?_, transitionError_of_trigger hs' _⟩
      rintro ⟨next, hedge⟩
      have hok := Store.trigger_eq_ok.mpr
        ⟨e, next, by rw [hid]; exact he, hedge.after?_eq, rfl⟩
      rw [hok] at hs'
      cases hs'

end

/-! ### What a step does to an execution -/

/-- A step that serves its request. -/
structure Step.Served {σ : Type} [CaseEngine σ] (config : Config) (step : Step σ) : Prop where
  response : step.response = (serve config step.request step.before).1
  after : step.after = (serve config step.request step.before).2

theorem served_serving {σ : Type} [CaseEngine σ] (config : Config) (r : Request) (s : σ) :
    (Step.serving config r s).Served config := ⟨rfl, rfl⟩

theorem served_of_mem {σ : Type} [CaseEngine σ] {config : Config} {requests : List Request}
    {step : Step σ} :
    ∀ {s : σ}, step ∈ steps config requests s → step.Served config := by
  induction requests with
  | nil => intro s h; simp [steps] at h
  | cons r requests ih =>
      intro s h
      rcases List.mem_cons.mp h with rfl | hmem
      · exact served_serving config r s
      · exact ih hmem

section

variable {config : Config} {step : Step Store} {id : String} {t : Transition}

/-- A transition that is taken follows an edge. -/
theorem Step.Served.follows (h : step.Served config) (ht : step.takes? config id = some t) :
    ∃ l next, step.before.lifecycle? id = some l ∧ Edge l t next ∧
      step.after.lifecycle? id = some next := by
  obtain ⟨hasks, hstatus⟩ := Step.takes?_eq_some.mp ht
  rw [h.response] at hstatus
  rcases serve_transition hasks step.before with ⟨hfailed, -⟩ | ⟨e, next, he, hedge, -, hafter⟩
  · exact absurd hstatus hfailed
  · refine ⟨e.lifecycle, next, by simp [Store.lifecycle?, he], hedge, ?_⟩
    rw [h.after, Store.lifecycle?, hafter, Dictionary.get?_insert_self, Option.map_some]

/-- Without that, the state of the execution stays, and so it does of one that is not known. -/
theorem Step.Served.rests (h : step.Served config) (ht : step.takes? config id = none) :
    step.after.lifecycle? id = step.before.lifecycle? id := by
  unfold Store.lifecycle?
  rw [h.after]
  cases hasks : step.request.transition? config with
  | none => rw [serve_executions hasks]
  | some asked =>
      obtain ⟨other, t⟩ := asked
      rcases serve_transition hasks step.before with ⟨-, hsame⟩ | ⟨e, next, -, -, hstatus, hafter⟩
      · rw [hsame]
      · rw [hafter, Dictionary.get?_insert]
        by_cases hother : other = id
        · have htaken : step.takes? config id = some t :=
            Step.takes?_eq_some.mpr ⟨by rw [hasks, hother], by rw [h.response, hstatus]⟩
          rw [htaken] at ht
          cases ht
        · rw [if_neg hother]

theorem Step.Served.known (h : step.Served config) {l : Lifecycle}
    (hl : step.before.lifecycle? id = some l) : ∃ l', step.after.lifecycle? id = some l' := by
  cases ht : step.takes? config id with
  | none => exact ⟨l, (h.rests ht).trans hl⟩
  | some t =>
      obtain ⟨-, next, -, -, hnext⟩ := h.follows ht
      exact ⟨next, hnext⟩

end

/-! ### Whole runs -/

theorem known_of_mem {config : Config} {id : String} {requests : List Request}
    {step : Step Store} :
    ∀ {s : Store} {l : Lifecycle}, s.lifecycle? id = some l → step ∈ steps config requests s →
      ∃ l', step.before.lifecycle? id = some l' := by
  induction requests with
  | nil => intro s l _ h; simp [steps] at h
  | cons r requests ih =>
      intro s l hl h
      rcases List.mem_cons.mp h with rfl | hmem
      · exact ⟨l, hl⟩
      · obtain ⟨l', hl'⟩ := (served_serving config r s).known hl
        exact ih hl' hmem

/-- **The transitions of a run spell a path from the state before it to the state after it.** -/
theorem path_taken (config : Config) (id : String) (requests : List Request) :
    ∀ {s : Store} {l : Lifecycle}, s.lifecycle? id = some l →
      ∃ l', (serveAll config requests s).lifecycle? id = some l' ∧
        Path l (taken config id (steps config requests s)) l' := by
  induction requests with
  | nil => exact fun {s l} hl => ⟨l, hl, .nil l⟩
  | cons r requests ih =>
      intro s l hl
      have hserved := served_serving config r s
      have htaken : taken config id (steps config (r :: requests) s)
          = ((Step.serving config r s).takes? config id).toList
            ++ taken config id (steps config requests (serve config r s).2) := by
        unfold taken
        rw [steps, List.filterMap_cons]
        cases (Step.serving config r s).takes? config id <;> rfl
      rw [htaken]
      cases ht : (Step.serving config r s).takes? config id with
      | none => exact ih ((hserved.rests ht).trans hl)
      | some t =>
          obtain ⟨l₀, next, hl₀, hedge, hnext⟩ := hserved.follows ht
          obtain rfl : l₀ = l := Option.some.inj (hl₀.symm.trans hl)
          obtain ⟨l', hl', hpath⟩ := ih hnext
          exact ⟨l', hl', .cons hedge hpath⟩

/-- **The life cycle is kept in every run.**

From whatever store a run starts, and whoever sends its requests, the transitions that an
execution is taken through spell a path of the life cycle.  So it is started once at most and
completed once at most, and after it has been completed it is taken through nothing more.  At
every step a legible request for a transition is answered 204 if there is an edge for it at
that moment, and 400 if there is none; and a step that does not take an execution through a
transition leaves its state alone. -/
theorem run_lifecycle (config : Config) (requests : List Request) {s : Store} {id : String}
    {l : Lifecycle} (h : s.lifecycle? id = some l) :
    let run := steps config requests s
    let ts := taken config id run
    (∃ l', (serveAll config requests s).lifecycle? id = some l' ∧ Path l ts l') ∧
      ts.count .manualStart ≤ 1 ∧ ts.count .complete ≤ 1 ∧
      (∀ before after, ts = before ++ .complete :: after → after = []) ∧
      ∀ step ∈ run,
        (∃ now, step.before.lifecycle? id = some now ∧
          ∀ t, step.request.transition? config = some (id, t) → step.request.Legible config →
            (∃ next, Edge now t next) ∧ step.response.status = 204 ∨
              (¬∃ next, Edge now t next) ∧ step.response.status = 400) ∧
        ∀ other, step.takes? config other = none →
          step.after.lifecycle? other = step.before.lifecycle? other := by
  intro run ts
  obtain ⟨l', hl', hpath⟩ := path_taken config id requests h
  refine ⟨⟨l', hl', hpath⟩, hpath.count_manualStart_le, hpath.count_complete_le, ?_, ?_⟩
  · intro before after hts
    have hpath : Path l ts l' := hpath
    rw [hts] at hpath
    exact hpath.complete_last
  · intro step hstep
    have hserved := served_of_mem hstep
    obtain ⟨now, hnow⟩ := known_of_mem h hstep
    refine ⟨⟨now, hnow, ?_⟩, fun other => hserved.rests⟩
    intro t hasks hlegible
    rw [hserved.response]
    exact serve_legible hlegible hasks hnow

/-- Of two clients that both want to start a task the second is refused, and so is one that wants
to disable it when it is complete; the task goes from the first start to its completion. -/
theorem run_lifecycle_task :
    let ask (segment : String) : Request :=
      { method := .post
        path := "/engine-rest/case-execution/task/" ++ segment
        queryString := ""
        contentType := none
        body := [] }
    let requests := [ask "manual-start", ask "manual-start", ask "complete", ask "disable"]
    let run := steps Config.standard requests Store.paintShop
    Store.paintShop.lifecycle? "task" = some .enabled ∧
      run.map (·.response.status) = [204, 400, 204, 400] ∧
      taken Config.standard "task" run = [.manualStart, .complete] ∧
      Path .enabled (taken Config.standard "task" run) .completed := by
  intro ask requests run
  have henabled : Store.paintShop.lifecycle? "task" = some .enabled := by decide
  obtain ⟨⟨l', hl', hpath⟩, -⟩ := run_lifecycle Config.standard requests henabled
  have hend : (serveAll Config.standard requests Store.paintShop).lifecycle? "task"
      = some .completed := by decide +kernel
  obtain rfl : l' = .completed := Option.some.inj (hl'.symm.trans hend)
  exact ⟨henabled, by decide +kernel, by decide +kernel, hpath⟩

end Http

end CaseGateway
