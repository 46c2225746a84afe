/-
Requests that are sent again.

A client that has not seen the answer to a request sends it once more.  To set a variable again is
to do nothing: the row that the first request has set, or added, is the one that the second one
finds, even where the scope leaves it open which row that is.

To delete a variable again is different, if it is looked for in the global scope.  An execution's
own variable hides that of the case instance, and is deleted in its place; then there is nothing
to hide the other one, and the second request deletes it.  This is all that can happen as long as
no variable has a second copy: in every other case the second request finds nothing to delete.
-/
import CaseGateway.Proofs.Http.Deletion

namespace CaseGateway

namespace Store

/-! ### Changes that are made again -/

section Rows

variable {ρ : Type} {p : ρ → Bool} {f : ρ → ρ}

/-- Nothing is updated where the first row that is found is as it should be. -/
theorem updateFirst_eq_self {l : List ρ} (h : ∀ a, l.find? p = some a → f a = a) :
    updateFirst p f l = l := by
  induction l with
  | nil => rfl
  | cons a l ih =>
      rw [updateFirst]
      by_cases ha : p a
      · rw [if_pos ha, h a (List.find?_cons_of_pos ha)]
      · rw [if_neg ha, ih fun b hb => h b ((List.find?_cons_of_neg ha).trans hb)]

end Rows

section

variable (s : Store) (target caseInstance name : String) (value : TypedValue)

/-- After a write, the first row of the variable is there and has the value. -/
theorem find?_write_self : ∃ row,
    (s.write target caseInstance name value).instances.find? (isVariable target name) = some row ∧
      row.value = value := by
  unfold write
  by_cases hhas : s.hasVariable target name
  · obtain ⟨row, hrow⟩ := Option.isSome_iff_exists.mp (List.isSome_find?.trans hhas)
    refine ⟨{ row with value }, ?_, rfl⟩
    rw [if_pos hhas]
    dsimp only
    rw [find?_updateFirst_self (f := fun v : VariableInstance => { v with value }) fun _ => rfl,
      hrow]
    rfl
  · have hnone : s.instances.find? (isVariable target name) = none := by
      rw [← Option.not_isSome_iff_eq_none, List.isSome_find?]
      exact hhas
    rw [if_neg hhas, List.find?_append, hnone, Option.none_or]
    exact ⟨_, List.find?_cons_of_pos (by simp [isVariable, VariableInstance.plain]), rfl⟩

theorem hasVariable_write_self :
    (s.write target caseInstance name value).hasVariable target name := by
  obtain ⟨row, hrow, -⟩ := s.find?_write_self target caseInstance name value
  rw [hasVariable, ← List.isSome_find?, hrow]
  rfl

theorem hasVariable_write_of_ne {x : String} (hx : x ≠ target) (name' : String) :
    (s.write target caseInstance name value).hasVariable x name' = s.hasVariable x name' := by
  rw [hasVariable_eq_any, hasVariable_eq_any, holdings_write_of_ne _ _ _ _ _ hx]

/-- To write a value again changes nothing. -/
theorem write_write :
    (s.write target caseInstance name value).write target caseInstance name value
      = s.write target caseInstance name value := by
  obtain ⟨row, hrow, hvalue⟩ := s.find?_write_self target caseInstance name value
  have hhas := s.hasVariable_write_self target caseInstance name value
  generalize s.write target caseInstance name value = t at hrow hhas ⊢
  have hsame : updateFirst (isVariable target name) (fun v => { v with value }) t.instances
      = t.instances := by
    refine updateFirst_eq_self ?_
    intro found hfound
    obtain rfl := Option.some.inj (hrow.symm.trans hfound)
    rw [← hvalue]
  rw [write, if_pos hhas, hsame]

theorem hasVariable_erase_of_ne {x : String} (hx : x ≠ target) (name' : String) :
    (s.erase target name).hasVariable x name' = s.hasVariable x name' := by
  rw [hasVariable_eq_any, hasVariable_eq_any, holdings_erase_of_ne _ _ _ hx]

/-- There is nothing left of a variable that had no second copy. -/
theorem hasVariable_erase_self (h : s.copies target name ≤ 1) :
    (s.erase target name).hasVariable target name = false := by
  rw [← Bool.not_eq_true, hasVariable_iff_copies, copies_erase]
  omega

theorem erase_eq_self_iff : s.erase target name = s ↔ s.hasVariable target name = false := by
  have hinstances : s.erase target name = s
      ↔ s.instances.eraseP (isVariable target name) = s.instances :=
    ⟨fun h => congrArg Store.instances h, fun h => by rw [erase, h]⟩
  rw [hinstances, List.eraseP_eq_self_iff, hasVariable, List.any_eq_false]

end

section

variable {s : Store} {execution caseInstance name : String} {scope : VariableScope}

/-- To set a variable again, in whichever scope, changes nothing. -/
theorem change_set_again (s : Store) (execution caseInstance name : String) (value : TypedValue)
    (scope : VariableScope) :
    (s.change execution caseInstance (.set name value scope)).change execution caseInstance
        (.set name value scope)
      = s.change execution caseInstance (.set name value scope) := by
  by_cases hown : scope = .localOnly ∨ s.hasVariable execution name
  · have hown' : scope = .localOnly ∨
        (s.write execution caseInstance name value.normalized).hasVariable execution name :=
      Or.inr (hasVariable_write_self _ _ _ _ _)
    simp only [change, if_pos hown, if_pos hown', write_write]
  · -- The variable is that of the case instance, and the execution gets none of its own, unless it
    -- is the case instance itself.
    by_cases hsame : caseInstance = execution
    · subst hsame
      simp only [change, ite_self, write_write]
    · have hown' : ¬(scope = .localOnly ∨
          (s.write caseInstance caseInstance name value.normalized).hasVariable execution name) := by
        rwa [hasVariable_write_of_ne _ _ _ _ _ (Ne.symm hsame)]
      simp only [change, if_neg hown, if_neg hown', write_write]

/-- A variable in a scope that hides one of the same name, which belongs to the case instance. -/
structure Hides (s : Store) (execution caseInstance name : String) (scope : VariableScope) :
    Prop where
  scope : scope = .global
  apart : caseInstance ≠ execution
  own : s.hasVariable execution name
  shared : s.hasVariable caseInstance name

/-- A variable that hides another one is deleted first, and the other one next. -/
theorem Hides.change_remove_again (h : s.Hides execution caseInstance name scope)
    (hunique : s.UniqueVariables) :
    (s.change execution caseInstance (.remove name scope)).change execution caseInstance
        (.remove name scope)
      = (s.erase execution name).erase caseInstance name := by
  obtain ⟨rfl, -, hown, -⟩ := h
  have hgone := s.hasVariable_erase_self execution name (uniqueVariables_iff.mp hunique _ _)
  simp [change, hown, hgone]

/-- What is looked for after a variable was deleted is found exactly if it was hidden before. -/
theorem change_remove_again_eq_iff (hunique : s.UniqueVariables) :
    (s.change execution caseInstance (.remove name scope)).change execution caseInstance
        (.remove name scope)
      = s.change execution caseInstance (.remove name scope)
      ↔ ¬s.Hides execution caseInstance name scope := by
  have hgone : ∀ target, (s.erase target name).hasVariable target name = false :=
    fun target => s.hasVariable_erase_self target name (uniqueVariables_iff.mp hunique _ _)
  cases scope with
  | localOnly =>
      have hnot : ¬s.Hides execution caseInstance name .localOnly := by
        intro h
        cases h.scope
      simp [change, hgone, erase_eq_self_iff, hnot]
  | global =>
      by_cases hown : s.hasVariable execution name
      · by_cases hapart : caseInstance = execution
        · subst hapart
          have hnot : ¬s.Hides caseInstance caseInstance name .global := fun h => h.apart rfl
          simp [change, hown, hgone, erase_eq_self_iff, hnot]
        · have hshared := s.hasVariable_erase_of_ne execution name hapart name
          have hhides : s.Hides execution caseInstance name .global
              ↔ s.hasVariable caseInstance name :=
            ⟨fun h => h.shared, fun h => ⟨rfl, hapart, hown, h⟩⟩
          simp [change, hown, hgone, erase_eq_self_iff, hshared, hhides]
      · have hnot : ¬s.Hides execution caseInstance name .global := fun h => hown h.own
        have hown' : (s.erase caseInstance name).hasVariable execution name = false := by
          by_cases hapart : execution = caseInstance
          · rw [hapart]
            exact hgone caseInstance
          · rw [hasVariable_erase_of_ne _ _ _ hapart]
            exact Bool.eq_false_iff.mpr hown
        simp [change, hown, hown', hgone, erase_eq_self_iff, hnot]

end

end Store

namespace Http

/-! ### Exchanges that are repeated -/

namespace Exchange

/-- An exchange that comes to the same when it is repeated, and then changes nothing any more. -/
def Repeatable (x : Exchange) : Prop :=
  ∀ s : Store, x.run (x.run s).2 = x.run s

theorem Reading.repeatable {x : Exchange} (h : x.Reading) : x.Repeatable := by
  intro s
  rw [h.run_eq]

theorem repeatable_given {α : Type} {input : Except RestError α} {x : α → Exchange}
    (h : ∀ a, input = .ok a → (x a).Repeatable) : (given input x).Repeatable := by
  cases input with
  | ok a => exact h a rfl
  | error e => exact (Reading.settled _).repeatable

theorem repeatable_withBody (config : Config) (r : Request) {x : Exchange} (h : x.Repeatable) :
    (withBody config r x).Repeatable := by
  unfold withBody
  split
  · exact (Reading.settled _).repeatable
  · exact h

/-- What becomes of a command that is given to the engine. -/
theorem run_attempting (attempt : Attempt) (c : Command) (s : Store) :
    (attempting attempt (.execute c) done).run s =
      match s.executions.get? c.execution with
      | some e => (.noContent, s.changeAll c.execution e.caseInstance c.changes)
      | none =>
        let error := EngineError.unknownExecution c.execution
        (.ofError (.engine (error.withContext attempt.failed)), s) := by
  cases he : s.executions.get? c.execution with
  | some e =>
      simp only [attempting, run, CaseEngine.answer, Store.answer_execute he]
      rfl
  | none =>
      simp only [attempting, run, CaseEngine.answer, Store.answer, Store.execute_unknown he]
      rfl

theorem repeatable_attempting {c : Command} (attempt : Attempt)
    (h : ∀ (s : Store) (caseInstance : String),
      (s.changeAll c.execution caseInstance c.changes).changeAll c.execution caseInstance c.changes
        = s.changeAll c.execution caseInstance c.changes) :
    (attempting attempt (.execute c) done).Repeatable := by
  intro s
  rw [run_attempting attempt c s]
  cases he : s.executions.get? c.execution with
  | none => simp only [run_attempting, he]
  | some e =>
      have hexecutions := (s.changeAll_beyond c.execution e.caseInstance c.changes).executions
      simp only [run_attempting, hexecutions, he, h]

end Exchange

/-! ### Requests that are sent again -/

/-- A request to put or to delete something is about a variable of an execution, or only looks. -/
theorem leadsTo_variable_or_reading (config : Config) {r : Request}
    (hmethod : r.method = .put ∨ r.method = .delete) :
    (∃ raw id segment name, r.LeadsTo config raw (.executionVariable id segment name)) ∨
      (exchange config r).Reading := by
  by_cases hleads : ∃ raw route, r.LeadsTo config raw route
  · obtain ⟨raw, route, hleads⟩ := hleads
    cases hchange : r.isChange config with
    | false => exact Or.inr (reading_exchange hchange)
    | true =>
        rw [Request.isChange_of_leadsTo hleads] at hchange
        cases route with
        | executionVariable id segment name => exact Or.inl ⟨raw, id, segment, name, hleads⟩
        | _ => rcases hmethod with h | h <;> simp [Route.isChange, h] at hchange
  · obtain ⟨response, hsettled, -⟩ := exchange_of_not_leadsTo hleads
    rw [hsettled]
    exact Or.inr (.settled response)

theorem repeatable_put (config : Config) {r : Request} (hmethod : r.method = .put) :
    (exchange config r).Repeatable := by
  rcases leadsTo_variable_or_reading config (Or.inl hmethod) with
    ⟨raw, id, segment, name, hleads⟩ | hreading
  · rw [exchange_of_leadsTo hleads]
    simp only [dispatch, hmethod]
    refine Exchange.repeatable_withBody config r (Exchange.repeatable_given ?_)
    intro c hc
    obtain ⟨scope, wire, value, -, -, -, rfl⟩ := readPut_eq_ok.mp hc
    exact Exchange.repeatable_attempting _ fun s caseInstance =>
      s.change_set_again id caseInstance name value scope
  · exact hreading.repeatable

/-- A request to delete something deletes a variable of an execution, or only looks. -/
theorem deletes_or_reading {config : Config} {r : Request} (hmethod : r.method = .delete) :
    (∃ id name scope, r.Deletes config id name scope) ∨ (exchange config r).Reading := by
  rcases leadsTo_variable_or_reading config (Or.inr hmethod) with
    ⟨raw, id, segment, name, hleads⟩ | hreading
  · cases hscope : scopeOf segment with
    | ok scope => exact Or.inl ⟨id, name, scope, hmethod, raw, segment, hleads, hscope⟩
    | error error =>
        rw [exchange_of_leadsTo hleads]
        simp only [dispatch, hmethod, deleteVariable, hscope]
        exact Or.inr (.settled _)
  · exact Or.inr hreading

/-- A request is to delete one variable at most. -/
theorem Request.Deletes.unique {config : Config} {r : Request} {id id' name name' : String}
    {scope scope' : VariableScope} (h : r.Deletes config id name scope)
    (h' : r.Deletes config id' name' scope') : id' = id ∧ name' = name ∧ scope' = scope := by
  obtain ⟨raw, segment, hleads, hscope⟩ := h.leads
  obtain ⟨raw', segment', hleads', hscope'⟩ := h'.leads
  obtain ⟨rfl, rfl, rfl⟩ := Route.executionVariable.inj (hleads.unique hleads')
  exact ⟨rfl, rfl, Except.ok.inj (hscope'.symm.trans hscope)⟩

/-- Nothing is deleted of an execution that is not known. -/
theorem Request.Deletes.serve_unknown {config : Config} {r : Request} {id name : String}
    {scope : VariableScope} (h : r.Deletes config id name scope) {s : Store}
    (hunknown : s.executions.get? id = none) : (serve config r s).2 = s := by
  obtain ⟨raw, segment, hleads, hscope⟩ := h.leads
  rw [serve_of_leadsTo hleads (by rw [h.method]; decide)]
  simp only [dispatch, h.method, deleteVariable, hscope, Exchange.given]
  rw [Exchange.run_attempting]
  simp only [hunknown]

/-- A request is sent again to a known execution, which is still known. -/
theorem Request.Deletes.serve_again {config : Config} {r : Request} {id name : String}
    {scope : VariableScope} (h : r.Deletes config id name scope) {s : Store} {e : CaseExecution}
    (he : s.executions.get? id = some e) :
    let change := VariableChange.remove name scope
    serve config r (serve config r s).2
      = (.noContent, (s.change id e.caseInstance change).change id e.caseInstance change) := by
  intro change
  have hexecutions := (s.change_beyond id e.caseInstance change).executions
  rw [h.serve_change he]
  exact h.serve_change (hexecutions ▸ he)

/-- A request to delete a variable in the global scope where it hides one of the case instance. -/
structure Request.Uncovers (config : Config) (r : Request) (s : Store) (id name : String)
    (e : CaseExecution) : Prop where
  deletes : r.Deletes config id name .global
  known : s.executions.get? id = some e
  hides : s.Hides id e.caseInstance name .global

theorem Request.Deletes.uncovers_iff {config : Config} {r : Request} {id name : String}
    {scope : VariableScope} (h : r.Deletes config id name scope) {s : Store} {e : CaseExecution}
    (he : s.executions.get? id = some e) :
    (∃ id name e, r.Uncovers config s id name e) ↔ s.Hides id e.caseInstance name scope := by
  constructor
  · rintro ⟨id', name', e', hdeletes, he', hhides⟩
    obtain ⟨rfl, rfl, rfl⟩ := h.unique hdeletes
    obtain rfl := Option.some.inj (he.symm.trans he')
    exact hhides
  · intro hhides
    obtain rfl := hhides.scope
    exact ⟨id, name, e, h, he, hhides⟩

/-- A request that has changed nothing comes to the same when it is sent again. -/
theorem serve_again_of_same {config : Config} {r : Request} {s : Store}
    (h : (serve config r s).2 = s) :
    serve config r (serve config r s).2 = serve config r s := by
  rw [h]

/-- To delete something twice is answered alike, and comes to the same unless one of the variables
was hidden by the other. -/
theorem delete_again {config : Config} {r : Request} (hmethod : r.method = .delete) (s : Store) :
    (serve config r (serve config r s).2).1 = (serve config r s).1 ∧
      (s.UniqueVariables → ((serve config r (serve config r s).2).2 = (serve config r s).2 ↔
        ¬∃ id name e, r.Uncovers config s id name e)) := by
  by_cases hdeletes : ∃ id name scope, r.Deletes config id name scope
  · obtain ⟨id, name, scope, hdeletes⟩ := hdeletes
    cases he : s.executions.get? id with
    | none =>
        have hnot : ¬∃ id name e, r.Uncovers config s id name e := by
          rintro ⟨id', name', e, huncovers⟩
          obtain ⟨rfl, -, -⟩ := hdeletes.unique huncovers.deletes
          rw [huncovers.known] at he
          cases he
        rw [serve_again_of_same (hdeletes.serve_unknown he)]
        exact ⟨rfl, fun _ => ⟨fun _ => hnot, fun _ => rfl⟩⟩
    | some e =>
        rw [hdeletes.serve_again he, hdeletes.serve_change he, hdeletes.uncovers_iff he]
        exact ⟨rfl, fun hunique => Store.change_remove_again_eq_iff hunique⟩
  · have hnot : ¬∃ id name e, r.Uncovers config s id name e := by
      rintro ⟨id, name, e, huncovers⟩
      exact hdeletes ⟨id, name, .global, huncovers.deletes⟩
    have hsame : (serve config r s).2 = s :=
      ((deletes_or_reading hmethod).resolve_left hdeletes).run_eq s
    rw [serve_again_of_same hsame]
    exact ⟨rfl, fun _ => ⟨fun _ => hnot, fun _ => rfl⟩⟩

/-- **Requests that are sent again.**

To put something twice is to put it once, in every store: the answer is the same, and so is what
the store is left as.  To delete something twice is answered alike as well.  If no variable has a
second copy, the second deletion changes nothing, except where an execution's own variable was
deleted that had hidden one of the case instance: then that one is deleted next. -/
theorem serve_twice (config : Config) (r : Request) (s : Store) :
    let once := serve config r s
    let twice := serve config r once.2
    (r.method = .put → twice = once) ∧
    (r.method = .delete → twice.1 = once.1) ∧
    (r.method = .delete → s.UniqueVariables →
      (twice.2 = once.2 ↔ ¬∃ id name e, r.Uncovers config s id name e) ∧
      ∀ id name e, r.Uncovers config s id name e →
        once.2 = s.erase id name ∧ twice.2 = (s.erase id name).erase e.caseInstance name) := by
  intro once twice
  refine ⟨?_, fun hdelete => (delete_again hdelete s).1, fun hdelete hunique => ?_⟩
  · intro hput
    have hrun := repeatable_put config hput s
    show serve config r (serve config r s).2 = serve config r s
    rw [serve_state, serve_eq, hrun, serve_eq]
  · refine ⟨(delete_again hdelete s).2 hunique, ?_⟩
    intro id name e huncovers
    have hagain := huncovers.hides.change_remove_again hunique
    have honce : once = _ := huncovers.deletes.serve_change huncovers.known
    have htwice : twice = _ := huncovers.deletes.serve_again huncovers.known
    rw [honce, htwice]
    exact ⟨by simp [Store.change, huncovers.hides.own], hagain⟩

/-- The task has no color of its own, so the color of the case is deleted, and then there is nothing
to delete; and to put it back twice is to put it back once. -/
theorem serve_twice_color :
    let path := "/engine-rest/case-execution/task/variables/color"
    let delete : Request := .ofTarget .delete path none []
    let put : Request := .ofTarget .put path none (Text.toUtf8 "\x7b\"value\":\"blue\"\x7d")
    let without := (serve Config.standard delete Store.paintShop).2
    let painted := (serve Config.standard put without).2
    (serve Config.standard delete without).2 = without ∧ without.hasVariable "case" "color" = false ∧
      (serve Config.standard put painted).2 = painted ∧ painted.hasVariable "case" "color" := by
  intro path delete put without painted
  have hroute : (Route.executionVariable "task" "variables" "color").unescaped
      = .ok (.executionVariable "task" "variables" "color") := by decide +kernel
  have hdeletes : delete.Deletes Config.standard "task" "color" .global :=
    ⟨rfl, .executionVariable "task" "variables" "color", "variables",
      ⟨by decide, by decide +kernel, by decide, hroute⟩, by decide⟩
  have hnot : ¬∃ id name e, delete.Uncovers Config.standard Store.paintShop id name e := by
    rintro ⟨id, name, e, huncovers⟩
    obtain ⟨rfl, rfl, -⟩ := hdeletes.unique huncovers.deletes
    exact absurd huncovers.hides.own (by decide)
  obtain ⟨-, -, hdelete⟩ := serve_twice Config.standard delete Store.paintShop
  obtain ⟨hput, -, -⟩ := serve_twice Config.standard put without
  obtain ⟨hsame, -⟩ := hdelete rfl (by decide)
  exact ⟨hsame.mpr hnot, by decide +kernel, congrArg Prod.snd (hput rfl), by decide +kernel⟩

/-- The task's own color hides that of the case.  Deleted once, the case keeps its color; deleted
twice, it does not. -/
theorem second_delete_uncovers :
    let lookup : Request :=
      .ofTarget .get "/engine-rest/case-execution/case/localVariables/color" none []
    let delete : Request :=
      .ofTarget .delete "/engine-rest/case-execution/task/variables/color" none []
    let s := Store.paintShop.insertVariable
      { VariableInstance.plain "v2" "color" (.string (some "blue")) with
        caseExecutionId := some "task" }
    let once := serve Config.standard delete s
    let twice := serve Config.standard delete once.2
    s.Reachable ∧ s.UniqueVariables ∧ once.1.status = 204 ∧ twice.1.status = 204 ∧
      twice.2 ≠ once.2 ∧ (serve Config.standard lookup once.2).1.status = 200 ∧
      (serve Config.standard lookup twice.2).1.status = 404 := by
  intro lookup delete s once twice
  have hreachable : s.Reachable :=
    .insertVariable (.insertVariable (.register .empty "task" "case") _) _
  have hunique : s.UniqueVariables := by decide
  have hfirst : once.1.status = 204 := by decide +kernel
  have hsecond : twice.1.status = 204 := by decide +kernel
  have honce : (serve Config.standard lookup once.2).1.status = 200 := by decide +kernel
  have htwice : (serve Config.standard lookup twice.2).1.status = 404 := by decide +kernel
  have hne : twice.2 ≠ once.2 := by
    intro heq
    rw [heq, honce] at htwice
    exact absurd htwice (by decide)
  exact ⟨hreachable, hunique, hfirst, hsecond, hne, honce, htwice⟩

end Http

end CaseGateway
