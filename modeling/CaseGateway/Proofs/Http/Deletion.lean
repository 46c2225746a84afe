/-
What a deletion leaves.

A variable is looked up by its last row, and a deletion takes out the first one.  That comes to
the same as long as there is no other, and no request ever adds a second row: values are set in
the row that is there.  Rows that are inserted are taken as they are, though, and then an
execution may have several copies of one variable.  Each deletion takes one of them away and
reports success, and what is left shows through until there is none.

So a deleted variable is gone exactly if there was no second copy, and there is none as long as
whoever inserts rows does what requests do, and looks for the variable first.
-/
import CaseGateway.Proofs.Http.ReadYourWrites
import CaseGateway.Proofs.Store.Independence
import Mathlib.Data.List.Nodup

namespace CaseGateway

namespace Store

/-! ### Copies -/

/-- The number of rows that are one and the same variable of an execution. -/
def copies (s : Store) (execution name : String) : Nat :=
  s.instances.countP (isVariable execution name)

theorem countP_eraseP {ρ : Type} (p : ρ → Bool) (l : List ρ) :
    (l.eraseP p).countP p = l.countP p - 1 := by
  induction l with
  | nil => rfl
  | cons a l ih =>
      by_cases ha : p a
      · rw [List.eraseP_cons_of_pos ha, List.countP_cons_of_pos ha, Nat.add_sub_cancel]
      · rw [List.eraseP_cons_of_neg ha, List.countP_cons_of_neg ha, List.countP_cons_of_neg ha, ih]

/-- A deletion takes one copy away. -/
theorem copies_erase (s : Store) (execution name : String) :
    (s.erase execution name).copies execution name = s.copies execution name - 1 :=
  countP_eraseP _ _

theorem hasVariable_iff_copies {s : Store} {execution name : String} :
    s.hasVariable execution name ↔ 0 < s.copies execution name := by
  rw [hasVariable, List.any_eq_true, copies, List.countP_pos_iff]

/-- A variable is seen as long as there is a copy of it. -/
theorem isSome_get?_collect (s : Store) (execution name : String) :
    ((s.collect execution .empty).get? name).isSome = s.hasVariable execution name := by
  rw [collect_eq_foldl, Dictionary.get?_foldl_insert (fun e : String × TypedValue => e.1) (·.2), Dictionary.get?_empty,
    Option.or_none, Option.isSome_map, List.isSome_find?, List.any_reverse, hasVariable_eq_any]

/-- Of a variable that is deleted nothing is seen if there was no second copy. -/
theorem get?_collect_erase {s : Store} {execution name : String} :
    ((s.erase execution name).collect execution .empty).get? name = none
      ↔ s.copies execution name ≤ 1 := by
  rw [← Option.not_isSome_iff_eq_none, isSome_get?_collect, hasVariable_iff_copies, copies_erase]
  omega

theorem copies_eq_count (s : Store) (execution name : String) :
    s.copies execution name = s.places.count (execution, name) := by
  rw [copies, places, List.count, List.countP_filterMap]
  congr 1
  funext v
  rw [Bool.eq_iff_iff, isVariable_iff]
  cases v.place <;> simp

/-- No two rows are the same variable exactly if there is no second copy of any. -/
theorem uniqueVariables_iff {s : Store} :
    s.UniqueVariables ↔ ∀ execution name, s.copies execution name ≤ 1 := by
  rw [UniqueVariables, List.nodup_iff_count_le_one]
  simp only [copies_eq_count, Prod.forall]

theorem scopedVariables_local {s : Store} {id : String} {e : CaseExecution}
    (he : s.executions.get? id = some e) :
    s.scopedVariables id .localOnly = .ok (s.collect id .empty) := by
  simp only [scopedVariables, execution, he]
  rfl

/-! ### Rows that are inserted -/

/-- A variable that its execution does not have yet. -/
def Fresh (s : Store) (v : VariableInstance) : Prop :=
  ∀ execution, v.caseExecutionId = some execution → s.hasVariable execution v.name = false

theorem copies_insertVariable (s : Store) (v : VariableInstance) (execution name : String) :
    (s.insertVariable v).copies execution name
      = s.copies execution name + if isVariable execution name v then 1 else 0 := by
  rw [copies, insertVariable, List.countP_append, List.countP_singleton]
  rfl

theorem unique_insertVariable {s : Store} (h : s.UniqueVariables) {v : VariableInstance}
    (hv : Fresh s v) : (s.insertVariable v).UniqueVariables := by
  rw [uniqueVariables_iff] at h ⊢
  intro execution name
  rw [copies_insertVariable]
  by_cases hrow : isVariable execution name v
  · obtain ⟨rfl, hexecution⟩ : v.name = name ∧ v.caseExecutionId = some execution := by
      simpa [isVariable] using hrow
    have hnone : ¬0 < s.copies execution v.name := by
      rw [← hasVariable_iff_copies, hv execution hexecution]
      exact Bool.false_ne_true
    rw [if_pos hrow]
    omega
  · rw [if_neg hrow]
    exact h execution name

end Store

namespace Http

/-! ### Stores that grow -/

/-- The stores that come about when executions are registered, requests are served, and variables
are inserted that a condition admits. -/
inductive Grown (config : Config) (admits : Store → VariableInstance → Prop) : Store → Prop
  | empty : Grown config admits .empty
  | register {s : Store} (h : Grown config admits s) (execution caseInstance : String) :
    Grown config admits (s.register execution caseInstance)
  | insert {s : Store} (h : Grown config admits s) {v : VariableInstance} (hv : admits s v) :
    Grown config admits (s.insertVariable v)
  | serve {s : Store} (h : Grown config admits s) (r : Request) :
    Grown config admits (serve config r s).2

/-- As long as nothing is inserted twice, no variable has a second copy. -/
theorem Grown.unique {config : Config} {s : Store} (h : Grown config Store.Fresh s) :
    s.UniqueVariables := by
  induction h with
  | empty => exact List.nodup_nil
  | register _ execution caseInstance ih => exact ih
  | insert _ hv ih => exact Store.unique_insertVariable ih hv
  | @serve s _ r ih =>
      rcases serve_cases config r s with hsame | ⟨-, c, hc⟩
      · rw [hsame]
        exact ih
      · obtain ⟨-, -, -, -, -, hunique, -⟩ := hc.spec ih
        exact hunique

/-! ### Requests -/

/-- A request to delete a variable of an execution. -/
structure Request.Deletes (config : Config) (r : Request) (id name : String)
    (scope : VariableScope) : Prop where
  method : r.method = .delete
  leads : ∃ raw segment, r.LeadsTo config raw (.executionVariable id segment name) ∧
    scopeOf segment = .ok scope

/-- A request for a variable of an execution. -/
structure Request.LooksUp (config : Config) (r : Request) (id name : String)
    (scope : VariableScope) (deserialize : Bool) : Prop where
  method : r.method = .get
  leads : ∃ raw segment, r.LeadsTo config raw (.executionVariable id segment name) ∧
    readView r segment = .ok (scope, deserialize)

section

variable {config : Config} {r : Request} {id name : String} {scope : VariableScope}
  {deserialize : Bool} {s : Store}

/-- A variable of a known execution is deleted whether it is there or not. -/
theorem Request.Deletes.serve_change (h : r.Deletes config id name scope) {e : CaseExecution}
    (he : s.executions.get? id = some e) :
    serve config r s = (.noContent, s.change id e.caseInstance (.remove name scope)) := by
  obtain ⟨raw, segment, hleads, hscope⟩ := h.leads
  have hanswer := Store.answer_execute (c := ⟨id, [.removeVariable name scope]⟩) he
  rw [serve_of_leadsTo hleads (by rw [h.method]; decide)]
  simp only [dispatch, h.method, deleteVariable, hscope, Exchange.given, Exchange.attempting,
    Exchange.run, CaseEngine.answer, hanswer]
  rfl

/-- A variable is shown as the store makes it out in the scope, or is said to be missing. -/
theorem Request.LooksUp.serve_scoped (h : r.LooksUp config id name scope deserialize)
    {values : Dictionary TypedValue} (hvalues : s.scopedVariables id scope = .ok values) :
    (serve config r s).1
      = (values.get? name).elim (.ofError (.notFound (.executionVariable name)))
          fun value => .json 200 (value.encode ⟨true, deserialize⟩).toJson := by
  obtain ⟨raw, segment, hleads, hview⟩ := h.leads
  rw [serve_of_leadsTo hleads (by rw [h.method]; decide)]
  simp only [dispatch, h.method, getVariable, hview, Exchange.given, Exchange.attempting,
    Exchange.run, CaseEngine.answer, Store.answer, hvalues, Except.map]
  cases values.get? name <;> rfl

end

/-- **A deleted variable is gone exactly if there was no second copy of it.**

To delete a local variable of a known execution always succeeds.  Afterwards it cannot be looked
up and is in no listing if and only if it had one copy at most; and that is all that any variable
can have unless one is inserted that its execution has already. -/
theorem deleted_gone_iff {config : Config} {s : Store} {id : String} {e : CaseExecution}
    (he : s.executions.get? id = some e) {name : String} {d q l : Request}
    {deserialize deserialize' : Bool} (hd : d.Deletes config id name .localOnly)
    (hq : q.LooksUp config id name .localOnly deserialize)
    (hl : l.Lists config id .localOnly deserialize') :
    let answer := serve config d s
    answer.1.status = 204 ∧
      ((serve config q answer.2).1.status = 404 ↔ s.copies id name ≤ 1) ∧
      (∃ shown, (serve config l answer.2).1 = .json 200 (.ofDictionary shown) ∧
        (shown.get? name = none ↔ s.copies id name ≤ 1)) ∧
      (Grown config Store.Fresh s → s.copies id name ≤ 1) := by
  intro answer
  have hanswer : answer = (.noContent, s.erase id name) := hd.serve_change he
  have hvalues : (s.erase id name).scopedVariables id .localOnly
      = .ok ((s.erase id name).collect id .empty) := Store.scopedVariables_local he
  rw [hanswer]
  refine ⟨rfl, ?_, ⟨_, hl.serve_scoped hvalues, ?_⟩, ?_⟩
  · rw [hq.serve_scoped hvalues, ← Store.get?_collect_erase]
    cases ((s.erase id name).collect id .empty).get? name with
    | none => exact ⟨fun _ => rfl, fun _ => rfl⟩
    | some value => simp [Response.json]
  · rw [Dictionary.get?_map, Option.map_eq_none_iff, Store.get?_collect_erase]
  · intro hgrown
    exact Store.uniqueVariables_iff.mp hgrown.unique id name

/-- The color of the case is deleted, and then it is gone. -/
theorem deleted_gone_iff_color :
    let path := "/engine-rest/case-execution/case/localVariables/color"
    (serve Config.standard (.ofTarget .delete path none []) Store.paintShop).1.status = 204 ∧
      (serve Config.standard (.ofTarget .get path none [])
        (serve Config.standard (.ofTarget .delete path none []) Store.paintShop).2).1.status
          = 404 := by
  intro path
  have hroute : (Route.executionVariable "case" "localVariables" "color").unescaped
      = .ok (.executionVariable "case" "localVariables" "color") := by decide +kernel
  have hd : Request.Deletes Config.standard (.ofTarget .delete path none []) "case" "color"
      .localOnly :=
    ⟨rfl, .executionVariable "case" "localVariables" "color", "localVariables",
      ⟨by decide, by decide +kernel, by decide, hroute⟩, by decide⟩
  have hq : Request.LooksUp Config.standard (.ofTarget .get path none []) "case" "color"
      .localOnly true :=
    ⟨rfl, .executionVariable "case" "localVariables" "color", "localVariables",
      ⟨by decide, by decide +kernel, by decide, hroute⟩, by decide +kernel⟩
  have hl : Request.Lists Config.standard
      (.ofTarget .get "/engine-rest/case-execution/case/localVariables" none []) "case"
      .localOnly true :=
    ⟨rfl, .executionVariables "case" "localVariables", "localVariables",
      ⟨by decide, by decide +kernel, by decide, by decide +kernel⟩, by decide +kernel⟩
  have he : Store.paintShop.executions.get? "case" = some ⟨"case", .active⟩ := by decide
  have hcopies : Store.paintShop.copies "case" "color" ≤ 1 := by decide +kernel
  obtain ⟨hdone, hgone, -, -⟩ := deleted_gone_iff he hd hq hl
  exact ⟨hdone, hgone.mpr hcopies⟩

/-- Of a variable that was inserted twice a second copy is left, and shown, when it is deleted. -/
theorem deleted_twin_shown :
    let path := "/engine-rest/case-execution/task/localVariables/color"
    let color (id paint : String) : VariableInstance :=
      { VariableInstance.plain id "color" (.string (some paint)) with
        caseExecutionId := some "task" }
    let s := ((Store.empty.register "task" "case").insertVariable (color "v1" "red")).insertVariable
      (color "v2" "blue")
    let answer := serve Config.standard (.ofTarget .delete path none []) s
    let lookup := serve Config.standard (.ofTarget .get path none []) answer.2
    Grown Config.standard (fun _ _ => True) s ∧ answer.1.status = 204 ∧ lookup.1.status = 200 ∧
      lookup.1.body.toBytes = Text.toUtf8 "\x7b\"value\":\"blue\",\"type\":\"String\"\x7d" := by
  intro path color s answer lookup
  have hgrown : Grown Config.standard (fun _ _ => True) s :=
    .insert (.insert (.register .empty "task" "case") trivial) trivial
  exact ⟨hgrown, by decide +kernel, by decide +kernel, by decide +kernel⟩

end Http

end CaseGateway
