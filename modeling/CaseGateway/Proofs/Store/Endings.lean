/-
The ways to finish a command.

A command can be executed, handed in to be applied later, or end in a transition.  All three
look for the execution first and then apply the same changes, so they fail together, and what
they leave is the same store but for what each of them adds: a batch takes an id, and a
transition moves the execution along an edge of the life cycle.  How the changes were queued
makes no difference to any of them, since they see nothing of a command but its changes.
-/
import CaseGateway.Engine.StoreEngine
import CaseGateway.Proofs.Lifecycle
import CaseGateway.Proofs.Store.Commands

namespace CaseGateway.Store

open Lifecycle (Edge)

/-! ### Queued changes -/

/-- Two commands that come to the same, in whichever way they are finished. -/
structure SameEffect (c c' : Command) : Prop where
  execute : ∀ s : Store, answer (.execute c) s = answer (.execute c') s
  submit : ∀ s : Store, answer (.submit c) s = answer (.submit c') s
  trigger : ∀ (s : Store) (t : Transition), answer (.trigger c t) s = answer (.trigger c' t) s

/-- The same changes to the same execution have the same effect. -/
theorem sameEffect_of_changes {c c' : Command} (hexecution : c.execution = c'.execution)
    (hchanges : c.changes = c'.changes) : SameEffect c c' := by
  have hexecute : ∀ s : Store, s.execute c = s.execute c' := by
    intro s
    unfold Store.execute
    rw [hexecution, hchanges]
  refine ⟨?_, ?_, ?_⟩
  · intro s
    show s.settle (s.execute c) = s.settle (s.execute c')
    rw [hexecute]
  · intro s
    have hsubmit : s.submit c = s.submit c' := by
      unfold Store.submit
      rw [hexecute, hchanges]
    simp only [answer, hsubmit]
  · intro s t
    have htrigger : s.trigger c t = s.trigger c' t := by
      unfold Store.trigger
      rw [hexecution, hchanges]
    show s.settle (s.trigger c t) = s.settle (s.trigger c' t)
    rw [htrigger]

/-- A call for several variables queues what single calls queue. -/
theorem changes_replace {id : String} {call : CommandCall} {calls : List CommandCall}
    (h : calls.flatMap CommandCall.changes = call.changes) (before after : List CommandCall) :
    Command.changes ⟨id, before ++ call :: after⟩
      = Command.changes ⟨id, before ++ calls ++ after⟩ := by
  unfold Command.changes
  rw [List.flatMap_append, List.flatMap_append, List.flatMap_append, List.flatMap_cons, h,
    List.append_assoc]

theorem changes_setVariables (values : Dictionary TypedValue) (scope : VariableScope) :
    (values.entries.map fun e => CommandCall.setVariable e.1 e.2 scope).flatMap CommandCall.changes
      = (CommandCall.setVariables values scope).changes := by
  show _ = values.entries.map fun e => VariableChange.set e.1 e.2 scope
  induction values.entries with
  | nil => rfl
  | cons e es ih =>
      rw [List.map_cons, List.flatMap_cons, ih]
      rfl

theorem changes_removeVariables (names : List String) (scope : VariableScope) :
    (names.map fun name => CommandCall.removeVariable name scope).flatMap CommandCall.changes
      = (CommandCall.removeVariables names scope).changes := by
  show _ = names.map fun name => VariableChange.remove name scope
  induction names with
  | nil => rfl
  | cons name names ih =>
      rw [List.map_cons, List.flatMap_cons, ih]
      rfl

/-! ### Endings -/

/-- The store with one execution in another state. -/
def moved (s : Store) (id : String) (l : Lifecycle) : Store :=
  { s with
    executions := s.executions.map fun other e =>
      if other = id then { e with lifecycle := l } else e }

section

variable {s s' : Store} {c : Command} {e : CaseExecution} {t : Transition} {next : Lifecycle}

theorem answer_execute (he : s.executions.get? c.execution = some e) :
    answer (.execute c) s = (.ok (), s.changeAll c.execution e.caseInstance c.changes) := by
  show s.settle (s.execute c) = _
  rw [execute_eq_ok.mpr ⟨e, he, rfl⟩]
  rfl

theorem answer_submit (he : s.executions.get? c.execution = some e) :
    let t := s.changeAll c.execution e.caseInstance c.changes
    answer (.submit c) s
      = (.ok ⟨generatedId t.issued, Batch.variablesType, min c.changes.length Batch.maximalJobs⟩,
        { t with issued := t.issued + 1 }) := by
  intro t
  have hsubmit := submit_eq_ok.mpr ⟨t, execute_eq_ok.mpr ⟨e, he, rfl⟩, rfl, rfl⟩
  simp only [answer, hsubmit]

/-- An edge is followed on top of what execution leaves. -/
theorem answer_trigger_of_edge (he : s.executions.get? c.execution = some e)
    (hedge : Edge e.lifecycle t next) :
    answer (.trigger c t) s
      = (.ok (), (s.changeAll c.execution e.caseInstance c.changes).moved c.execution next) := by
  have hexecutions := (changeAll_beyond c.execution e.caseInstance c.changes s).executions
  show s.settle (s.trigger c t) = _
  rw [trigger_eq_ok.mpr ⟨e, next, he, hedge.after?_eq, rfl⟩]
  unfold moved
  rw [hexecutions, ← Dictionary.insert_eq_map he fun e => { e with lifecycle := next }]
  rfl

theorem answer_trigger_of_no_edge (he : s.executions.get? c.execution = some e)
    (hedge : ¬∃ next, Edge e.lifecycle t next) :
    answer (.trigger c t) s
      = (.error (.illegalTransition c.execution e.lifecycle t), s) := by
  show s.settle (s.trigger c t) = _
  rw [trigger_illegal he (Lifecycle.after?_eq_none hedge)]
  rfl

/-- Whatever the ending, a command on an execution that is not known fails in the same way. -/
theorem answer_unknown (h : s.executions.get? c.execution = none) :
    answer (.execute c) s = (.error (.unknownExecution c.execution), s) ∧
      answer (.submit c) s = (.error (.unknownExecution c.execution), s) ∧
      ∀ t, answer (.trigger c t) s = (.error (.unknownExecution c.execution), s) := by
  refine ⟨?_, ?_, ?_⟩
  · show s.settle (s.execute c) = _
    rw [execute_unknown h]
    rfl
  · simp only [answer, submit_unknown h]
  · intro t
    show s.settle (s.trigger c t) = _
    rw [trigger_unknown h]
    rfl

end

/-- **The three ways to finish a command agree.**

On an execution that is not known all of them fail with the same error and leave the store as it
is.  Otherwise executing a command and handing it in both succeed and leave the same rows, the
batch telling how many changes there were as far as it can count; and a transition succeeds
exactly if there is an edge for it, and then leaves what executing leaves, with the execution
moved along that edge.  To queue several variables by one call is to queue them one by one. -/
theorem endings_agree :
    (∀ (s : Store) (c : Command),
      let unknown := EngineError.unknownExecution c.execution
      (s.executions.get? c.execution = none → unknown.kind = .notFound ∧
        answer (.execute c) s = (.error unknown, s) ∧
        answer (.submit c) s = (.error unknown, s) ∧
        ∀ t, answer (.trigger c t) s = (.error unknown, s)) ∧
      ∀ e, s.executions.get? c.execution = some e →
        ∃ s' batch, answer (.execute c) s = (.ok (), s') ∧
          answer (.submit c) s = (.ok batch, { s' with issued := s'.issued + 1 }) ∧
          batch.jobs = min c.changes.length 4294967295 ∧
          ∀ t,
            (∀ next, Edge e.lifecycle t next →
              answer (.trigger c t) s = (.ok (), s'.moved c.execution next)) ∧
            ((¬∃ next, Edge e.lifecycle t next) →
              ∃ refusal : EngineError, refusal.kind = .badUserRequest ∧
                answer (.trigger c t) s = (.error refusal, s))) ∧
    ∀ (id : String) (before after : List CommandCall) (scope : VariableScope),
      (∀ values : Dictionary TypedValue,
        SameEffect ⟨id, before ++ .setVariables values scope :: after⟩
          ⟨id, before ++ (values.entries.map fun e => .setVariable e.1 e.2 scope) ++ after⟩) ∧
      ∀ names : List String,
        SameEffect ⟨id, before ++ .removeVariables names scope :: after⟩
          ⟨id, before ++ (names.map fun name => .removeVariable name scope) ++ after⟩ := by
  refine ⟨?_, ?_⟩
  · intro s c unknown
    refine ⟨fun hunknown => ⟨rfl, answer_unknown hunknown⟩, ?_⟩
    intro e he
    refine ⟨_, _, answer_execute he, answer_submit he, rfl, ?_⟩
    intro t
    refine ⟨fun next hedge => answer_trigger_of_edge he hedge, ?_⟩
    intro hedge
    exact ⟨_, rfl, answer_trigger_of_no_edge he hedge⟩
  · intro id before after scope
    refine ⟨?_, ?_⟩
    · intro values
      exact sameEffect_of_changes rfl (changes_replace (changes_setVariables values scope) _ _)
    · intro names
      exact sameEffect_of_changes rfl (changes_replace (changes_removeVariables names scope) _ _)

/-- A task is painted and started: what is left is the painted shop, with the task active. -/
theorem endings_agree_paintShop :
    let c : Command :=
      ⟨"task", [.setVariables (.ofList [("color", .string (some "blue")), ("size", .null)]) .global,
        .removeVariable "size" .localOnly]⟩
    ∃ s' batch, answer (.execute c) paintShop = (.ok (), s') ∧
      answer (.submit c) paintShop = (.ok batch, { s' with issued := s'.issued + 1 }) ∧
      batch.jobs = 3 ∧
      answer (.trigger c .manualStart) paintShop = (.ok (), s'.moved "task" .active) := by
  intro c
  have he : paintShop.executions.get? c.execution = some ⟨"case", .enabled⟩ := by decide
  obtain ⟨-, hknown⟩ := endings_agree.1 paintShop c
  obtain ⟨s', batch, hexecute, hsubmit, hjobs, htrigger⟩ := hknown _ he
  obtain ⟨hstarted, -⟩ := htrigger .manualStart
  exact ⟨s', batch, hexecute, hsubmit, hjobs.trans (by decide), hstarted _ .manualStart⟩

end CaseGateway.Store
