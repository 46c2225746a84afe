/-
What a command leaves alone.

All variables are rows of one list, and a change finds its row by searching that list from the
front.  Nothing says that there is at most one row to find.  So what a change does is said of
the rows themselves: it revises the first that it finds, drops it, or adds one at the end.

A list that came out of another in this way is a `Revision` of it.  The rows that stay are in their
old order and in front of all that are new.  Revisions compose, so that what holds of one change
holds of a whole command, and whatever no edit concerns can be seen to be as it was by picking it
out of both lists.
-/
import CaseGateway.Proofs.Store.Independence

namespace CaseGateway

/-! ### Lists that came out of others -/

/-- What may be done to rows of a list, one at a time. -/
structure Edits (ρ : Type) where
  Revises : ρ → ρ → Prop
  Drops : ρ → Prop
  Adds : ρ → Prop
  refl : ∀ row, Revises row row
  trans : ∀ {row row' row''}, Revises row row' → Revises row' row'' → Revises row row''
  drops_of_revises : ∀ {row row'}, Revises row row' → Drops row' → Drops row
  adds_of_revises : ∀ {row row'}, Adds row → Revises row row' → Adds row'

/-- The second list came out of the first one: in their order, rows were revised or dropped, and
new ones were added behind all that stay. -/
inductive Revision {ρ : Type} (edits : Edits ρ) : List ρ → List ρ → Prop
  | added {new : List ρ} (h : ∀ row ∈ new, edits.Adds row) : Revision edits [] new
  | kept {row row' : ρ} {rows rows' : List ρ} (h : edits.Revises row row')
      (t : Revision edits rows rows') : Revision edits (row :: rows) (row' :: rows')
  | dropped {row : ρ} {rows rows' : List ρ} (h : edits.Drops row)
      (t : Revision edits rows rows') : Revision edits (row :: rows) rows'

namespace Revision

variable {ρ : Type} {edits : Edits ρ} {rows rows' rows'' new : List ρ} {p : ρ → Bool}

theorem append (h : ∀ row ∈ new, edits.Adds row) (rows : List ρ) :
    Revision edits rows (rows ++ new) := by
  induction rows with
  | nil => exact .added h
  | cons row rows ih => exact .kept (edits.refl row) ih

theorem refl (rows : List ρ) : Revision edits rows rows := by
  have h : Revision edits rows (rows ++ []) := append (fun _ hrow => by simp at hrow) rows
  rwa [List.append_nil] at h

theorem updateFirst {f : ρ → ρ} (h : ∀ row, p row → edits.Revises row (f row)) (rows : List ρ) :
    Revision edits rows (Store.updateFirst p f rows) := by
  induction rows with
  | nil => exact .refl []
  | cons row rows ih =>
      rw [Store.updateFirst]
      split
      · next hrow => exact .kept (h row hrow) (.refl rows)
      · exact .kept (edits.refl row) ih

theorem eraseP (h : ∀ row, p row → edits.Drops row) (rows : List ρ) :
    Revision edits rows (rows.eraseP p) := by
  induction rows with
  | nil => exact .refl []
  | cons row rows ih =>
      by_cases hrow : p row
      · rw [List.eraseP_cons_of_pos hrow]
        exact .dropped (h row hrow) (.refl rows)
      · rw [List.eraseP_cons_of_neg hrow]
        exact .kept (edits.refl row) ih

/-- What came out of new rows is new. -/
theorem adds (t : Revision edits rows rows') :
    (∀ row ∈ rows, edits.Adds row) → ∀ row ∈ rows', edits.Adds row := by
  induction t with
  | added h => exact fun _ => h
  | kept h _ ih =>
      intro hnew row hrow
      rcases List.mem_cons.mp hrow with rfl | hrow
      · exact edits.adds_of_revises (hnew _ List.mem_cons_self) h
      · exact ih (fun other hother => hnew other (List.mem_cons_of_mem _ hother)) row hrow
  | dropped _ _ ih =>
      exact fun hnew => ih fun other hother => hnew other (List.mem_cons_of_mem _ hother)

theorem trans (t : Revision edits rows rows') :
    ∀ {rows'' : List ρ}, Revision edits rows' rows'' → Revision edits rows rows'' := by
  induction t with
  | added h => exact fun t' => .added (t'.adds h)
  | kept h _ ih =>
      intro rows'' t'
      cases t' with
      | kept h' t' => exact .kept (edits.trans h h') (ih t')
      | dropped h' t' => exact .dropped (edits.drops_of_revises h h') (ih t')
  | dropped h _ ih => exact fun t' => .dropped h (ih t')

/-- Rows that no edit concerns are the same ones in the same order. -/
theorem filter_eq (t : Revision edits rows rows')
    (hrevises : ∀ {row row'}, edits.Revises row row' → p row ∨ p row' → row' = row)
    (hdrops : ∀ {row}, edits.Drops row → ¬p row) (hadds : ∀ {row}, edits.Adds row → ¬p row) :
    rows'.filter p = rows.filter p := by
  induction t with
  | added h => exact List.filter_eq_nil_iff.mpr fun row hrow => hadds (h row hrow)
  | @kept row row' _ _ h _ ih =>
      rw [List.filter_cons, List.filter_cons, ih]
      by_cases hp : p row ∨ p row'
      · rw [hrevises h hp]
      · obtain ⟨hrow, hrow'⟩ := not_or.mp hp
        rw [if_neg hrow, if_neg hrow']
  | dropped h _ ih =>
      rw [List.filter_cons, if_neg (hdrops h)]
      exact ih

end Revision

/-! ### The edits of a command -/

/-- Whether changes in a scope can be about an execution's variables. -/
def VariableScope.Reaches (execution caseInstance : String) : VariableScope → String → Prop
  | .localOnly, x => x = execution
  | .global, x => x = execution ∨ x = caseInstance

theorem VariableScope.Reaches.cases {execution caseInstance x : String} {scope : VariableScope}
    (h : scope.Reaches execution caseInstance x) : x = execution ∨ x = caseInstance := by
  cases scope with
  | localOnly => exact Or.inl h
  | global => exact h

namespace Store

section

variable {execution caseInstance : String} {changes : List VariableChange}

/-- The target of a change is one that its scope reaches. -/
theorem reaches_target (execution caseInstance : String) (s : Store) (name : String)
    (scope : VariableScope) :
    scope.Reaches execution caseInstance
      (if scope = .localOnly ∨ s.hasVariable execution name then execution else caseInstance) := by
  cases scope with
  | localOnly => exact if_pos (Or.inl rfl)
  | global =>
      split
      · exact Or.inl rfl
      · exact Or.inr rfl

variable (execution caseInstance changes)

/-- A row that is one of those that a change of its name can be about, and the value that the
change gives to it. -/
def Sets (row : VariableInstance) (value : TypedValue) : Prop :=
  ∃ given scope x, .set row.name given scope ∈ changes ∧ value = given.normalized ∧
    row.caseExecutionId = some x ∧ scope.Reaches execution caseInstance x

/-- A row that is one of those that a removal of its name can be about. -/
def Removes (row : VariableInstance) : Prop :=
  ∃ scope x, .remove row.name scope ∈ changes ∧ row.caseExecutionId = some x ∧
    scope.Reaches execution caseInstance x

/-- What changes may do: give rows another value, drop rows, and add rows for an execution that
belong to its case instance and to nothing else. -/
def editsOf : Edits VariableInstance where
  Revises row row' := row' = row ∨
    ∃ value, Sets execution caseInstance changes row value ∧ row' = { row with value }
  Drops := Removes execution caseInstance changes
  Adds row := ∃ id name value x,
    row = { VariableInstance.plain id name value with
      caseInstanceId := some caseInstance
      caseExecutionId := some x } ∧
    Sets execution caseInstance changes row value
  refl _ := Or.inl rfl
  trans := by
    rintro row row' row'' (rfl | ⟨value, hset, rfl⟩) (rfl | ⟨value', hset', rfl⟩)
    · exact Or.inl rfl
    · exact Or.inr ⟨value', hset', rfl⟩
    · exact Or.inr ⟨value, hset, rfl⟩
    · exact Or.inr ⟨value', hset', rfl⟩
  drops_of_revises := by
    rintro row row' (rfl | ⟨value, -, rfl⟩) hdrop
    · exact hdrop
    · exact hdrop
  adds_of_revises := by
    rintro row row' hadd (rfl | ⟨value', hset', rfl⟩)
    · exact hadd
    · obtain ⟨id, name, value, x, rfl, -⟩ := hadd
      exact ⟨id, name, value', x, rfl, hset'⟩

end

section

variable {execution caseInstance : String} {changes : List VariableChange}

theorem owner_of_isVariable {target name : String} {row : VariableInstance}
    (h : isVariable target name row) : row.name = name ∧ row.caseExecutionId = some target := by
  simpa [isVariable] using h

theorem write_revision {target name : String} {value : TypedValue} {scope : VariableScope}
    (hmem : .set name value scope ∈ changes) (hreach : scope.Reaches execution caseInstance target)
    (s : Store) :
    Revision (editsOf execution caseInstance changes) s.instances
      (s.write target caseInstance name value.normalized).instances := by
  unfold write
  split
  · refine .updateFirst ?_ s.instances
    intro row hrow
    obtain ⟨rfl, howner⟩ := owner_of_isVariable hrow
    exact Or.inr ⟨_, ⟨value, scope, target, hmem, rfl, howner, hreach⟩, rfl⟩
  · refine .append ?_ s.instances
    intro row hrow
    obtain rfl := List.mem_singleton.mp hrow
    exact ⟨_, name, _, target, rfl, value, scope, target, hmem, rfl, rfl, hreach⟩

theorem erase_revision {target name : String} {scope : VariableScope}
    (hmem : .remove name scope ∈ changes) (hreach : scope.Reaches execution caseInstance target)
    (s : Store) :
    Revision (editsOf execution caseInstance changes) s.instances (s.erase target name).instances := by
  refine .eraseP ?_ s.instances
  intro row hrow
  obtain ⟨rfl, howner⟩ := owner_of_isVariable hrow
  exact ⟨scope, target, hmem, howner, hreach⟩

theorem change_revision {c : VariableChange} (hmem : c ∈ changes) (s : Store) :
    Revision (editsOf execution caseInstance changes) s.instances
      (s.change execution caseInstance c).instances := by
  cases c with
  | set name value scope => exact write_revision hmem (reaches_target _ _ s name scope) s
  | remove name scope => exact erase_revision hmem (reaches_target _ _ s name scope) s

/-- Changes that are all among some do no more than these may. -/
theorem changeAll_revision {made : List VariableChange} :
    (∀ c ∈ made, c ∈ changes) → ∀ s : Store,
      Revision (editsOf execution caseInstance changes) s.instances
        (s.changeAll execution caseInstance made).instances := by
  induction made with
  | nil => exact fun _ s => .refl s.instances
  | cons c made ih =>
      intro hmem s
      have hstep : Revision (editsOf execution caseInstance changes) s.instances
          (s.change execution caseInstance c).instances :=
        change_revision (hmem c List.mem_cons_self) s
      exact hstep.trans (ih (fun d hd => hmem d (List.mem_cons_of_mem c hd)) _)

/-- Rows of executions that no change can be about are the same ones in the same order. -/
theorem changeAll_filter {p : VariableInstance → Bool}
    (hp : ∀ c ∈ changes, ∀ row x, row.caseExecutionId = some x →
      c.scope.Reaches execution caseInstance x → ¬p row) (s : Store) :
    (s.changeAll execution caseInstance changes).instances.filter p = s.instances.filter p := by
  have hsets : ∀ row value, Sets execution caseInstance changes row value → ¬p row := by
    rintro row value ⟨given, scope, x, hmem, -, howner, hreach⟩
    exact hp _ hmem row x howner hreach
  refine (changeAll_revision (fun _ hc => hc) s).filter_eq ?_ ?_ ?_
  · rintro row row' (rfl | ⟨value, hset, rfl⟩) hkept
    · rfl
    · obtain ⟨given, scope, x, hmem, -, howner, hreach⟩ := hset
      rcases hkept with hkept | hkept
      · exact absurd hkept (hp _ hmem row x howner hreach)
      · exact absurd hkept (hp _ hmem _ x howner hreach)
  · rintro row ⟨scope, x, hmem, howner, hreach⟩
    exact hp _ hmem row x howner hreach
  · rintro row ⟨_, _, value, _, _, hset⟩
    exact hsets row value hset

end

/-- **A command touches nothing outside its scope.**

On a known execution a command succeeds, whether the rows of variables are unique or not, and
changes nothing but them.  Those of executions other than its own and the case instance are the
same in the same order, and so are those of all other executions, that of the case instance
included, if its changes are all local.  Of the rest, a row may be gone if a removal of its name
reaches its execution, and may have another value, but nothing else, if a change of its name does.
New rows come last, belong to the case instance and an execution that a change reaches, and have
the name and the value of that change. -/
theorem execute_frame (s : Store) (c : Command) {e : CaseExecution}
    (he : s.executions.get? c.execution = some e) :
    ∃ s', s.execute c = .ok s' ∧ s.SameBeyondVariables s' ∧
      Revision (editsOf c.execution e.caseInstance c.changes) s.instances s'.instances ∧
      (let stranger := fun row : VariableInstance =>
        decide (row.caseExecutionId ∉ [some c.execution, some e.caseInstance])
      s'.instances.filter stranger = s.instances.filter stranger) ∧
      ((∀ change ∈ c.changes, change.scope = .localOnly) →
        let other := fun row : VariableInstance => row.caseExecutionId != some c.execution
        s'.instances.filter other = s.instances.filter other) := by
  refine ⟨_, execute_eq_ok.mpr ⟨e, he, rfl⟩, changeAll_beyond _ _ _ s,
    changeAll_revision (fun _ hc => hc) s, ?_, ?_⟩
  · refine changeAll_filter ?_ s
    intro change _ row x howner hreach
    rcases hreach.cases with rfl | rfl
    · simp [howner]
    · simp [howner]
  · intro hlocal
    refine changeAll_filter ?_ s
    intro change hchange row x howner hreach
    rw [hlocal change hchange] at hreach
    obtain rfl : x = c.execution := hreach
    simp [howner]

/-- A task sets and removes variables of its own while its case and a trip have rows of the same
name, the case two of them: these stay, in their order. -/
theorem execute_frame_errand :
    let color (id owner : String) := { VariableInstance.plain id "color" .null with
      caseExecutionId := some owner }
    let s := (((paintShop.register "errand" "trip").insertVariable (color "v2" "trip")).insertVariable
      (color "v3" "case")).insertVariable (color "v4" "task")
    let other := fun row : VariableInstance => row.caseExecutionId != some "task"
    ∃ s', s.execute ⟨"task", [.removeVariable "color" .localOnly,
        .setVariable "size" (.string (some "big")) .localOnly]⟩ = .ok s' ∧
      s'.instances.filter other = s.instances.filter other ∧
      (s.instances.filter other).map (·.id) = ["v1", "v2", "v3"] := by
  intro color s other
  have he : s.executions.get? "task" = some ⟨"case", .enabled⟩ := by decide
  obtain ⟨s', hs', -, -, -, hlocal⟩ := execute_frame s ⟨"task", [.removeVariable "color" .localOnly,
    .setVariable "size" (.string (some "big")) .localOnly]⟩ he
  refine ⟨s', hs', hlocal ?_, by decide⟩
  intro change hchange
  simp only [Command.changes, CommandCall.changes, List.flatMap_cons, List.flatMap_nil,
    List.append_nil, List.mem_append, List.mem_singleton] at hchange
  rcases hchange with rfl | rfl
  · rfl
  · rfl

end Store

end CaseGateway
