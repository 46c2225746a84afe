/-
The life cycle as an automaton.

The automaton has four edges, and `after?` is their table.  A path follows edges from state to
state and is spelled by their transitions.  Completion leads to a state without edges, and from
an active execution there is no edge but completion.  So an execution can be disabled and
enabled again as often as one likes, but on every path it is started once at most and completed
once at most, and completion ends the path.
-/
import CaseGateway.Lifecycle

namespace CaseGateway.Lifecycle

/-- The edges of the life cycle. -/
inductive Edge : Lifecycle → Transition → Lifecycle → Prop
  | manualStart : Edge .enabled .manualStart .active
  | disable : Edge .enabled .disable .disabled
  | reenable : Edge .disabled .reenable .enabled
  | complete : Edge .active .complete .completed

theorem Edge.after?_eq {l l' : Lifecycle} {t : Transition} (h : Edge l t l') :
    l.after? t = some l' := by
  cases h <;> rfl

theorem edge_of_after? {l l' : Lifecycle} {t : Transition} (h : l.after? t = some l') :
    Edge l t l' := by
  cases l <;> cases t <;> simp only [after?, reduceCtorEq, Option.some.injEq] at h <;> subst h
  · exact .manualStart
  · exact .disable
  · exact .reenable
  · exact .complete

theorem after?_eq_none {l : Lifecycle} {t : Transition} (h : ¬∃ l', Edge l t l') :
    l.after? t = none := by
  cases hnext : l.after? t with
  | none => rfl
  | some l' => exact absurd ⟨l', edge_of_after? hnext⟩ h

/-- The ways through the life cycle, with the transitions that are taken. -/
inductive Path : Lifecycle → List Transition → Lifecycle → Prop
  | nil (l : Lifecycle) : Path l [] l
  | cons {l m n : Lifecycle} {t : Transition} {ts : List Transition} (edge : Edge l t m)
    (rest : Path m ts n) : Path l (t :: ts) n

namespace Path

variable {l n : Lifecycle} {ts : List Transition}

/-- Nothing follows completion. -/
theorem of_completed (h : Path .completed ts n) : ts = [] := by
  cases h with
  | nil => rfl
  | cons edge _ => cases edge

/-- An active execution can only be completed. -/
theorem of_active (h : Path .active ts n) : ts = [] ∨ ts = [.complete] := by
  cases h with
  | nil => exact Or.inl rfl
  | cons edge rest =>
      cases edge
      exact Or.inr (congrArg (Transition.complete :: ·) rest.of_completed)

theorem count_manualStart_le (h : Path l ts n) : ts.count .manualStart ≤ 1 := by
  induction h with
  | nil l => exact Nat.zero_le 1
  | cons edge rest ih =>
      cases edge with
      | manualStart => rcases rest.of_active with rfl | rfl <;> decide
      | complete =>
          rw [rest.of_completed]
          decide
      | disable | reenable => simpa using ih

theorem count_complete_le (h : Path l ts n) : ts.count .complete ≤ 1 := by
  induction h with
  | nil l => exact Nat.zero_le 1
  | cons edge rest ih =>
      cases edge with
      | complete =>
          rw [rest.of_completed]
          decide
      | manualStart | disable | reenable => simpa using ih

/-- Completion is the last transition of a path. -/
theorem complete_last {before after : List Transition} :
    ∀ {l : Lifecycle}, Path l (before ++ .complete :: after) n → after = [] := by
  induction before with
  | nil =>
      intro l h
      cases h with
      | cons edge rest =>
          cases edge
          exact rest.of_completed
  | cons t before ih =>
      intro l h
      cases h with
      | cons edge rest => exact ih rest

end Path

end CaseGateway.Lifecycle
