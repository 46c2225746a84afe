/-
Commands, read backwards.

A command that succeeds has found its execution, and for a transition an edge in the
life cycle as well.  What it leaves is the store with the changes applied in order, and
beyond that only one thing can be new: the state of the execution, or one more id that
is given out.  Changes themselves touch nothing but the variables that exist now, so a
command never makes an execution known and never moves it to another case.

`Commanded.spec` is what the proofs about requests use.
-/
import CaseGateway.Proofs.Outcome
import CaseGateway.Proofs.Store.VariableMap

namespace CaseGateway.Store

/-! ### What changes leave alone -/

/-- Two stores that differ in nothing but the variables that exist now and the ids given out. -/
structure SameBeyondVariables (s s' : Store) : Prop where
  historic : s'.historic = s.historic
  links : s'.links = s.links
  reports : s'.reports = s.reports
  executions : s'.executions = s.executions

theorem SameBeyondVariables.refl (s : Store) : s.SameBeyondVariables s := ⟨rfl, rfl, rfl, rfl⟩

theorem SameBeyondVariables.trans {s t u : Store} (h : s.SameBeyondVariables t)
    (h' : t.SameBeyondVariables u) : s.SameBeyondVariables u where
  historic := h'.historic.trans h.historic
  links := h'.links.trans h.links
  reports := h'.reports.trans h.reports
  executions := h'.executions.trans h.executions

theorem write_beyond (s : Store) (target caseInstance name : String) (value : TypedValue) :
    s.SameBeyondVariables (s.write target caseInstance name value) := by
  unfold write
  split <;> exact ⟨rfl, rfl, rfl, rfl⟩

theorem change_beyond (s : Store) (execution caseInstance : String) (c : VariableChange) :
    s.SameBeyondVariables (s.change execution caseInstance c) := by
  cases c with
  | set name value scope => exact write_beyond _ _ _ _ _
  | remove name scope => exact ⟨rfl, rfl, rfl, rfl⟩

theorem changeAll_beyond (execution caseInstance : String) (changes : List VariableChange) :
    ∀ s : Store, s.SameBeyondVariables (s.changeAll execution caseInstance changes) := by
  induction changes with
  | nil => intro s; exact .refl s
  | cons c changes ih =>
      intro s
      exact (s.change_beyond execution caseInstance c).trans (ih _)

/-! ### Commands that succeed -/

theorem execution_eq_ok {s : Store} {id : String} {e : CaseExecution} :
    s.execution id = .ok e ↔ s.executions.get? id = some e := by
  unfold execution
  cases s.executions.get? id <;> simp

theorem execute_eq_ok {s s' : Store} {c : Command} :
    s.execute c = .ok s' ↔ ∃ e, s.executions.get? c.execution = some e ∧
      s' = s.changeAll c.execution e.caseInstance c.changes := by
  rw [execute, bind_eq_ok]
  constructor
  · rintro ⟨e, he, hs'⟩
    exact ⟨e, execution_eq_ok.mp he, (pure_eq_ok.mp hs').symm⟩
  · rintro ⟨e, he, hs'⟩
    exact ⟨e, execution_eq_ok.mpr he, pure_eq_ok.mpr hs'.symm⟩

theorem submit_eq_ok {s s' : Store} {c : Command} {b : Batch} :
    s.submit c = .ok (b, s') ↔ ∃ t, s.execute c = .ok t ∧
      b = ⟨generatedId t.issued, Batch.variablesType, min c.changes.length Batch.maximalJobs⟩ ∧
      s' = { t with issued := t.issued + 1 } := by
  rw [submit, bind_eq_ok]
  constructor
  · rintro ⟨t, ht, hs'⟩
    obtain ⟨hb, hs'⟩ := Prod.mk.inj (pure_eq_ok.mp hs')
    exact ⟨t, ht, hb.symm, hs'.symm⟩
  · rintro ⟨t, ht, rfl, rfl⟩
    exact ⟨t, ht, rfl⟩

theorem trigger_eq_ok {s s' : Store} {c : Command} {t : Transition} :
    s.trigger c t = .ok s' ↔ ∃ e next, s.executions.get? c.execution = some e ∧
      e.lifecycle.after? t = some next ∧
      s' = { s.changeAll c.execution e.caseInstance c.changes with
        executions := s.executions.insert c.execution { e with lifecycle := next } } := by
  rw [trigger, bind_eq_ok]
  constructor
  · rintro ⟨e, he, hs'⟩
    cases hnext : e.lifecycle.after? t with
    | none => simp [hnext] at hs'
    | some next =>
        simp only [hnext, (changeAll_beyond c.execution e.caseInstance c.changes s).executions]
          at hs'
        exact ⟨e, next, execution_eq_ok.mp he, hnext, (pure_eq_ok.mp hs').symm⟩
  · rintro ⟨e, next, he, hnext, rfl⟩
    refine ⟨e, execution_eq_ok.mpr he, ?_⟩
    simp only [hnext, (changeAll_beyond c.execution e.caseInstance c.changes s).executions]
    rfl

/-! ### Commands that fail -/

section

variable {s : Store} {c : Command} {t : Transition}

theorem execution_unknown {id : String} (h : s.executions.get? id = none) :
    s.execution id = .error (.unknownExecution id) := by
  unfold execution
  rw [h]

theorem execute_unknown (h : s.executions.get? c.execution = none) :
    s.execute c = .error (.unknownExecution c.execution) := by
  unfold execute
  rw [execution_unknown h]
  rfl

theorem submit_unknown (h : s.executions.get? c.execution = none) :
    s.submit c = .error (.unknownExecution c.execution) := by
  unfold submit
  rw [execute_unknown h]
  rfl

theorem trigger_unknown (h : s.executions.get? c.execution = none) :
    s.trigger c t = .error (.unknownExecution c.execution) := by
  unfold trigger
  rw [execution_unknown h]
  rfl

theorem trigger_illegal {e : CaseExecution} (he : s.executions.get? c.execution = some e)
    (h : e.lifecycle.after? t = none) :
    s.trigger c t = .error (.illegalTransition c.execution e.lifecycle t) := by
  unfold trigger
  rw [execution_eq_ok.mpr he]
  simp only [bind, Except.bind, h]

/-- A transition fails for want of an execution or of an edge. -/
theorem trigger_eq_error {error : EngineError} (h : s.trigger c t = .error error) :
    error = .unknownExecution c.execution ∨
      ∃ e, s.executions.get? c.execution = some e ∧
        error = .illegalTransition c.execution e.lifecycle t := by
  cases he : s.executions.get? c.execution with
  | none =>
      rw [trigger_unknown he] at h
      exact Or.inl (Except.error.inj h).symm
  | some e =>
      cases hnext : e.lifecycle.after? t with
      | none =>
          rw [trigger_illegal he hnext] at h
          exact Or.inr ⟨e, rfl, (Except.error.inj h).symm⟩
      | some next =>
          rw [trigger_eq_ok.mpr ⟨e, next, he, hnext, rfl⟩] at h
          cases h

end

/-! ### What commands leave -/

/-- The store that a command leaves when it succeeds, in whichever way it is finished. -/
inductive Commanded (s : Store) (c : Command) : Store → Prop
  | execute {s' : Store} (h : s.execute c = .ok s') : Commanded s c s'
  | trigger {t : Transition} {s' : Store} (h : s.trigger c t = .ok s') : Commanded s c s'
  | submit {b : Batch} {s' : Store} (h : s.submit c = .ok (b, s')) : Commanded s c s'

/-- **What a command can do to a store.**  The variables are those that its changes leave, and of
all the rest only the state of its execution may be new. -/
theorem Commanded.inv {s s' : Store} {c : Command} (h : s.Commanded c s') :
    ∃ e, s.executions.get? c.execution = some e ∧
      s'.instances = (s.changeAll c.execution e.caseInstance c.changes).instances ∧
      s'.historic = s.historic ∧ s'.links = s.links ∧ s'.reports = s.reports ∧
      (s'.executions = s.executions ∨
        ∃ next, s'.executions = s.executions.insert c.execution { e with lifecycle := next }) := by
  cases h with
  | execute h =>
      obtain ⟨e, he, rfl⟩ := execute_eq_ok.mp h
      have hbeyond := changeAll_beyond c.execution e.caseInstance c.changes s
      exact ⟨e, he, rfl, hbeyond.historic, hbeyond.links, hbeyond.reports,
        Or.inl hbeyond.executions⟩
  | trigger h =>
      obtain ⟨e, next, he, -, rfl⟩ := trigger_eq_ok.mp h
      have hbeyond := changeAll_beyond c.execution e.caseInstance c.changes s
      exact ⟨e, he, rfl, hbeyond.historic, hbeyond.links, hbeyond.reports, Or.inr ⟨next, rfl⟩⟩
  | submit h =>
      obtain ⟨t, ht, -, rfl⟩ := submit_eq_ok.mp h
      obtain ⟨e, he, rfl⟩ := execute_eq_ok.mp ht
      have hbeyond := changeAll_beyond c.execution e.caseInstance c.changes s
      exact ⟨e, he, rfl, hbeyond.historic, hbeyond.links, hbeyond.reports,
        Or.inl hbeyond.executions⟩

/-- **A command changes the map by its changes in order and keeps the case of its execution.** -/
theorem Commanded.spec {s s' : Store} {c : Command} (h : s.Commanded c s')
    (hunique : s.UniqueVariables) :
    ∃ e e', s.executions.get? c.execution = some e ∧ s'.executions.get? c.execution = some e' ∧
      e'.caseInstance = e.caseInstance ∧ s'.UniqueVariables ∧
      s'.variableMap
        = c.changes.foldl (VariableMap.change c.execution e.caseInstance) s.variableMap := by
  obtain ⟨e, he, hinstances, -, -, -, hexecutions⟩ := h.inv
  obtain ⟨e', he', hsame⟩ : ∃ e', s'.executions.get? c.execution = some e' ∧
      e'.caseInstance = e.caseInstance := by
    rcases hexecutions with heq | ⟨next, heq⟩
    · exact ⟨e, by rw [heq, he], rfl⟩
    · exact ⟨{ e with lifecycle := next }, by rw [heq, Dictionary.get?_insert_self], rfl⟩
  obtain ⟨hunique', hmap⟩ := changeAll_spec c.execution e.caseInstance c.changes hunique
  refine ⟨e, e', he, he', hsame, ?_, ?_⟩
  · unfold UniqueVariables places at hunique' ⊢
    rw [hinstances]
    exact hunique'
  · rw [← hmap]
    unfold variableMap
    rw [hinstances]

end CaseGateway.Store
