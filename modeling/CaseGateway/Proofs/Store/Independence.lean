/-
Commands that have nothing to do with each other can change places.

All variables are rows of one list.  Every command searches it from the front, adds to its end
and takes rows out of its middle, so which of two commands came first does show in the order of
the rows and in the ids of new ones.  It does not show in what belongs to one execution: its
names and values, in the order of its own rows, are its `holdings`, and they are all that is
ever looked up or shown.  Rows may well repeat each other; nothing here asks them not to.

A change is about the holdings of its execution, or of the case instance if it is global.
Outside of a set of executions that holds these it changes nothing, and what it makes of the
set depends on nothing outside.  Two commands in disjoint sets are therefore each as good as
alone, in whichever order.
-/
import CaseGateway.Proofs.Store.Endings

namespace CaseGateway

/-- The scope of a change. -/
def VariableChange.scope : VariableChange → VariableScope
  | .set _ _ scope => scope
  | .remove _ scope => scope

/-- What a row contributes to the variables of an execution. -/
def VariableInstance.holding (execution : String) (v : VariableInstance) :
    Option (String × TypedValue) :=
  if v.caseExecutionId = some execution then some (v.name, v.value) else none

namespace Store

/-- The variables of an execution with their values, in the order of their rows. -/
def holdings (s : Store) (execution : String) : List (String × TypedValue) :=
  s.instances.filterMap (VariableInstance.holding execution)

/-! ### Walking over the rows of one execution -/

section Rows

variable {ρ κ : Type} {p : ρ → Bool} {f : ρ → ρ} {g : ρ → Option κ} {p' : κ → Bool} {f' : κ → κ}

theorem filterMap_updateFirst_of_any (hp : ∀ a, p a = (g a).any p')
    (hf : ∀ a, g (f a) = (g a).map f') (l : List ρ) :
    (updateFirst p f l).filterMap g = updateFirst p' f' (l.filterMap g) := by
  induction l with
  | nil => rfl
  | cons a l ih =>
      rw [updateFirst, hp, List.filterMap_cons]
      cases hg : g a with
      | none =>
          rw [Option.any_none, if_neg Bool.false_ne_true, List.filterMap_cons, hg]
          exact ih
      | some b =>
          rw [Option.any_some]
          dsimp only
          rw [updateFirst]
          split
          · rw [List.filterMap_cons, hf, hg]
            rfl
          · rw [List.filterMap_cons, hg]
            exact congrArg (b :: ·) ih

theorem filterMap_eraseP_of_any (hp : ∀ a, p a = (g a).any p') (l : List ρ) :
    (l.eraseP p).filterMap g = (l.filterMap g).eraseP p' := by
  induction l with
  | nil => rfl
  | cons a l ih =>
      rw [List.eraseP_cons, hp, List.filterMap_cons]
      cases hg : g a with
      | none =>
          rw [Option.any_none, cond_false, List.filterMap_cons, hg]
          exact ih
      | some b =>
          rw [Option.any_some]
          dsimp only
          rw [List.eraseP_cons]
          cases p' b with
          | true => rfl
          | false =>
              rw [cond_false, cond_false, List.filterMap_cons, hg]
              exact congrArg (b :: ·) ih

theorem filterMap_eraseP_of_none (hp : ∀ a, p a → g a = none) (l : List ρ) :
    (l.eraseP p).filterMap g = l.filterMap g := by
  induction l with
  | nil => rfl
  | cons a l ih =>
      by_cases ha : p a
      · rw [List.eraseP_cons_of_pos ha, List.filterMap_cons, hp a ha]
      · rw [List.eraseP_cons_of_neg ha, List.filterMap_cons, List.filterMap_cons, ih]

end Rows

/-! ### What is done to the holdings of an execution -/

/-- Named values with a value under a name: in place of the first one there, or behind all. -/
def holdingsWith (name : String) (value : TypedValue) (held : List (String × TypedValue)) :
    List (String × TypedValue) :=
  if held.any (·.1 == name) then updateFirst (·.1 == name) (fun e => (e.1, value)) held
  else held ++ [(name, value)]

theorem isVariable_eq_any (execution name : String) (v : VariableInstance) :
    isVariable execution name v = (v.holding execution).any (·.1 == name) := by
  unfold isVariable VariableInstance.holding
  by_cases h : v.caseExecutionId = some execution <;> simp [h]

theorem holding_of_isVariable {target name x : String} (hx : x ≠ target) {v : VariableInstance}
    (h : isVariable target name v) : v.holding x = none := by
  have hplace : v.caseExecutionId = some target := by
    simp only [isVariable, Bool.and_eq_true, beq_iff_eq] at h
    exact h.2
  rw [VariableInstance.holding, if_neg]
  rw [hplace]
  exact fun heq => hx (Option.some.inj heq).symm

theorem hasVariable_eq_any (s : Store) (execution name : String) :
    s.hasVariable execution name = (s.holdings execution).any (·.1 == name) := by
  rw [hasVariable, holdings, List.any_filterMap]
  congr 1
  funext v
  rw [isVariable_eq_any]
  cases v.holding execution <;> rfl

section

variable (s : Store) (target caseInstance name : String) (value : TypedValue)

theorem holdings_write_self :
    (s.write target caseInstance name value).holdings target
      = holdingsWith name value (s.holdings target) := by
  unfold write holdingsWith
  rw [hasVariable_eq_any]
  split
  · refine filterMap_updateFirst_of_any (isVariable_eq_any target name) ?_ s.instances
    intro v
    unfold VariableInstance.holding
    split <;> rfl
  · simp [holdings, VariableInstance.holding, VariableInstance.plain]

theorem holdings_write_of_ne {x : String} (hx : x ≠ target) :
    (s.write target caseInstance name value).holdings x = s.holdings x := by
  unfold write
  split
  · refine filterMap_updateFirst ?_ s.instances
    intro v hv
    rw [holding_of_isVariable hx hv, holding_of_isVariable hx (by exact hv)]
  · simp [holdings, VariableInstance.holding, Ne.symm hx]

theorem holdings_erase_self :
    (s.erase target name).holdings target = (s.holdings target).eraseP (·.1 == name) :=
  filterMap_eraseP_of_any (isVariable_eq_any target name) s.instances

theorem holdings_erase_of_ne {x : String} (hx : x ≠ target) :
    (s.erase target name).holdings x = s.holdings x :=
  filterMap_eraseP_of_none (fun _ => holding_of_isVariable hx) s.instances

end

/-! ### Where changes reach -/

/-- A set of executions that holds every one whose variables some changes can be about. -/
structure Confined (X : String → Prop) (execution caseInstance : String)
    (changes : List VariableChange) : Prop where
  own : X execution
  shared : ∀ c ∈ changes, c.scope = .global → X caseInstance

variable {X : String → Prop} {execution caseInstance : String}

/-- The target of a change in the scope that it is in. -/
theorem target_mem {c : VariableChange} {changes : List VariableChange}
    (h : Confined X execution caseInstance (c :: changes)) (s : Store) (name : String) :
    X (if c.scope = .localOnly ∨ s.hasVariable execution name then execution
      else caseInstance) := by
  split
  · exact h.own
  · rename_i hscope
    refine h.shared c List.mem_cons_self ?_
    cases hc : c.scope with
    | global => rfl
    | localOnly => exact absurd (Or.inl hc) hscope

theorem Confined.tail {c : VariableChange} {changes : List VariableChange}
    (h : Confined X execution caseInstance (c :: changes)) :
    Confined X execution caseInstance changes where
  own := h.own
  shared d hd := h.shared d (List.mem_cons_of_mem c hd)

/-- Two stores in which the executions of a set have the same variables. -/
def AgreeOn (X : String → Prop) (s t : Store) : Prop :=
  ∀ x, X x → s.holdings x = t.holdings x

theorem write_agree {s t : Store} (h : AgreeOn X s t) (target caseInstance name : String)
    (value : TypedValue) :
    AgreeOn X (s.write target caseInstance name value) (t.write target caseInstance name value) := by
  intro x hx
  by_cases htarget : x = target
  · subst htarget
    rw [holdings_write_self, holdings_write_self, h x hx]
  · rw [holdings_write_of_ne _ _ _ _ _ htarget, holdings_write_of_ne _ _ _ _ _ htarget, h x hx]

theorem erase_agree {s t : Store} (h : AgreeOn X s t) (target name : String) :
    AgreeOn X (s.erase target name) (t.erase target name) := by
  intro x hx
  by_cases htarget : x = target
  · subst htarget
    rw [holdings_erase_self, holdings_erase_self, h x hx]
  · rw [holdings_erase_of_ne _ _ _ htarget, holdings_erase_of_ne _ _ _ htarget, h x hx]

section

variable {c : VariableChange} {changes : List VariableChange}

/-- A change leaves the variables of all other executions alone. -/
theorem holdings_change_of_not_mem (h : Confined X execution caseInstance (c :: changes)) {x : String}
    (hx : ¬X x) (s : Store) :
    (s.change execution caseInstance c).holdings x = s.holdings x := by
  have hne : ∀ {target : String}, X target → x ≠ target := by
    intro target htarget heq
    exact hx (heq ▸ htarget)
  cases c with
  | set name value scope => exact holdings_write_of_ne _ _ _ _ _ (hne (target_mem h s name))
  | remove name scope => exact holdings_erase_of_ne _ _ _ (hne (target_mem h s name))

/-- What a change makes of the variables of a set depends on nothing else. -/
theorem change_agree (h : Confined X execution caseInstance (c :: changes)) {s t : Store}
    (hst : AgreeOn X s t) :
    AgreeOn X (s.change execution caseInstance c) (t.change execution caseInstance c) := by
  have hown : ∀ name, s.hasVariable execution name = t.hasVariable execution name := by
    intro name
    rw [hasVariable_eq_any, hasVariable_eq_any, hst execution h.own]
  cases c with
  | set name value scope =>
      simp only [change, hown]
      exact write_agree hst _ _ _ _
  | remove name scope =>
      simp only [change, hown]
      exact erase_agree hst _ _

end

theorem holdings_changeAll_of_not_mem {changes : List VariableChange} {x : String} (hx : ¬X x) :
    Confined X execution caseInstance changes →
      ∀ s : Store, (s.changeAll execution caseInstance changes).holdings x = s.holdings x := by
  induction changes with
  | nil => intro _ s; rfl
  | cons c changes ih =>
      intro h s
      exact (ih h.tail _).trans (holdings_change_of_not_mem h hx s)

theorem changeAll_agree {changes : List VariableChange} :
    Confined X execution caseInstance changes → ∀ {s t : Store}, AgreeOn X s t →
      AgreeOn X (s.changeAll execution caseInstance changes)
        (t.changeAll execution caseInstance changes) := by
  induction changes with
  | nil => intro _ s t hst; exact hst
  | cons c changes ih =>
      intro h s t hst
      exact ih h.tail (change_agree h hst)

/-- **Changes in disjoint sets of executions can be made in either order.** -/
theorem holdings_changeAll_comm {Y : String → Prop} (hXY : ∀ x, X x → ¬Y x)
    {changes : List VariableChange} (h : Confined X execution caseInstance changes)
    {execution' caseInstance' : String} {changes' : List VariableChange}
    (h' : Confined Y execution' caseInstance' changes') (s : Store) (x : String) :
    ((s.changeAll execution caseInstance changes).changeAll execution' caseInstance' changes').holdings x
      = ((s.changeAll execution' caseInstance' changes').changeAll execution caseInstance
          changes).holdings x := by
  by_cases hx : X x
  · have hsame : AgreeOn X (s.changeAll execution' caseInstance' changes') s := by
      intro y hy
      exact holdings_changeAll_of_not_mem (hXY y hy) h' s
    rw [holdings_changeAll_of_not_mem (hXY x hx) h', changeAll_agree h hsame x hx]
  · rw [holdings_changeAll_of_not_mem hx h]
    by_cases hy : Y x
    · have hsame : AgreeOn Y (s.changeAll execution caseInstance changes) s := by
        intro y hy
        exact holdings_changeAll_of_not_mem (fun hyx => hXY y hyx hy) h s
      rw [changeAll_agree h' hsame x hy]
    · rw [holdings_changeAll_of_not_mem hy h', holdings_changeAll_of_not_mem hx h,
        holdings_changeAll_of_not_mem hy h']

/-! ### What is shown of holdings -/

theorem collect_eq_foldl (s : Store) (execution : String) (seen : Dictionary TypedValue) :
    s.collect execution seen
      = (s.holdings execution).foldl (fun d e => d.insert e.1 e.2) seen := by
  unfold collect holdings
  induction s.instances generalizing seen with
  | nil => rfl
  | cons v rows ih =>
      rw [List.filter_cons, List.filterMap_cons]
      by_cases hv : v.caseExecutionId = some execution
      · rw [if_pos (by simpa using hv), VariableInstance.holding, if_pos hv]
        exact ih _
      · rw [if_neg (by simpa using hv), VariableInstance.holding, if_neg hv]
        exact ih _

/-- All that is shown of variables is what the executions hold. -/
theorem scopedVariables_congr {s t : Store} (h : ∀ x, s.holdings x = t.holdings x)
    (hexecutions : s.executions = t.executions) (id : String) (scope : VariableScope) :
    s.scopedVariables id scope = t.scopedVariables id scope := by
  have hcollect : ∀ x seen, s.collect x seen = t.collect x seen := by
    intro x seen
    rw [collect_eq_foldl, collect_eq_foldl, h x]
  have hexecution : s.execution id = t.execution id := by
    unfold execution
    rw [hexecutions]
  simp only [scopedVariables, hexecution, hcollect]

/-! ### Finishing a command -/

/-- A way to finish a command. -/
inductive Ending
  | execute
  | submit
  | trigger (t : Transition)

namespace Ending

/-- What comes of a command that succeeds. -/
abbrev Result : Ending → Type
  | .submit => Batch
  | .execute | .trigger _ => Unit

/-- The request that finishes a command. -/
def request (c : Command) : (ending : Ending) → EngineRequest ending.Result
  | .execute => .execute c
  | .submit => .submit c
  | .trigger t => .trigger c t

/-- Results that differ in nothing but generated ids. -/
def Alike : (ending : Ending) → ending.Result → ending.Result → Prop
  | .submit, b, b' => b.type = b'.type ∧ b.jobs = b'.jobs
  | .execute, _, _ | .trigger _, _, _ => True

/-- What a command makes of its execution, or why it is refused. -/
def verdict (c : Command) (ending : Ending) : Option CaseExecution → Except EngineError CaseExecution
  | none => .error (.unknownExecution c.execution)
  | some e =>
    match ending with
    | .execute | .submit => .ok e
    | .trigger t =>
      match e.lifecycle.after? t with
      | none => .error (.illegalTransition c.execution e.lifecycle t)
      | some next => .ok { e with lifecycle := next }

/-- The result that goes with a command, up to generated ids. -/
def Fits (c : Command) : (ending : Ending) → ending.Result → Prop
  | .submit, b => b.type = Batch.variablesType ∧ b.jobs = min c.changes.length Batch.maximalJobs
  | .execute, _ | .trigger _, _ => True

theorem Fits.alike {c : Command} {ending : Ending} {r r' : ending.Result} (h : ending.Fits c r)
    (h' : ending.Fits c r') : ending.Alike r r' := by
  cases ending with
  | execute | trigger t => trivial
  | submit => exact ⟨h.1.trans h'.1.symm, h.2.trans h'.2.symm⟩

end Ending

/-- The outcome of a command that is finished in a way. -/
def outcome (s : Store) (c : Command) (ending : Ending) : Except EngineError ending.Result :=
  (answer (ending.request c) s).1

/-- The store that is left when a command is finished in a way. -/
def after (s : Store) (c : Command) (ending : Ending) : Store :=
  (answer (ending.request c) s).2

section

variable {s : Store} {c : Command} {ending : Ending}

theorem answer_of_refused {error : EngineError}
    (h : ending.verdict c (s.executions.get? c.execution) = .error error) :
    answer (ending.request c) s = (.error error, s) := by
  cases he : s.executions.get? c.execution with
  | none =>
      rw [he] at h
      obtain ⟨hexecute, hsubmit, htrigger⟩ := answer_unknown he
      rw [← Except.error.inj h]
      cases ending with
      | execute => exact hexecute
      | submit => exact hsubmit
      | trigger t => exact htrigger t
  | some e =>
      rw [he] at h
      cases ending with
      | execute | submit => cases h
      | trigger t =>
          cases hnext : e.lifecycle.after? t with
          | some next => simp [Ending.verdict, hnext] at h
          | none =>
              simp only [Ending.verdict, hnext] at h
              rw [← Except.error.inj h]
              show s.settle (s.trigger c t) = _
              rw [trigger_illegal he hnext]
              rfl

/-- What is left of a store by a command that succeeds. -/
structure Finished (s : Store) (c : Command) (e : CaseExecution) (s' : Store) : Prop where
  instances : s'.instances = (s.changeAll c.execution e.caseInstance c.changes).instances
  historic : s'.historic = s.historic
  links : s'.links = s.links
  reports : s'.reports = s.reports
  executions : s'.executions = s.executions.insert c.execution e

theorem answer_of_accepted {e : CaseExecution}
    (h : ending.verdict c (s.executions.get? c.execution) = .ok e) :
    ∃ r s', answer (ending.request c) s = (.ok r, s') ∧ ending.Fits c r ∧ s.Finished c e s' := by
  cases he : s.executions.get? c.execution with
  | none =>
      rw [he] at h
      cases h
  | some e' =>
      rw [he] at h
      have hbeyond := changeAll_beyond c.execution e'.caseInstance c.changes s
      have hsame : s.executions = s.executions.insert c.execution e' :=
        (Dictionary.insert_of_get? he).symm
      cases ending with
      | execute =>
          obtain rfl : e' = e := Except.ok.inj h
          exact ⟨(), _, answer_execute he, trivial, rfl, hbeyond.historic, hbeyond.links,
            hbeyond.reports, hbeyond.executions.trans hsame⟩
      | submit =>
          obtain rfl : e' = e := Except.ok.inj h
          exact ⟨_, _, answer_submit he, ⟨rfl, rfl⟩, rfl, hbeyond.historic, hbeyond.links,
            hbeyond.reports, hbeyond.executions.trans hsame⟩
      | trigger t =>
          cases hnext : e'.lifecycle.after? t with
          | none => simp [Ending.verdict, hnext] at h
          | some next =>
              simp only [Ending.verdict, hnext] at h
              obtain rfl : { e' with lifecycle := next } = e := Except.ok.inj h
              have hs' := trigger_eq_ok.mpr ⟨e', next, he, hnext, rfl⟩
              have hanswer : answer (.trigger c t) s = s.settle (s.trigger c t) := rfl
              rw [hs'] at hanswer
              exact ⟨(), _, hanswer, trivial, rfl, hbeyond.historic, hbeyond.links,
                hbeyond.reports, rfl⟩

theorem after_of_refused {error : EngineError}
    (h : ending.verdict c (s.executions.get? c.execution) = .error error) :
    s.after c ending = s :=
  congrArg Prod.snd (answer_of_refused h)

theorem finished_after {e : CaseExecution}
    (h : ending.verdict c (s.executions.get? c.execution) = .ok e) :
    s.Finished c e (s.after c ending) := by
  obtain ⟨r, s', hanswer, -, hfinished⟩ := answer_of_accepted h
  rw [after, hanswer]
  exact hfinished

/-- An accepted command was found, and stays in its case. -/
theorem Ending.verdict_eq_ok {e : CaseExecution}
    (h : ending.verdict c (s.executions.get? c.execution) = .ok e) :
    ∃ e₀, s.executions.get? c.execution = some e₀ ∧ e₀.caseInstance = e.caseInstance := by
  cases he : s.executions.get? c.execution with
  | none =>
      rw [he] at h
      cases h
  | some e₀ =>
      rw [he] at h
      refine ⟨e₀, rfl, ?_⟩
      cases ending with
      | execute | submit => rw [Except.ok.inj h]
      | trigger t =>
          cases hnext : e₀.lifecycle.after? t with
          | none => simp [Ending.verdict, hnext] at h
          | some next =>
              simp only [Ending.verdict, hnext] at h
              rw [← Except.ok.inj h]

end

/-! ### Two commands -/

/-- Two commands that have nothing to do with each other: neither execution nor case instance of
the one is one of the other's, or both have local changes only, and to different executions.
Nothing is asked where an execution is not known. -/
def Unrelated (s : Store) (c c' : Command) : Prop :=
  ∀ e e', s.executions.get? c.execution = some e → s.executions.get? c'.execution = some e' →
    [c.execution, e.caseInstance].Disjoint [c'.execution, e'.caseInstance] ∨
      c.execution ≠ c'.execution ∧ ∀ change ∈ c.changes ++ c'.changes, change.scope = .localOnly

section

variable {s : Store} {c c' : Command} {ending ending' : Ending}

theorem Unrelated.symm (h : s.Unrelated c c') : s.Unrelated c' c := by
  intro e' e he' he
  rcases h e e' he he' with hdisjoint | ⟨hne, hlocal⟩
  · exact Or.inl fun x hx hx' => hdisjoint hx' hx
  · refine Or.inr ⟨hne.symm, fun change hchange => hlocal change ?_⟩
    exact List.mem_append.mpr (List.mem_append.mp hchange).symm

theorem Unrelated.execution_ne (h : s.Unrelated c c') {e e' : CaseExecution}
    (he : s.executions.get? c.execution = some e)
    (he' : s.executions.get? c'.execution = some e') : c.execution ≠ c'.execution := by
  rcases h e e' he he' with hdisjoint | ⟨hne, -⟩
  · intro heq
    exact hdisjoint List.mem_cons_self (heq ▸ List.mem_cons_self)
  · exact hne

/-- Each of the two keeps to a set of executions of its own. -/
theorem Unrelated.confined (h : s.Unrelated c c') {e e' : CaseExecution}
    (he : s.executions.get? c.execution = some e)
    (he' : s.executions.get? c'.execution = some e') :
    ∃ X Y : String → Prop, (∀ x, X x → ¬Y x) ∧ Confined X c.execution e.caseInstance c.changes ∧
      Confined Y c'.execution e'.caseInstance c'.changes := by
  rcases h e e' he he' with hdisjoint | ⟨hne, hlocal⟩
  · refine ⟨(· ∈ [c.execution, e.caseInstance]), (· ∈ [c'.execution, e'.caseInstance]),
      fun x hx => hdisjoint hx, ⟨?_, ?_⟩, ⟨?_, ?_⟩⟩ <;> simp
  · have hnone : ∀ change ∈ c.changes ++ c'.changes, change.scope ≠ .global := by
      intro change hchange hglobal
      rw [hlocal change hchange] at hglobal
      cases hglobal
    refine ⟨(· = c.execution), (· = c'.execution), fun x hx hx' => hne (hx ▸ hx'), ⟨rfl, ?_⟩,
      ⟨rfl, ?_⟩⟩
    · intro change hchange hglobal
      exact absurd hglobal (hnone change (List.mem_append_left _ hchange))
    · intro change hchange hglobal
      exact absurd hglobal (hnone change (List.mem_append_right _ hchange))

/-- A command does not move the execution of an unrelated one. -/
theorem Unrelated.get?_after (h : s.Unrelated c c') (ending' : Ending) :
    (s.after c' ending').executions.get? c.execution = s.executions.get? c.execution := by
  cases hverdict : ending'.verdict c' (s.executions.get? c'.execution) with
  | error error => rw [after_of_refused hverdict]
  | ok e' =>
      obtain ⟨e₀', he₀', -⟩ := Ending.verdict_eq_ok hverdict
      rw [(finished_after hverdict).executions, Dictionary.get?_insert]
      split
      · rename_i heq
        exact absurd heq.symm (h.execution_ne (heq ▸ he₀') he₀')
      · rfl

theorem Unrelated.verdict_after (h : s.Unrelated c c') (ending ending' : Ending) :
    ending.verdict c ((s.after c' ending').executions.get? c.execution)
      = ending.verdict c (s.executions.get? c.execution) := by
  rw [h.get?_after]

/-- An unrelated command makes no difference to the outcome of another one. -/
theorem Unrelated.outcome_after (h : s.Unrelated c c') (ending ending' : Ending) :
    SameOutcome ending.Alike (s.outcome c ending) ((s.after c' ending').outcome c ending) := by
  have hsecond := h.verdict_after ending ending'
  unfold outcome
  cases hverdict : ending.verdict c (s.executions.get? c.execution) with
  | error error =>
      rw [answer_of_refused hverdict, answer_of_refused (hsecond.trans hverdict)]
      exact .error error
  | ok e =>
      obtain ⟨r, s₁, hanswer, hfits, -⟩ := answer_of_accepted hverdict
      obtain ⟨r', s₂, hanswer', hfits', -⟩ := answer_of_accepted (hsecond.trans hverdict)
      rw [hanswer, hanswer']
      exact .ok (hfits.alike hfits')

/-- Stores that differ at most in the rows of variables and their ids, and show the same ones. -/
structure SameView (s t : Store) : Prop where
  beyond : s.SameBeyondVariables t
  holdings : ∀ x, s.holdings x = t.holdings x

theorem Finished.holdings_eq {e : CaseExecution} {s' : Store} (h : s.Finished c e s') (x : String) :
    s'.holdings x = (s.changeAll c.execution e.caseInstance c.changes).holdings x := by
  unfold holdings
  rw [h.instances]

/-- What a second command makes of the holdings that the first one left. -/
theorem Finished.holdings_then {e e' : CaseExecution} {s₁ s₂ : Store} (h : s.Finished c e s₁)
    (h' : s₁.Finished c' e' s₂) (x : String) :
    s₂.holdings x = ((s.changeAll c.execution e.caseInstance c.changes).changeAll c'.execution
      e'.caseInstance c'.changes).holdings x := by
  rw [h'.holdings_eq]
  have hall : Confined (fun _ => True) c'.execution e'.caseInstance c'.changes :=
    ⟨trivial, fun _ _ _ => trivial⟩
  exact changeAll_agree hall (fun y _ => h.holdings_eq y) x trivial

/-- Commands that keep to disjoint sets of executions leave the same view in either order. -/
theorem Finished.sameView {e e' : CaseExecution} {s₁ s₂ s₁₂ s₂₁ : Store} (h₁ : s.Finished c e s₁)
    (h₁₂ : s₁.Finished c' e' s₁₂) (h₂ : s.Finished c' e' s₂) (h₂₁ : s₂.Finished c e s₂₁)
    (hne : c.execution ≠ c'.execution) {X Y : String → Prop} (hXY : ∀ x, X x → ¬Y x)
    (hX : Confined X c.execution e.caseInstance c.changes)
    (hY : Confined Y c'.execution e'.caseInstance c'.changes) : SameView s₁₂ s₂₁ := by
  refine ⟨⟨?_, ?_, ?_, ?_⟩, ?_⟩
  · rw [h₂₁.historic, h₂.historic, h₁₂.historic, h₁.historic]
  · rw [h₂₁.links, h₂.links, h₁₂.links, h₁.links]
  · rw [h₂₁.reports, h₂.reports, h₁₂.reports, h₁.reports]
  · rw [h₂₁.executions, h₂.executions, h₁₂.executions, h₁.executions]
    exact Dictionary.insert_comm _ hne.symm _ _
  · intro x
    rw [h₁.holdings_then h₁₂, h₂.holdings_then h₂₁]
    exact holdings_changeAll_comm hXY hX hY s x

theorem Unrelated.sameView (h : s.Unrelated c c') (ending ending' : Ending) :
    SameView ((s.after c ending).after c' ending') ((s.after c' ending').after c ending) := by
  have hsecond := h.verdict_after ending ending'
  have hsecond' := h.symm.verdict_after ending' ending
  cases hverdict : ending.verdict c (s.executions.get? c.execution) with
  | error error =>
      rw [after_of_refused hverdict, after_of_refused (hsecond.trans hverdict)]
      exact ⟨.refl _, fun _ => rfl⟩
  | ok e =>
      cases hverdict' : ending'.verdict c' (s.executions.get? c'.execution) with
      | error error =>
          rw [after_of_refused hverdict', after_of_refused (hsecond'.trans hverdict')]
          exact ⟨.refl _, fun _ => rfl⟩
      | ok e' =>
          obtain ⟨e₀, he₀, hcase⟩ := Ending.verdict_eq_ok hverdict
          obtain ⟨e₀', he₀', hcase'⟩ := Ending.verdict_eq_ok hverdict'
          obtain ⟨X, Y, hXY, hX, hY⟩ := h.confined he₀ he₀'
          exact Finished.sameView (finished_after hverdict)
            (finished_after (hsecond'.trans hverdict')) (finished_after hverdict')
            (finished_after (hsecond.trans hverdict)) (h.execution_ne he₀ he₀') hXY (hcase ▸ hX)
            (hcase' ▸ hY)

end

/-- **Unrelated commands can change places.**

Each of them has the same outcome whether it comes first or second, and the stores that the two
orders leave agree in everything but the rows of variables.  These may stand in another order and
have other ids, but every execution is shown the same variables in either scope. -/
theorem unrelated_commute {s : Store} {c c' : Command} (h : s.Unrelated c c')
    (ending ending' : Ending) :
    SameOutcome ending.Alike (s.outcome c ending) ((s.after c' ending').outcome c ending) ∧
      SameOutcome ending'.Alike (s.outcome c' ending') ((s.after c ending).outcome c' ending') ∧
      let t := (s.after c ending).after c' ending'
      let t' := (s.after c' ending').after c ending
      t.SameBeyondVariables t' ∧ ∀ id scope, t.scopedVariables id scope = t'.scopedVariables id scope := by
  refine ⟨h.outcome_after ending ending', h.symm.outcome_after ending' ending, ?_⟩
  intro t t'
  have hview := h.sameView ending ending'
  refine ⟨hview.beyond, fun id scope => ?_⟩
  exact scopedVariables_congr hview.holdings hview.beyond.executions.symm id scope

/-- A task is started while an errand of another case is run: the rows stand in another order, but
what is shown of them is the same. -/
theorem unrelated_commute_errand :
    let s := paintShop.register "errand" "trip"
    let start : Command := ⟨"task",
      [.setVariable "color" (.string (some "blue")) .global, .setVariable "size" .null .localOnly]⟩
    let run : Command := ⟨"errand",
      [.removeVariable "color" .global, .setVariable "speed" .null .global]⟩
    let t := (s.after start (.trigger .manualStart)).after run .submit
    let t' := (s.after run .submit).after start (.trigger .manualStart)
    t.instances.map (·.name) = ["color", "size", "speed"] ∧
      t'.instances.map (·.name) = ["color", "speed", "size"] ∧
      ∀ id scope, t.scopedVariables id scope = t'.scopedVariables id scope := by
  intro s start run t t'
  have htask : s.executions.get? "task" = some ⟨"case", .enabled⟩ := by decide
  have herrand : s.executions.get? "errand" = some ⟨"trip", .enabled⟩ := by decide
  have h : s.Unrelated start run := by
    intro e e' he he'
    obtain rfl := Option.some.inj (htask.symm.trans he)
    obtain rfl := Option.some.inj (herrand.symm.trans he')
    exact Or.inl (by simp [start, run])
  obtain ⟨-, -, -, hshown⟩ := unrelated_commute h (.trigger .manualStart) .submit
  exact ⟨by decide, by decide, hshown⟩

end Store

end CaseGateway
