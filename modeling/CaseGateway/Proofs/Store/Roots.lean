/-
Case instances as roots.

A case execution belongs to a case instance, which is an execution as well and should belong to
itself: it is the place where global variables are kept, for all executions of the case.
Commands never move an execution to another case.  Registering does: an execution that is
registered anew belongs to the case named last, and nothing is asked of the ids.  So an id that
is a case instance to others can be made an execution of a third case, and an id that is an
execution of a case can be named as the case instance of another one.

These two are the only ways to lose a root.  A registration that does neither keeps the roles
of all ids, and as long as all of them do, every case instance is its own root; the first one
that does not leaves an execution whose case instance is none.
-/
import CaseGateway.Proofs.Store.Independence

namespace CaseGateway.Store

/-- The case instance of an execution, if it is known. -/
def caseOf (s : Store) (id : String) : Option String :=
  (s.executions.get? id).map (·.caseInstance)

/-- A known execution that is its own case instance. -/
def IsRoot (s : Store) (id : String) : Prop := s.caseOf id = some id

/-- Every case instance is a root. -/
def Rooted (s : Store) : Prop := ∀ id i, s.caseOf id = some i → s.IsRoot i

/-! ### What happens to executions -/

/-- An execution is registered, or a command is finished. -/
inductive Event
  | register (execution caseInstance : String)
  | finish (c : Command) (ending : Ending)

/-- The store after an event. -/
def follow (s : Store) : Event → Store
  | .register execution caseInstance => s.register execution caseInstance
  | .finish c ending => s.after c ending

/-- The store after some events. -/
def followAll (s : Store) (events : List Event) : Store := events.foldl follow s

/-- A registration that gives no id another role: what is named as a case instance is one or is
new, and what is named as an execution of it is no case instance to others. -/
def KeepsRoles (s : Store) (execution caseInstance : String) : Prop :=
  execution = caseInstance ∨
    (s.caseOf caseInstance = none ∨ s.IsRoot caseInstance) ∧
      ∀ id, s.caseOf id = some execution → id = execution

/-- No registration among some events gives an id another role. -/
def RolesKept (s : Store) : List Event → Prop
  | [] => True
  | .register execution caseInstance :: events =>
    s.KeepsRoles execution caseInstance ∧ (s.register execution caseInstance).RolesKept events
  | .finish c ending :: events => (s.after c ending).RolesKept events

/-! ### One event -/

/-- The executions with a case instance among them. -/
def executionsWith (s : Store) (caseInstance : String) : Dictionary CaseExecution :=
  if (s.executions.get? caseInstance).isSome then s.executions
  else s.executions.insert caseInstance ⟨caseInstance, .active⟩

theorem executions_register (s : Store) (execution caseInstance : String) :
    (s.register execution caseInstance).executions
      = if execution = caseInstance then s.executionsWith caseInstance
        else (s.executionsWith caseInstance).insert execution ⟨caseInstance, .enabled⟩ := rfl

theorem get?_executionsWith (s : Store) (caseInstance id : String) :
    ((s.executionsWith caseInstance).get? id).map (·.caseInstance)
      = if id = caseInstance then some ((s.caseOf caseInstance).getD caseInstance)
        else s.caseOf id := by
  unfold executionsWith caseOf
  cases hget : s.executions.get? caseInstance with
  | none =>
      rw [if_neg (by simp), Dictionary.get?_insert]
      by_cases hid : caseInstance = id
      · rw [if_pos hid, if_pos hid.symm]
        rfl
      · rw [if_neg hid, if_neg (Ne.symm hid)]
  | some e =>
      rw [Option.isSome_some, if_pos rfl]
      by_cases hid : id = caseInstance
      · rw [if_pos hid, hid, hget]
        rfl
      · rw [if_neg hid]

/-- A registration names a case for its execution, and makes a root of a case instance that is
new. -/
theorem caseOf_register (s : Store) (execution caseInstance id : String) :
    (s.register execution caseInstance).caseOf id
      = if id = execution ∧ execution ≠ caseInstance then some caseInstance
        else if id = caseInstance then some ((s.caseOf caseInstance).getD caseInstance)
        else s.caseOf id := by
  rw [← get?_executionsWith]
  conv_lhs => rw [caseOf, executions_register]
  by_cases hsame : execution = caseInstance
  · rw [if_pos hsame, if_neg fun h => h.2 hsame]
  · rw [if_neg hsame, Dictionary.get?_insert]
    by_cases hid : execution = id
    · rw [if_pos hid, if_pos ⟨hid.symm, hsame⟩]
      rfl
    · rw [if_neg hid, if_neg fun h => hid h.1.symm]

section

variable {s : Store} {execution caseInstance id i : String}

theorem caseOf_register_self (hne : execution ≠ caseInstance) :
    (s.register execution caseInstance).caseOf execution = some caseInstance := by
  rw [caseOf_register, if_pos ⟨rfl, hne⟩]

/-- Whatever else is registered stays in its case. -/
theorem caseOf_register_other (hid : id ≠ execution ∨ execution = caseInstance)
    (h : s.caseOf id = some i) : (s.register execution caseInstance).caseOf id = some i := by
  rw [caseOf_register, if_neg fun heq => hid.elim (· heq.1) heq.2]
  by_cases hinstance : id = caseInstance
  · rw [if_pos hinstance, ← hinstance, h, Option.getD_some]
  · rw [if_neg hinstance, h]

theorem caseOf_register_eq_some
    (h : (s.register execution caseInstance).caseOf id = some i) :
    id = execution ∧ execution ≠ caseInstance ∧ i = caseInstance ∨
      s.caseOf caseInstance = none ∧ i = caseInstance ∨
      (id ≠ execution ∨ execution = caseInstance) ∧ s.caseOf id = some i := by
  rw [caseOf_register] at h
  by_cases hself : id = execution ∧ execution ≠ caseInstance
  · rw [if_pos hself] at h
    exact Or.inl ⟨hself.1, hself.2, (Option.some.inj h).symm⟩
  · have hother : id ≠ execution ∨ execution = caseInstance := by
      by_cases hid : id = execution
      · exact Or.inr (Classical.byContradiction fun hne => hself ⟨hid, hne⟩)
      · exact Or.inl hid
    rw [if_neg hself] at h
    by_cases hinstance : id = caseInstance
    · rw [if_pos hinstance] at h
      cases hcase : s.caseOf caseInstance with
      | none =>
          rw [hcase] at h
          exact Or.inr (Or.inl ⟨rfl, (Option.some.inj h).symm⟩)
      | some k =>
          rw [hcase] at h
          exact Or.inr (Or.inr ⟨hother, by rw [hinstance, hcase]; exact h⟩)
    · rw [if_neg hinstance] at h
      exact Or.inr (Or.inr ⟨hother, h⟩)

/-- The case instance of a registration is a root after it if it was one or is new. -/
theorem isRoot_register_iff :
    (s.register execution caseInstance).IsRoot caseInstance
      ↔ s.caseOf caseInstance = none ∨ s.IsRoot caseInstance := by
  rw [IsRoot, caseOf_register, if_neg fun heq => heq.2 heq.1.symm, if_pos rfl, IsRoot]
  cases s.caseOf caseInstance <;> simp

end

/-- No command moves an execution to another case. -/
theorem caseOf_after (s : Store) (c : Command) (ending : Ending) (id : String) :
    (s.after c ending).caseOf id = s.caseOf id := by
  cases hverdict : ending.verdict c (s.executions.get? c.execution) with
  | error error => rw [after_of_refused hverdict]
  | ok e =>
      obtain ⟨e₀, he₀, hcase⟩ := Ending.verdict_eq_ok hverdict
      unfold caseOf
      rw [(finished_after hverdict).executions, Dictionary.get?_insert]
      by_cases hid : c.execution = id
      · rw [if_pos hid, ← hid, he₀, Option.map_some, Option.map_some, hcase]
      · rw [if_neg hid]

theorem rooted_after {s : Store} (c : Command) (ending : Ending) :
    (s.after c ending).Rooted ↔ s.Rooted := by
  unfold Rooted IsRoot
  simp only [caseOf_after]

/-- **A registration keeps all roots exactly if it keeps all roles.** -/
theorem rooted_register_iff {s : Store} (h : s.Rooted) (execution caseInstance : String) :
    (s.register execution caseInstance).Rooted ↔ s.KeepsRoles execution caseInstance := by
  constructor
  · intro hrooted
    by_cases hne : execution = caseInstance
    · exact Or.inl hne
    · have hself : (s.register execution caseInstance).caseOf execution = some caseInstance :=
        caseOf_register_self hne
      refine Or.inr ⟨isRoot_register_iff.mp (hrooted execution caseInstance hself), ?_⟩
      intro id hid
      by_contra hother
      have hroot := hrooted id execution (caseOf_register_other (Or.inl hother) hid)
      rw [IsRoot, hself] at hroot
      exact hne (Option.some.inj hroot).symm
  · intro hkeeps id i hi
    rcases caseOf_register_eq_some hi with ⟨-, hne, rfl⟩ | ⟨hnew, rfl⟩ | ⟨hother, hid⟩
    · rcases hkeeps with heq | ⟨hinstance, -⟩
      · exact absurd heq hne
      · exact isRoot_register_iff.mpr hinstance
    · exact isRoot_register_iff.mpr (Or.inl hnew)
    · refine caseOf_register_other ?_ (h id i hid)
      rcases hkeeps with heq | ⟨-, hexecution⟩
      · exact Or.inr heq
      · rcases hother with hne | heq
        · exact Or.inl fun hi => hne (hexecution id (hi ▸ hid))
        · exact Or.inr heq

/-! ### Runs -/

/-- A case instance that some execution belongs to is known, root or not. -/
def CasesKnown (s : Store) : Prop := ∀ id i, s.caseOf id = some i → (s.caseOf i).isSome

theorem casesKnown_register {s : Store} (h : s.CasesKnown) (execution caseInstance : String) :
    (s.register execution caseInstance).CasesKnown := by
  have hknown : ∀ i, i = caseInstance ∨ (s.caseOf i).isSome →
      ((s.register execution caseInstance).caseOf i).isSome := by
    intro i hi
    rw [caseOf_register]
    split
    · rfl
    · split
      · rfl
      · rename_i hinstance
        exact hi.resolve_left hinstance
  intro id i hi
  rcases caseOf_register_eq_some hi with ⟨-, -, rfl⟩ | ⟨-, rfl⟩ | ⟨-, hid⟩
  · exact hknown _ (Or.inl rfl)
  · exact hknown _ (Or.inl rfl)
  · exact hknown _ (Or.inr (h id i hid))

theorem casesKnown_follow {s : Store} (h : s.CasesKnown) (event : Event) :
    (s.follow event).CasesKnown := by
  cases event with
  | register execution caseInstance => exact casesKnown_register h execution caseInstance
  | finish c ending =>
      unfold CasesKnown follow
      simp only [caseOf_after]
      exact h

theorem casesKnown_followAll {events : List Event} :
    ∀ {s : Store}, s.CasesKnown → (s.followAll events).CasesKnown := by
  induction events with
  | nil => exact fun h => h
  | cons event events ih => exact fun h => ih (casesKnown_follow h event)

/-- All that happens to a store keeps its roots exactly if every registration keeps the roles. -/
theorem rooted_followAll_iff {events : List Event} :
    ∀ {s : Store}, s.Rooted →
      ((∀ events', events' <+: events → (s.followAll events').Rooted) ↔ s.RolesKept events) := by
  induction events with
  | nil =>
      intro s h
      refine ⟨fun _ => trivial, fun _ events' hprefix => ?_⟩
      rw [List.prefix_nil.mp hprefix]
      exact h
  | cons event events ih =>
      intro s h
      -- Of the beginnings of a run, all but the empty one begin with its first event.
      have hsplit : (∀ events', events' <+: event :: events → (s.followAll events').Rooted)
          ↔ ∀ events', events' <+: events → ((s.follow event).followAll events').Rooted := by
        constructor
        · intro hall events' hprefix
          exact hall (event :: events') (List.cons_prefix_cons.mpr ⟨rfl, hprefix⟩)
        · intro hall events' hprefix
          cases events' with
          | nil => exact h
          | cons other events' =>
              obtain ⟨rfl, hrest⟩ := List.cons_prefix_cons.mp hprefix
              exact hall events' hrest
      rw [hsplit]
      cases event with
      | finish c ending => exact ih ((rooted_after c ending).mpr h)
      | register execution caseInstance =>
          rw [RolesKept, ← rooted_register_iff h]
          constructor
          · intro hall
            have hrooted := hall [] List.nil_prefix
            exact ⟨hrooted, (ih hrooted).mp hall⟩
          · rintro ⟨hrooted, hkept⟩
            exact (ih hrooted).mpr hkept

/-- **Case instances stay their own roots exactly as long as no id changes its role.**

Whatever is registered and whichever commands are finished, every case instance is known.  Each
of them is its own root throughout if and only if no registration names an execution of another
case as a case instance, or the case instance of others as an execution. -/
theorem roots_kept_iff (events : List Event) :
    (empty.followAll events).CasesKnown ∧
      ((∀ events', events' <+: events → (empty.followAll events').Rooted)
        ↔ empty.RolesKept events) := by
  have hcases : ∀ id i, empty.caseOf id ≠ some i := by
    intro id i
    simp [caseOf, empty]
  exact ⟨casesKnown_followAll fun id i hi => absurd hi (hcases id i),
    rooted_followAll_iff fun id i hi => absurd hi (hcases id i)⟩

/-- A case that is registered as an execution of a group is no root any more, but its task still
belongs to it. -/
theorem case_of_group_not_root :
    let s := empty.followAll [.register "task" "case", .register "case" "group"]
    s.caseOf "task" = some "case" ∧ s.caseOf "case" = some "group" ∧ ¬s.Rooted := by
  intro s
  have htask : s.caseOf "task" = some "case" := by decide
  have hcase : s.caseOf "case" = some "group" := by decide
  refine ⟨htask, hcase, fun hrooted => ?_⟩
  have hroot := hrooted "task" "case" htask
  rw [IsRoot, hcase] at hroot
  exact absurd hroot (by decide)

end CaseGateway.Store
