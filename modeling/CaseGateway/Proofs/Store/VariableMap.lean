/-
The variables of case executions are a finite map.

The store keeps them as rows of one list among all other variables.  Writes look for the
first row of a name, removals take the first one out, and reads walk over the whole list
with the last row of a name winning.  These agree only because no two rows are the same
variable, which is `UniqueVariables`.

Seen from outside the list is then a map from an execution and a name to a value, and a
change is one update of that map: `change_spec` for a single change, `changeAll_spec` for
a queue of them.  Where a change goes in the global scope depends on the map as the
earlier changes of the queue have left it, so the fold on the side of the map carries the
same look-up as the fold on the side of the rows.

What a call on a command does to the map is said for each kind of call by itself, in
`VariableMap.call`, and not by way of the changes that it queues.
-/
import CaseGateway.Engine.Store
import CaseGateway.Proofs.Dictionary

namespace CaseGateway

/-! ### The map and its changes -/

/-- The case execution that a row belongs to, if any, with the name it has there. -/
def VariableInstance.place (v : VariableInstance) : Option (String × String) :=
  v.caseExecutionId.map fun execution => (execution, v.name)

/-- Values of variables by case execution and name. -/
def VariableMap : Type := String × String → Option TypedValue

namespace VariableMap

/-- The map with a value, or with none, at one place. -/
def put (m : VariableMap) (place : String × String) (value : Option TypedValue) : VariableMap :=
  fun p => if p = place then value else m p

/-- The execution whose variable of a name is meant in a scope: in the global one the execution
itself where it has such a variable, and its case instance otherwise. -/
def target (m : VariableMap) (execution caseInstance name : String) : VariableScope → String
  | .localOnly => execution
  | .global => if (m (execution, name)).isSome then execution else caseInstance

/-- The map after a write in a scope.  Values are kept in the precision in which they travel. -/
def set (execution caseInstance : String) (scope : VariableScope) (m : VariableMap) (name : String)
    (value : TypedValue) : VariableMap :=
  m.put (m.target execution caseInstance name scope, name) (some value.normalized)

/-- The map after a removal in a scope. -/
def remove (execution caseInstance : String) (scope : VariableScope) (m : VariableMap)
    (name : String) : VariableMap :=
  m.put (m.target execution caseInstance name scope, name) none

/-- The map after a change. -/
def change (execution caseInstance : String) (m : VariableMap) : VariableChange → VariableMap
  | .set name value scope => m.set execution caseInstance scope name value
  | .remove name scope => m.remove execution caseInstance scope name

/-- The map after a call.  Of several variables each is written or removed by itself: values in the
order of their names, and removals as they are listed, so that one may uncover what the next one
takes away. -/
def call (execution caseInstance : String) (m : VariableMap) : CommandCall → VariableMap
  | .setVariable name value scope => m.set execution caseInstance scope name value
  | .setVariables values scope =>
    values.entries.foldl (fun m e => m.set execution caseInstance scope e.1 e.2) m
  | .removeVariable name scope => m.remove execution caseInstance scope name
  | .removeVariables names scope => names.foldl (remove execution caseInstance scope) m

/-- What an execution sees under a name: its own variable, and in the global scope that of its
case instance where it has none. -/
def visible (m : VariableMap) (execution caseInstance : String) (name : String) :
    VariableScope → Option TypedValue
  | .localOnly => m (execution, name)
  | .global => (m (execution, name)).or (m (caseInstance, name))

@[simp] theorem put_self (m : VariableMap) (place : String × String) (value : Option TypedValue) :
    m.put place value place = value := if_pos rfl

theorem put_of_ne (m : VariableMap) {place p : String × String} (value : Option TypedValue)
    (h : p ≠ place) : m.put place value p = m p := if_neg h

/-- A call does what the changes that it queues do. -/
theorem call_eq_changes (execution caseInstance : String) (m : VariableMap) (c : CommandCall) :
    m.call execution caseInstance c = c.changes.foldl (change execution caseInstance) m := by
  cases c with
  | setVariable name value scope => rfl
  | setVariables values scope =>
      rw [CommandCall.changes, List.foldl_map]
      rfl
  | removeVariable name scope => rfl
  | removeVariables names scope =>
      rw [CommandCall.changes, List.foldl_map]
      rfl

/-- Calls do what all their changes do, in order. -/
theorem foldl_call_eq_changes (execution caseInstance : String) (calls : List CommandCall) :
    ∀ m : VariableMap, calls.foldl (call execution caseInstance) m
      = (calls.flatMap CommandCall.changes).foldl (change execution caseInstance) m := by
  induction calls with
  | nil => intro m; rfl
  | cons c calls ih =>
      intro m
      rw [List.foldl_cons, List.flatMap_cons, List.foldl_append, ih, call_eq_changes]

/-- What is seen under a name is what is kept where a change in the scope would go. -/
theorem visible_eq_target (m : VariableMap) (execution caseInstance name : String)
    (scope : VariableScope) :
    m.visible execution caseInstance name scope
      = m (m.target execution caseInstance name scope, name) := by
  cases scope with
  | localOnly => rfl
  | global =>
      unfold visible target
      cases hown : m (execution, name) with
      | none => rfl
      | some value => exact hown.symm

end VariableMap

namespace Store

/-- The places at which there are rows, one for each row of a case execution. -/
def places (s : Store) : List (String × String) :=
  s.instances.filterMap VariableInstance.place

/-- No two rows that belong to case executions share execution and name. -/
def UniqueVariables (s : Store) : Prop := s.places.Nodup

instance (s : Store) : Decidable s.UniqueVariables :=
  inferInstanceAs (Decidable s.places.Nodup)

/-- The variables of case executions as a map. -/
def variableMap (s : Store) : VariableMap := fun p =>
  (s.instances.find? (isVariable p.1 p.2)).map (·.value)

/-! ### Searching a list of rows

The three ways in which the store goes through its rows, for rows of any kind that have
a place or none.
-/

section Rows

variable {ρ κ : Type} {p q : ρ → Bool} {f : ρ → ρ} {place : ρ → Option κ}

theorem filterMap_updateFirst (hf : ∀ a, p a → place (f a) = place a) (l : List ρ) :
    (updateFirst p f l).filterMap place = l.filterMap place := by
  induction l with
  | nil => rfl
  | cons a l ih =>
      unfold updateFirst
      split
      · rename_i ha
        rw [List.filterMap_cons, List.filterMap_cons, hf a ha]
      · rw [List.filterMap_cons, List.filterMap_cons, ih]

theorem find?_updateFirst_self (hf : ∀ a, p (f a) = p a) (l : List ρ) :
    (updateFirst p f l).find? p = (l.find? p).map f := by
  induction l with
  | nil => rfl
  | cons a l ih =>
      unfold updateFirst
      by_cases ha : p a
      · rw [if_pos ha, List.find?_cons_of_pos (by rw [hf]; exact ha), List.find?_cons_of_pos ha]
        rfl
      · rw [if_neg ha, List.find?_cons_of_neg ha, List.find?_cons_of_neg ha, ih]

theorem find?_updateFirst_other (hf : ∀ a, q (f a) = q a) (hpq : ∀ a, p a → ¬q a) (l : List ρ) :
    (updateFirst p f l).find? q = l.find? q := by
  induction l with
  | nil => rfl
  | cons a l ih =>
      unfold updateFirst
      by_cases ha : p a
      · rw [if_pos ha, List.find?_cons_of_neg (by rw [hf]; exact hpq a ha),
          List.find?_cons_of_neg (hpq a ha)]
      · rw [if_neg ha, List.find?_cons, List.find?_cons, ih]

theorem find?_eraseP_other (hpq : ∀ a, p a → ¬q a) (l : List ρ) :
    (l.eraseP p).find? q = l.find? q := by
  induction l with
  | nil => rfl
  | cons a l ih =>
      by_cases ha : p a
      · rw [List.eraseP_cons_of_pos ha, List.find?_cons_of_neg (hpq a ha)]
      · rw [List.eraseP_cons_of_neg ha, List.find?_cons, List.find?_cons, ih]

/-- Taking out the first row at a place leaves none there, if there was but one. -/
theorem find?_eraseP_self {k : κ} (hp : ∀ a, p a ↔ place a = some k) {l : List ρ}
    (h : (l.filterMap place).Nodup) : (l.eraseP p).find? p = none := by
  induction l with
  | nil => rfl
  | cons a l ih =>
      by_cases ha : p a
      · rw [List.filterMap_cons_some ((hp a).mp ha), List.nodup_cons] at h
        rw [List.eraseP_cons_of_pos ha, List.find?_eq_none]
        intro b hb hbp
        exact h.1 (List.mem_filterMap.mpr ⟨b, hb, (hp b).mp hbp⟩)
      · rw [List.eraseP_cons_of_neg ha, List.find?_cons_of_neg ha]
        exact ih (h.sublist ((List.sublist_cons_self a l).filterMap _))

end Rows

/-! ### The rows of a place -/

theorem isVariable_iff {execution name : String} {v : VariableInstance} :
    isVariable execution name v ↔ v.place = some (execution, name) := by
  cases hv : v.caseExecutionId <;> simp [isVariable, VariableInstance.place, hv, and_comm]

/-- A row is the variable of one place at most. -/
theorem isVariable_disjoint {execution name execution' name' : String}
    (h : (execution, name) ≠ (execution', name')) (v : VariableInstance) :
    isVariable execution' name' v → ¬isVariable execution name v := by
  rw [isVariable_iff, isVariable_iff]
  intro hv hw
  exact h (Option.some.inj (hw.symm.trans hv))

theorem hasVariable_eq (s : Store) (execution name : String) :
    s.hasVariable execution name = (s.variableMap (execution, name)).isSome := by
  rw [hasVariable, variableMap, Option.isSome_map, List.isSome_find?]

/-- Rows of one place are one row. -/
theorem eq_of_place_eq {s : Store} (h : s.UniqueVariables) {v w : VariableInstance}
    (hv : v ∈ s.instances) (hw : w ∈ s.instances) {p : String × String}
    (hvp : v.place = some p) (hwp : w.place = some p) : v = w := by
  unfold UniqueVariables places at h
  revert h hv hw
  induction s.instances with
  | nil => intro _ hv; simp at hv
  | cons a l ih =>
      intro h hv hw
      have hl := h.sublist ((List.sublist_cons_self a l).filterMap VariableInstance.place)
      rcases List.mem_cons.mp hv with rfl | hv' <;> rcases List.mem_cons.mp hw with rfl | hw'
      · rfl
      · rw [List.filterMap_cons_some hvp, List.nodup_cons] at h
        exact absurd (List.mem_filterMap.mpr ⟨w, hw', hwp⟩) h.1
      · rw [List.filterMap_cons_some hwp, List.nodup_cons] at h
        exact absurd (List.mem_filterMap.mpr ⟨v, hv', hvp⟩) h.1
      · exact ih hl hv' hw'

/-- The map holds exactly what the rows of case executions hold. -/
theorem variableMap_eq_some_iff {s : Store} (h : s.UniqueVariables) {execution name : String}
    {value : TypedValue} :
    s.variableMap (execution, name) = some value ↔
      ∃ row ∈ s.instances,
        row.caseExecutionId = some execution ∧ row.name = name ∧ row.value = value := by
  have hplace : ∀ row : VariableInstance, row.place = some (execution, name) ↔
      row.caseExecutionId = some execution ∧ row.name = name := by
    intro row
    cases hr : row.caseExecutionId <;> simp [VariableInstance.place, hr]
  constructor
  · intro hmap
    obtain ⟨row, hfind, hvalue⟩ := Option.map_eq_some_iff.mp hmap
    obtain ⟨hexec, hname⟩ := (hplace row).mp (isVariable_iff.mp (List.find?_some hfind))
    exact ⟨row, List.mem_of_find?_eq_some hfind, hexec, hname, hvalue⟩
  · rintro ⟨row, hmem, hexec, hname, hvalue⟩
    have hrow := (hplace row).mpr ⟨hexec, hname⟩
    unfold variableMap
    cases hfind : s.instances.find? (isVariable execution name) with
    | none =>
        rw [List.find?_eq_none] at hfind
        exact absurd (isVariable_iff.mpr hrow) (hfind row hmem)
    | some other =>
        have hother := isVariable_iff.mp (List.find?_some hfind)
        rw [eq_of_place_eq h (List.mem_of_find?_eq_some hfind) hmem hother hrow]
        simp [hvalue]

/-! ### Single changes -/

theorem write_spec {s : Store} (h : s.UniqueVariables) (target caseInstance name : String)
    (value : TypedValue) :
    (s.write target caseInstance name value).UniqueVariables ∧
      (s.write target caseInstance name value).variableMap
        = s.variableMap.put (target, name) (some value) := by
  unfold write
  by_cases hhas : s.hasVariable target name
  · rw [if_pos hhas]
    refine ⟨?_, ?_⟩
    · unfold UniqueVariables places
      rw [filterMap_updateFirst (f := fun v : VariableInstance => { v with value }) fun _ _ => rfl]
      exact h
    · funext p
      by_cases hp : p = (target, name)
      · subst hp
        obtain ⟨row, hfind⟩ : ∃ row, s.instances.find? (isVariable target name) = some row := by
          rw [← Option.isSome_iff_exists, List.isSome_find?]
          exact hhas
        rw [VariableMap.put_self, variableMap,
          find?_updateFirst_self (f := fun v : VariableInstance => { v with value }) fun _ => rfl,
          hfind]
        rfl
      · rw [VariableMap.put_of_ne _ _ hp, variableMap,
          find?_updateFirst_other (f := fun v : VariableInstance => { v with value }) (fun _ => rfl)
            (isVariable_disjoint hp)]
        rfl
  · rw [if_neg hhas]
    have hnone : ∀ v ∈ s.instances, ¬isVariable target name v := by
      simpa [hasVariable] using hhas
    refine ⟨?_, ?_⟩
    · unfold UniqueVariables places
      rw [List.filterMap_append, List.nodup_append]
      refine ⟨h, by simp [VariableInstance.place], ?_⟩
      rintro p hp q hq rfl
      obtain ⟨row, hrow, hplace⟩ := List.mem_filterMap.mp hp
      have hpt : p = (target, name) := by
        simpa [VariableInstance.place, VariableInstance.plain] using hq
      exact hnone row hrow (isVariable_iff.mpr (hpt ▸ hplace))
    · funext p
      by_cases hp : p = (target, name)
      · subst hp
        rw [VariableMap.put_self, variableMap, List.find?_append, List.find?_eq_none.mpr hnone,
          Option.none_or, List.find?_cons_of_pos (isVariable_iff.mpr rfl)]
        rfl
      · rw [VariableMap.put_of_ne _ _ hp, variableMap, List.find?_append, List.find?_cons_of_neg
          (isVariable_disjoint hp _ (isVariable_iff.mpr rfl)), List.find?_nil, Option.or_none]
        rfl

theorem erase_spec {s : Store} (h : s.UniqueVariables) (target name : String) :
    (s.erase target name).UniqueVariables ∧
      (s.erase target name).variableMap = s.variableMap.put (target, name) none := by
  unfold erase
  refine ⟨List.Nodup.sublist ((List.eraseP_sublist).filterMap _) h, ?_⟩
  funext p
  by_cases hp : p = (target, name)
  · subst hp
    rw [VariableMap.put_self, variableMap, find?_eraseP_self (fun _ => isVariable_iff) h,
      Option.map_none]
  · rw [VariableMap.put_of_ne _ _ hp, variableMap, find?_eraseP_other (isVariable_disjoint hp)]
    rfl

/-- The rows that a change is about are those at the place where the map changes. -/
theorem target_eq (s : Store) (execution caseInstance name : String) (scope : VariableScope) :
    (if scope = .localOnly ∨ s.hasVariable execution name then execution else caseInstance)
      = s.variableMap.target execution caseInstance name scope := by
  cases scope with
  | global => simp [VariableMap.target, hasVariable_eq]
  | localOnly => simp [VariableMap.target]

theorem change_spec {s : Store} (h : s.UniqueVariables) (execution caseInstance : String)
    (c : VariableChange) :
    (s.change execution caseInstance c).UniqueVariables ∧
      (s.change execution caseInstance c).variableMap
        = s.variableMap.change execution caseInstance c := by
  cases c with
  | set name value scope =>
      simp only [change, target_eq]
      exact write_spec h _ _ _ _
  | remove name scope =>
      simp only [change, target_eq]
      exact erase_spec h _ _

/-! ### Queues of changes, and commands -/

theorem changeAll_spec (execution caseInstance : String) (changes : List VariableChange) :
    ∀ {s : Store}, s.UniqueVariables →
      (s.changeAll execution caseInstance changes).UniqueVariables ∧
        (s.changeAll execution caseInstance changes).variableMap
          = changes.foldl (VariableMap.change execution caseInstance) s.variableMap := by
  induction changes with
  | nil => intro s h; exact ⟨h, rfl⟩
  | cons c changes ih =>
      intro s h
      obtain ⟨hunique, hmap⟩ := change_spec h execution caseInstance c
      rw [List.foldl_cons, ← hmap]
      exact ih hunique

/-! ### Looking at variables -/

theorem get?_collect {s : Store} (h : s.UniqueVariables) (execution name : String)
    (seen : Dictionary TypedValue) :
    (s.collect execution seen).get? name
      = (s.variableMap (execution, name)).or (seen.get? name) := by
  unfold collect
  have hnames : (s.instances.filter (·.caseExecutionId == some execution)).Pairwise
      (fun a b => a.name ≠ b.name) := by
    rw [List.pairwise_filter]
    refine (List.pairwise_filterMap.mp h).imp ?_
    intro a b hab ha hb hname
    rw [beq_iff_eq] at ha hb
    exact hab (execution, a.name) (by simp [VariableInstance.place, ha]) (execution, b.name)
      (by simp [VariableInstance.place, hb]) (by rw [hname])
  rw [Dictionary.get?_foldl_insert VariableInstance.name VariableInstance.value,
    Dictionary.find?_reverse hnames, List.find?_filter, variableMap]
  congr 3
  funext v
  rw [Bool.eq_iff_iff]
  simp [isVariable, and_comm]

/-- What a known execution is shown in a scope. -/
theorem scopedVariables_spec {s : Store} (h : s.UniqueVariables) {id : String} {e : CaseExecution}
    (he : s.executions.get? id = some e) (scope : VariableScope) :
    ∃ d, s.scopedVariables id scope = .ok d ∧
      ∀ name, d.get? name = s.variableMap.visible id e.caseInstance name scope := by
  simp only [scopedVariables, execution, he]
  refine ⟨_, rfl, ?_⟩
  intro name
  rw [get?_collect h]
  cases scope with
  | localOnly => simp [VariableMap.visible]
  | global =>
      by_cases hc : e.caseInstance = id
      · simp [VariableMap.visible, hc]
      · simp [VariableMap.visible, hc, get?_collect h]

/-- **A command changes the map call by call, and each scope is a view of the map.**

The map is what the rows of case executions hold.  A call is read against the map as the calls
before it have left it, and it says by itself where it writes or removes.  No command can make two
rows the same variable, so all this is again true of the store that the command leaves. -/
theorem execute_refines_map (s : Store) (h : s.UniqueVariables) (id : String) (e : CaseExecution)
    (he : s.executions.get? id = some e) :
    (∀ execution name value, s.variableMap (execution, name) = some value ↔
      ∃ row ∈ s.instances,
        row.caseExecutionId = some execution ∧ row.name = name ∧ row.value = value) ∧
    (∀ calls : List CommandCall, ∃ s', s.execute ⟨id, calls⟩ = .ok s' ∧ s'.UniqueVariables ∧
      s'.variableMap = calls.foldl (VariableMap.call id e.caseInstance) s.variableMap) ∧
    (∃ d, s.scopedVariables id .localOnly = .ok d ∧
      ∀ name, d.get? name = s.variableMap (id, name)) ∧
    (∃ d, s.scopedVariables id .global = .ok d ∧
      ∀ name, d.get? name
        = (s.variableMap (id, name)).or (s.variableMap (e.caseInstance, name))) := by
  refine ⟨fun _ _ _ => variableMap_eq_some_iff h, ?_, scopedVariables_spec h he .localOnly,
    scopedVariables_spec h he .global⟩
  intro calls
  obtain ⟨hunique, hmap⟩ := changeAll_spec id e.caseInstance (Command.mk id calls).changes h
  refine ⟨s.changeAll id e.caseInstance (Command.mk id calls).changes, ?_, hunique, ?_⟩
  · simp only [execute, execution, he]
    rfl
  · rw [hmap, VariableMap.foldl_call_eq_changes]
    rfl

/-- A store in which a task runs in a case that has a variable. -/
def paintShop : Store :=
  (empty.register "task" "case").insertVariable
    { VariableInstance.plain "v1" "color" (.string (some "red")) with
      caseExecutionId := some "case" }

theorem variableMap_paintShop (p : String × String) :
    paintShop.variableMap p
      = if p = ("case", "color") then some (.string (some "red")) else none := by
  by_cases hp : p = ("case", "color")
  · rw [if_pos hp, hp]
    rfl
  · rw [if_neg hp, variableMap, Option.map_eq_none_iff]
    refine List.find?_eq_none.mpr fun v hv => ?_
    obtain rfl := List.mem_singleton.mp hv
    exact isVariable_disjoint hp _ (by decide)

/-- The color of the case is painted over for the task alone and then removed from both at once, a
date and a note are kept at the case, and a size at the task. -/
theorem execute_refines_map_paintShop :
    let half : Timestamp := ⟨2014, 4, 28, 10, 0, 0, 500000000, by decide⟩
    let sharp : Timestamp := ⟨2014, 4, 28, 10, 0, 0, 0, by decide⟩
    let paint : Dictionary TypedValue :=
      ⟨[("color", .string (some "green")), ("due", .date (some half))], by decide⟩
    let measure : Dictionary TypedValue :=
      ⟨[("due", .null), ("size", .boolean (some true))], by decide⟩
    (∃ d, paintShop.scopedVariables "task" .global = .ok d ∧
        d.get? "color" = some (.string (some "red"))) ∧
      (∃ d, paintShop.scopedVariables "task" .localOnly = .ok d ∧ d.get? "color" = none) ∧
      ∃ s', paintShop.execute ⟨"task",
          [.setVariable "color" (.string (some "blue")) .localOnly, .setVariables paint .global,
            .removeVariables ["color", "color"] .global,
            .setVariable "note" (.string (some "dry")) .global, .setVariables measure .localOnly,
            .removeVariable "due" .global]⟩ = .ok s' ∧
        s'.variableMap ("task", "color") = none ∧
        s'.variableMap ("case", "color") = none ∧
        s'.variableMap ("task", "due") = none ∧
        s'.variableMap ("case", "due") = some (.date (some sharp)) ∧
        s'.variableMap ("case", "note") = some (.string (some "dry")) ∧
        s'.variableMap ("task", "size") = some (.boolean (some true)) := by
  intro half sharp paint measure
  have h : paintShop.UniqueVariables := by decide
  have he : paintShop.executions.get? "task" = some ⟨"case", .enabled⟩ := by decide
  obtain ⟨-, hexecute, ⟨dlocal, hlocal, hown⟩, dglobal, hglobal, hall⟩ :=
    execute_refines_map paintShop h "task" ⟨"case", .enabled⟩ he
  obtain ⟨s', hs', -, hmap⟩ := hexecute
    [.setVariable "color" (.string (some "blue")) .localOnly, .setVariables paint .global,
      .removeVariables ["color", "color"] .global,
      .setVariable "note" (.string (some "dry")) .global, .setVariables measure .localOnly,
      .removeVariable "due" .global]
  refine ⟨⟨dglobal, hglobal, (hall "color").trans rfl⟩, ⟨dlocal, hlocal, (hown "color").trans rfl⟩,
    s', hs', ?_⟩
  have hsharp : half.wholeSecond = sharp := by decide
  rw [hmap]
  simp [VariableMap.call, VariableMap.set, VariableMap.remove, VariableMap.target, VariableMap.put,
    variableMap_paintShop, paint, measure, TypedValue.normalized, hsharp]

end Store

end CaseGateway
