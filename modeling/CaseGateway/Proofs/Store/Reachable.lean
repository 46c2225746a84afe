/-
The stores that can come about, and what they hold.

A store is filled row by row and then lives through commands.  Values come in at three
places only: the two ways of adding a variable, and a change that sets one.  At each of
them they are brought into the precision in which they travel, and nothing else touches
a value, so every value that is stored has it.  This is what makes the round trip of
`Proofs/Value/RoundTrip.lean` one of stored values.
-/
import CaseGateway.Proofs.Store.Commands
import CaseGateway.Proofs.Value.RoundTrip

namespace CaseGateway.Store

/-- Reachable from the empty store by filling it and by commands that succeed. -/
inductive Reachable : Store → Prop
  | empty : Reachable empty
  | insertVariable {s : Store} (h : Reachable s) (v : VariableInstance) :
    Reachable (s.insertVariable v)
  | insertHistoric {s : Store} (h : Reachable s) (v : HistoricVariable) :
    Reachable (s.insertHistoric v)
  | insertLink {s : Store} (h : Reachable s) (l : IdentityLink) : Reachable (s.insertLink l)
  | insertReport {s : Store} (h : Reachable s) (r : CleanableReport) : Reachable (s.insertReport r)
  | register {s : Store} (h : Reachable s) (execution caseInstance : String) :
    Reachable (s.register execution caseInstance)
  | command {s s' : Store} {c : Command} (h : Reachable s) (hc : s.Commanded c s') : Reachable s'

/-- Every value of a variable, present or past, is in the precision in which it travels. -/
structure Normalized (s : Store) : Prop where
  instances : ∀ row ∈ s.instances, row.value.normalized = row.value
  historic : ∀ row ∈ s.historic, row.value.normalized = row.value

/-! ### Changes -/

theorem mem_updateFirst {α : Type} {p : α → Bool} {f : α → α} {a : α} {l : List α}
    (h : a ∈ updateFirst p f l) : a ∈ l ∨ ∃ b ∈ l, a = f b := by
  induction l with
  | nil => simp [updateFirst] at h
  | cons b l ih =>
      unfold updateFirst at h
      split at h
      · rcases List.mem_cons.mp h with rfl | hmem
        · exact Or.inr ⟨b, List.mem_cons_self, rfl⟩
        · exact Or.inl (List.mem_cons_of_mem b hmem)
      · rcases List.mem_cons.mp h with rfl | hmem
        · exact Or.inl List.mem_cons_self
        · rcases ih hmem with hl | ⟨c, hc, heq⟩
          · exact Or.inl (List.mem_cons_of_mem b hl)
          · exact Or.inr ⟨c, List.mem_cons_of_mem b hc, heq⟩

/-- A row that is there after a write was there before, or holds the value that was written. -/
theorem mem_write {s : Store} {target caseInstance name : String} {value : TypedValue}
    {row : VariableInstance} (h : row ∈ (s.write target caseInstance name value).instances) :
    row ∈ s.instances ∨ row.value = value := by
  unfold write at h
  split at h
  · rcases mem_updateFirst h with hmem | ⟨other, -, rfl⟩
    · exact Or.inl hmem
    · exact Or.inr rfl
  · rcases List.mem_append.mp h with hmem | hmem
    · exact Or.inl hmem
    · rw [List.mem_singleton.mp hmem]
      exact Or.inr rfl

theorem mem_change {s : Store} {execution caseInstance : String} {c : VariableChange}
    {row : VariableInstance} (h : row ∈ (s.change execution caseInstance c).instances) :
    row ∈ s.instances ∨ ∃ value : TypedValue, row.value = value.normalized := by
  cases c with
  | set name value scope => exact (mem_write h).imp_right fun hrow => ⟨value, hrow⟩
  | remove name scope => exact Or.inl (List.mem_of_mem_eraseP h)

theorem mem_changeAll {execution caseInstance : String} {changes : List VariableChange}
    {row : VariableInstance} :
    ∀ {s : Store}, row ∈ (s.changeAll execution caseInstance changes).instances →
      row ∈ s.instances ∨ ∃ value : TypedValue, row.value = value.normalized := by
  induction changes with
  | nil => intro s h; exact Or.inl h
  | cons c changes ih =>
      intro s h
      rcases ih h with hmem | hvalue
      · exact mem_change hmem
      · exact Or.inr hvalue

/-! ### Stores -/

theorem Commanded.normalized {s s' : Store} {c : Command} (h : s.Commanded c s')
    (hs : s.Normalized) : s'.Normalized := by
  obtain ⟨e, -, hinstances, hhistoric, -⟩ := h.inv
  refine ⟨?_, ?_⟩
  · intro row hrow
    rw [hinstances] at hrow
    rcases mem_changeAll hrow with hmem | ⟨value, hvalue⟩
    · exact hs.instances row hmem
    · rw [hvalue]
      exact value.normalized_normalized
  · rw [hhistoric]
    exact hs.historic

/-- Everything that is stored has the precision in which it travels. -/
theorem Reachable.normalized {s : Store} (h : Reachable s) : s.Normalized := by
  induction h with
  | empty => exact ⟨by simp [Store.empty], by simp [Store.empty]⟩
  | insertVariable _ v ih =>
      refine ⟨?_, ih.historic⟩
      intro row hrow
      rcases List.mem_append.mp hrow with hmem | hmem
      · exact ih.instances row hmem
      · rw [List.mem_singleton.mp hmem]
        exact v.value.normalized_normalized
  | insertHistoric _ v ih =>
      refine ⟨ih.instances, ?_⟩
      intro row hrow
      rcases List.mem_append.mp hrow with hmem | hmem
      · exact ih.historic row hmem
      · rw [List.mem_singleton.mp hmem]
        exact v.value.normalized_normalized
  | insertLink _ l ih => exact ⟨ih.instances, ih.historic⟩
  | insertReport _ r ih => exact ⟨ih.instances, ih.historic⟩
  | register _ execution caseInstance ih => exact ⟨ih.instances, ih.historic⟩
  | command _ hc ih => exact hc.normalized ih

/-- The values of all variables, present and past. -/
def values (s : Store) : List TypedValue :=
  s.instances.map (·.value) ++ s.historic.map (·.value)

theorem Normalized.of_mem_values {s : Store} (h : s.Normalized) {value : TypedValue}
    (hvalue : value ∈ s.values) : value.normalized = value := by
  rcases List.mem_append.mp hvalue with hmem | hmem
  · obtain ⟨row, hrow, rfl⟩ := List.mem_map.mp hmem
    exact h.instances row hrow
  · obtain ⟨row, hrow, rfl⟩ := List.mem_map.mp hmem
    exact h.historic row hrow

/-- **What is stored survives the wire.**

A value in the precision in which it travels is read back from its wire form, unless it
is an object, whatever data formats are in use.  All values that a store can come to hold
have that precision. -/
theorem stored_survives_wire :
    (∀ (formats : DataFormats) (v : TypedValue), v.isObject = false →
      ∃ w, formats.decode (v.normalized.encode default) = .ok w ∧ w.Alike v.normalized) ∧
    ∀ s : Store, Reachable s → ∀ value ∈ s.values, value.normalized = value ∧
      (value.isObject = false → ∀ formats : DataFormats,
        ∃ w, formats.decode (value.encode default) = .ok w ∧ w.Alike value) := by
  refine ⟨fun formats v hv => v.decode_encode_normalized formats hv, ?_⟩
  intro s hs value hvalue
  have hnormalized := hs.normalized.of_mem_values hvalue
  refine ⟨hnormalized, ?_⟩
  intro hobject formats
  rw [← hnormalized]
  exact value.decode_encode_normalized formats hobject

/-- A deadline that a task is started with is cut to the second before it is stored, and is then
read back as it is stored. -/
theorem stored_survives_wire_deadline :
    let t : Timestamp := ⟨2014, 2, 3, 10, 11, 12, 500000000, by decide⟩
    let deadline : TypedValue := .date (some t.wholeSecond)
    ∃ s', paintShop.trigger ⟨"task", [.setVariable "deadline" (.date (some t)) .localOnly]⟩
        .manualStart = .ok s' ∧
      deadline ∈ s'.values ∧
      ∃ w, DataFormats.builtIn.decode (deadline.encode default) = .ok w ∧ w.Alike deadline := by
  intro t deadline
  have hreach : Reachable paintShop := .insertVariable (.register .empty "task" "case") _
  obtain ⟨s', hs', hmem⟩ : ∃ s', paintShop.trigger
      ⟨"task", [.setVariable "deadline" (.date (some t)) .localOnly]⟩ .manualStart = .ok s' ∧
        deadline ∈ s'.values :=
    ⟨_, trigger_eq_ok.mpr ⟨⟨"case", .enabled⟩, .active, by decide, rfl, rfl⟩,
      List.mem_append_left _ (List.mem_cons_of_mem _ List.mem_cons_self)⟩
  obtain ⟨-, hsurvives⟩ := stored_survives_wire.2 s' (hreach.command (.trigger hs')) deadline hmem
  exact ⟨s', hs', hmem, hsurvives rfl DataFormats.builtIn⟩

end CaseGateway.Store
