/-
Sort tables as maps that remember when a key came.

A table comes about by registering keys one after the other.  To register a key changes what the
table says of that key and of no other, and adds the key to the end of the list if it is new:
those are two equations, and nothing behind them looks for a place in the list again.

`Reflects` is what a table has to do with the registrations behind it.  It says nothing of how
the table is stored, and one more registration keeps it, so it holds after any number of them.
That no key is listed twice need not be carried along: keys of which one was registered before the
other are different keys.
-/
import CaseGateway.Proofs.Query.Protocol
import CaseGateway.Resource.VariableInstance

namespace CaseGateway.SortTable

variable {γ : Type}

/-! ### One registration -/

section Entries

variable {key k : String} {call : γ} {es : List (String × γ)}

theorem map_registerEntry :
    (registerEntry key call es).map (·.1)
      = if key ∈ es.map (·.1) then es.map (·.1) else es.map (·.1) ++ [key] := by
  induction es with
  | nil => rfl
  | cons e es ih =>
      unfold registerEntry
      by_cases he : e.1 = key
      · simp [he]
      · rw [if_neg he, List.map_cons, List.map_cons, ih]
        by_cases hmem : key ∈ es.map (·.1)
        · rw [if_pos hmem, if_pos (List.mem_cons_of_mem _ hmem)]
        · have hnew : key ∉ e.1 :: es.map (·.1) := by
            rintro (_ | ⟨_, h⟩)
            · exact he rfl
            · exact hmem h
          rw [if_neg hmem, if_neg hnew]
          rfl

theorem find?_registerEntry :
    (registerEntry key call es).find? (·.1 == k)
      = if key = k then some (key, call) else es.find? (·.1 == k) := by
  induction es with
  | nil => simp [registerEntry]
  | cons e es ih =>
      unfold registerEntry
      by_cases he : e.1 = key
      · rw [if_pos he]
        by_cases hk : key = k
        · rw [if_pos hk, List.find?_cons_of_pos (by simpa using hk)]
        · have hek : e.1 ≠ k := fun h => hk (he.symm.trans h)
          rw [if_neg hk, List.find?_cons_of_neg (by simpa using hk),
            List.find?_cons_of_neg (by simpa using hek)]
      · rw [if_neg he]
        by_cases hek : e.1 = k
        · have hk : key ≠ k := fun h => he (hek.trans h.symm)
          rw [if_neg hk, List.find?_cons_of_pos (by simpa using hek),
            List.find?_cons_of_pos (by simpa using hek)]
        · rw [List.find?_cons_of_neg (by simpa using hek), ih,
            List.find?_cons_of_neg (by simpa using hek)]

end Entries

section Register

variable (table : SortTable γ) (key k : String) (call : γ)

/-- A key that is registered stays in its place, or comes to the end if it is new. -/
theorem keys_register :
    (table.register key call).keys
      = if key ∈ table.keys then table.keys else table.keys ++ [key] :=
  map_registerEntry

/-- It stands for what it was registered with, and other keys stand for what they did. -/
theorem resolve?_register :
    (table.register key call).resolve? k = if key = k then some call else table.resolve? k := by
  unfold resolve? register
  rw [find?_registerEntry]
  split <;> rfl

theorem resolve?_eq_none_iff : table.resolve? key = none ↔ key ∉ table.keys := by
  rw [resolve?, Option.map_eq_none_iff, List.find?_eq_none]
  constructor
  · intro h hmem
    obtain ⟨e, he, rfl⟩ := List.mem_map.mp hmem
    exact h e he (beq_self_eq_true e.1)
  · intro h e he hkey
    exact h (List.mem_map.mpr ⟨e, he, beq_iff_eq.mp hkey⟩)

theorem mem_keys_register : k ∈ (table.register key call).keys ↔ k ∈ table.keys ∨ k = key := by
  rw [keys_register]
  split
  · next hmem => exact ⟨Or.inl, fun h => h.elim id fun hk => hk ▸ hmem⟩
  · rw [List.mem_append, List.mem_singleton]

end Register

/-! ### What was registered last -/

/-- The last of some registrations that is for a key. -/
def LastRegistered (registrations : List (String × γ)) (key : String) (call : γ) : Prop :=
  ∃ before after, registrations = before ++ (key, call) :: after ∧ key ∉ after.map (·.1)

theorem lastRegistered_concat {registrations : List (String × γ)} {key k : String} {call c : γ} :
    LastRegistered (registrations ++ [(key, call)]) k c
      ↔ if key = k then call = c else LastRegistered registrations k c := by
  constructor
  · rintro ⟨before, after, heq, hlast⟩
    rcases List.eq_nil_or_concat' after with rfl | ⟨after, e, rfl⟩
    · obtain ⟨-, he⟩ := List.append_inj' heq rfl
      obtain ⟨rfl, rfl⟩ : key = k ∧ call = c := by simpa using he
      rw [if_pos rfl]
    · rw [← List.cons_append, ← List.append_assoc] at heq
      obtain ⟨hregistrations, he⟩ := List.append_inj' heq rfl
      obtain rfl : (key, call) = e := by simpa using he
      have hne : key ≠ k := fun h => hlast (by simp [h])
      rw [if_neg hne]
      exact ⟨before, after, hregistrations, fun h => hlast (by simpa using Or.inl h)⟩
  · intro h
    split at h
    · next hkey =>
      subst hkey h
      exact ⟨registrations, [], rfl, List.not_mem_nil⟩
    · next hne =>
      obtain ⟨before, after, rfl, hlast⟩ := h
      refine ⟨before, after ++ [(key, call)], by simp, fun h => ?_⟩
      rw [List.map_append, List.mem_append] at h
      exact h.elim hlast fun h => hne (List.mem_singleton.mp h).symm

/-! ### Any number of registrations -/

/-- A table that lists the registered keys in the order in which each was registered first, and in
which a key stands for what it was registered with last. -/
structure Reflects (table : SortTable γ) (registrations : List (String × γ)) : Prop where
  mem_keys_iff : ∀ key, key ∈ table.keys ↔ key ∈ registrations.map (·.1)
  ordered : table.keys.Pairwise fun a b =>
    (registrations.map (·.1)).idxOf a < (registrations.map (·.1)).idxOf b
  resolve?_eq_some_iff : ∀ key call,
    table.resolve? key = some call ↔ LastRegistered registrations key call

theorem reflects_empty : (empty : SortTable γ).Reflects [] where
  mem_keys_iff _ := Iff.rfl
  ordered := .nil
  resolve?_eq_some_iff key call :=
    iff_of_false nofun fun ⟨before, after, h, _⟩ => absurd h (by simp)

namespace Reflects

variable {table : SortTable γ} {registrations : List (String × γ)}

/-- A later registration does not change which of two keys came first. -/
theorem ordered_concat (h : table.Reflects registrations) (key : String) (call : γ) :
    table.keys.Pairwise fun a b =>
      ((registrations ++ [(key, call)]).map (·.1)).idxOf a
        < ((registrations ++ [(key, call)]).map (·.1)).idxOf b := by
  refine h.ordered.imp_of_mem fun {a b} ha hb hlt => ?_
  rw [h.mem_keys_iff] at ha hb
  rwa [List.map_append, List.idxOf_append_of_mem ha, List.idxOf_append_of_mem hb]

/-- **One more registration is reflected as well.** -/
theorem register (h : table.Reflects registrations) (key : String) (call : γ) :
    (table.register key call).Reflects (registrations ++ [(key, call)]) where
  mem_keys_iff k := by
    rw [mem_keys_register, h.mem_keys_iff, List.map_append, List.mem_append]
    exact or_congr_right List.mem_singleton.symm
  ordered := by
    rw [keys_register]
    split
    · exact h.ordered_concat key call
    · next hnew =>
      refine List.pairwise_append.mpr
        ⟨h.ordered_concat key call, List.pairwise_singleton _ _, fun a ha b hb => ?_⟩
      obtain rfl := List.mem_singleton.mp hb
      rw [h.mem_keys_iff] at ha hnew
      rw [List.map_append, List.idxOf_append_of_mem ha, List.idxOf_append_of_notMem hnew]
      exact Nat.lt_add_right _ (List.idxOf_lt_length_of_mem ha)
  resolve?_eq_some_iff k c := by
    rw [resolve?_register, lastRegistered_concat, ← h.resolve?_eq_some_iff]
    split
    · exact Option.some_inj
    · rfl

/-- So are any number of them. -/
theorem foldl_register (later : List (String × γ)) :
    ∀ {table : SortTable γ} {registrations : List (String × γ)}, table.Reflects registrations →
      (later.foldl (fun table e => table.register e.1 e.2) table).Reflects
        (registrations ++ later) := by
  induction later with
  | nil =>
      intro table registrations h
      rwa [List.append_nil]
  | cons e later ih =>
      intro table registrations h
      rw [List.foldl_cons, List.append_cons]
      exact ih (h.register e.1 e.2)

theorem nodup_keys (h : table.Reflects registrations) : table.keys.Nodup := by
  refine h.ordered.imp ?_
  rintro a _ hlt rfl
  exact Nat.lt_irrefl _ hlt

end Reflects

theorem reflects_ofList (registrations : List (String × γ)) :
    (ofList registrations).Reflects registrations :=
  Reflects.foldl_register registrations reflects_empty

end CaseGateway.SortTable

namespace CaseGateway.QuerySpec

variable {γ : Type}

/-- **The sort keys of a specification are a map in the order of registration.**

Each registered key is listed once, in the order in which the keys were registered first.  A key
stands for what was registered last under it, and for nothing if nothing was.  With a valid
direction it makes that call, and after it the direction's, and no other. -/
theorem sorting_of_registrations {spec : QuerySpec γ} {registrations : List (String × γ)}
    (h : spec.sorting = .ofList registrations) :
    (spec.sorting.keys.Nodup ∧
      (∀ key, key ∈ spec.sorting.keys ↔ key ∈ registrations.map (·.1)) ∧
      spec.sorting.keys.Pairwise fun a b =>
        (registrations.map (·.1)).idxOf a < (registrations.map (·.1)).idxOf b) ∧
    (∀ key call, spec.sorting.resolve? key = some call
      ↔ SortTable.LastRegistered registrations key call) ∧
    (∀ key, spec.sorting.resolve? key = none ↔ key ∉ registrations.map (·.1)) ∧
    ∀ key call, SortTable.LastRegistered registrations key call →
      ∀ (ps : Parameters) order direction, ps.sortBy = some key → ps.sortOrder = some order →
        SortOrder.parse? order = some direction →
        spec.bindSorting ps = ⟨[call, spec.direction direction], .ok ()⟩ := by
  have hreflects : spec.sorting.Reflects registrations := by
    rw [h]
    exact SortTable.reflects_ofList registrations
  refine ⟨⟨hreflects.nodup_keys, hreflects.mem_keys_iff, hreflects.ordered⟩,
    hreflects.resolve?_eq_some_iff, fun key => ?_, ?_⟩
  · rw [SortTable.resolve?_eq_none_iff, hreflects.mem_keys_iff]
  · intro key call hlast ps order direction hkey horder hdirection
    have hcall := (hreflects.resolve?_eq_some_iff key call).mpr hlast
    exact (Sorts.sorted hkey horder hcall hdirection).bindSorting_eq

/-- A key that is registered again keeps its place and changes its meaning. -/
theorem sorting_of_registrations_again :
    let byName : VariableInstance.Call := .orderBy (.column .name)
    let byTenant : VariableInstance.Call := .orderBy (.column .tenantId)
    let byType : VariableInstance.Call := .orderBy (.special .variableType)
    let registrations := [("name", byName), ("tenant", byTenant), ("name", byType)]
    let spec : QuerySpec VariableInstance.Call :=
      { VariableInstance.spec with sorting := .ofList registrations }
    spec.sorting.keys = ["name", "tenant"] ∧
      SortTable.LastRegistered registrations "name" byType ∧
      spec.bindSorting ⟨.empty, none, none, some "name", some "desc"⟩
        = ⟨[byType, .direction .desc], .ok ()⟩ := by
  intro byName byTenant byType registrations spec
  have hlast : SortTable.LastRegistered registrations "name" byType :=
    ⟨[("name", byName), ("tenant", byTenant)], [], rfl, List.not_mem_nil⟩
  have hspec : spec.sorting = .ofList registrations := rfl
  obtain ⟨-, -, -, hsorted⟩ := sorting_of_registrations hspec
  exact ⟨by decide, hlast, hsorted _ _ hlast _ _ .desc rfl rfl rfl⟩

end CaseGateway.QuerySpec
