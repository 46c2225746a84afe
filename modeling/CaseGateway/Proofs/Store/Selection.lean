/-
What a query comes to that is driven by a specification.

The calls of the store's specifications are of a regular form: conditions from the
filters, and after them a sort key with its direction, if any.  On a query on which
nothing has been called before, calls of this form are never a misuse, so the query
yields the rows that meet all conditions, each as often as it is stored.

Which conditions these are is then said filter by filter.  A filter admits a row if the
call it makes does; a filter that makes no call admits every row.  A query for a single row
has one condition, and finds the row that meets it if no other one does.
-/
import CaseGateway.Engine.StoreEngine
import CaseGateway.Proofs.Query.Protocol

namespace CaseGateway

variable {γ ρ χ ε κ α : Type}

/-! ### Calls of a regular form -/

namespace Selection

/-- The calls that name a sort key and give it its direction. -/
def orderingCalls (o : SortKey χ κ × SortOrder) : List (QueryCall χ ε κ) :=
  [.orderBy o.1, .direction o.2]

theorem foldl_conditions (cs : List (Condition χ ε)) :
    ∀ s : Selection χ ε κ, (cs.map .condition).foldl call s
      = { s with conditions := s.conditions ++ cs } := by
  induction cs with
  | nil => intro s; simp
  | cons c cs ih =>
      intro s
      rw [List.map_cons, List.foldl_cons, ih]
      simp [call]

theorem foldl_orderings (os : List (SortKey χ κ × SortOrder)) :
    ∀ s : Selection χ ε κ, s.pending = none →
      (os.flatMap orderingCalls).foldl call s = { s with orderings := s.orderings ++ os } := by
  induction os with
  | nil => intro s _; simp
  | cons o os ih =>
      intro s hs
      have hcalls : (orderingCalls o).foldl call s
          = { s with orderings := s.orderings ++ [o] } := by
        obtain ⟨conditions, orderings, pending, misuse, binaryFetching⟩ := s
        cases hs
        rfl
      rw [List.flatMap_cons, List.foldl_append, hcalls, ih]
      · simp
      · exact hs

/-- Conditions and completed orderings are gathered, and nothing is misused. -/
theorem ofCalls_regular (cs : List (Condition χ ε)) (os : List (SortKey χ κ × SortOrder)) :
    ofCalls (cs.map .condition ++ os.flatMap orderingCalls)
      = { (all : Selection χ ε κ) with conditions := cs, orderings := os } := by
  unfold ofCalls
  rw [List.foldl_append, foldl_conditions, foldl_orderings _ _ rfl]
  rfl

/-- Sorting loses no row and makes none. -/
theorem rows_perm [Queryable ρ χ ε κ] {s : Selection χ ε κ} (hs : s.binaryFetching = true)
    (stored : List ρ) :
    (s.rows stored).Perm (stored.filter fun row => s.conditions.all fun c => c.holds row) := by
  unfold rows
  rw [if_pos hs]
  exact List.mergeSort_perm _ _

/-- Without orderings the rows stay in the order in which they are stored. -/
theorem rows_unordered [Queryable ρ χ ε κ] {s : Selection χ ε κ}
    (hos : s.orderings = []) (hbytes : s.binaryFetching = false) (stored : List ρ) :
    s.rows stored
      = (stored.filter fun row => s.conditions.all fun c => c.holds row).map
          Queryable.withoutBytes := by
  have hsorted : ∀ matching : List ρ,
      (matching.mergeSort fun a b => (compareRows s.orderings a b).isLE) = matching := by
    intro matching
    rw [hos]
    exact List.mergeSort_of_pairwise (List.pairwise_of_forall fun _ _ => rfl)
  simp only [rows, hsorted, hbytes, Bool.false_eq_true, if_false]

end Selection

/-! ### Regular specifications -/

/-- A setter whose calls are conditions. -/
def FilterSetter.SetsCondition : FilterSetter (QueryCall χ ε κ) → Prop
  | .text call => ∀ s, ∃ c, call s = .condition c
  | .list call => ∀ ss, ∃ c, call ss = .condition c
  | .flag call => ∃ c, call = .condition c
  | .date call => ∀ t, ∃ c, call t = .condition c
  | .paired _ _ call => ∀ s t, ∃ c, call s t = .condition c

/-- A specification of which every call is of the kind that its place is for. -/
structure QuerySpec.Regular (spec : QuerySpec (QueryCall χ ε κ)) : Prop where
  filters : ∀ f ∈ spec.filters, f.setter.SetsCondition
  sorting : ∀ e ∈ spec.sorting.entries, ∃ key, e.2 = .orderBy key
  direction : ∀ order, spec.direction order = .direction order

theorem Filter.Makes.isCondition {ps : Parameters} {f : Filter (QueryCall χ ε κ)}
    {call : QueryCall χ ε κ} (h : f.Makes ps call) (hf : f.setter.SetsCondition) :
    ∃ c, call = .condition c := by
  cases h with
  | text _ _ | list _ _ _ | date _ _ => exact hf _
  | flag _ _ => exact hf
  | paired _ _ _ _ => exact hf _ _

namespace QuerySpec

variable {spec : QuerySpec (QueryCall χ ε κ)} {ps : Parameters}
  {calls sorting : List (QueryCall χ ε κ)}

theorem Bound.areConditions {fs : List (Filter (QueryCall χ ε κ))} (h : Bound ps fs calls)
    (hfs : ∀ f ∈ fs, f.setter.SetsCondition) :
    ∃ cs : List (Condition χ ε), calls = cs.map .condition := by
  induction h with
  | nil => exact ⟨[], rfl⟩
  | makes h _ ih =>
      obtain ⟨c, rfl⟩ := h.isCondition (hfs _ List.mem_cons_self)
      obtain ⟨cs, rfl⟩ := ih fun f hf => hfs f (List.mem_cons_of_mem _ hf)
      exact ⟨c :: cs, rfl⟩
  | idle _ _ ih => exact ih fun f hf => hfs f (List.mem_cons_of_mem _ hf)

theorem Sorts.areOrderings (h : spec.Sorts ps sorting) (hspec : spec.Regular) :
    ∃ os : List (SortKey χ κ × SortOrder), sorting = os.flatMap Selection.orderingCalls := by
  cases h with
  | unsorted _ _ => exact ⟨[], rfl⟩
  | @sorted key order call direction _ _ hcall _ =>
      obtain ⟨e, he, rfl⟩ := Option.map_eq_some_iff.mp hcall
      obtain ⟨k, hk⟩ := hspec.sorting e (List.mem_of_find?_eq_some he)
      rw [hk, hspec.direction]
      exact ⟨[(k, direction)], rfl⟩

end QuerySpec

/-! ### Rows that filters admit -/

section Queryable

variable [Queryable ρ χ ε κ]

/-- Whether a call leaves a row in the listing. -/
def QueryCall.Admits (row : ρ) : QueryCall χ ε κ → Prop
  | .condition c => c.holds row = true
  | _ => True

/-- Whether the call of a filter, if it makes one, leaves a row in the listing. -/
def Filter.Admits (ps : Parameters) (f : Filter (QueryCall χ ε κ)) (row : ρ) : Prop :=
  ∀ call, f.Makes ps call → call.Admits row

theorem QuerySpec.Bound.admits_iff {ps : Parameters} {fs : List (Filter (QueryCall χ ε κ))}
    {calls : List (QueryCall χ ε κ)} (h : Bound ps fs calls) (row : ρ) :
    (∀ call ∈ calls, call.Admits row) ↔ ∀ f ∈ fs, f.Admits ps row := by
  induction h with
  | nil => simp
  | @makes f fs call calls h _ ih =>
      have honly : f.Admits ps row ↔ call.Admits row := by
        refine ⟨fun hf => hf call h, fun hcall call' h' => ?_⟩
        obtain rfl : call = call' :=
          Option.some.inj (Except.ok.inj (h.bind_eq.symm.trans h'.bind_eq))
        exact hcall
      rw [List.forall_mem_cons, List.forall_mem_cons, honly, ih]
  | @idle f fs calls h _ ih =>
      have hidle : f.Admits ps row := by
        intro call h'
        cases h.bind_eq.symm.trans h'.bind_eq
      rw [List.forall_mem_cons, ih]
      exact ⟨fun hfs => ⟨hidle, hfs⟩, fun hfs => hfs.2⟩

/-- **A listing holds the rows that every filter admits, each as often as it is stored.** -/
theorem Store.query_list_perm {spec : QuerySpec (QueryCall χ ε κ)} (hspec : spec.Regular)
    {ps : Parameters} {calls : List (QueryCall χ ε κ)} (h : spec.Binds ps calls (.ok ()))
    (stored : List ρ) {p : ρ → Bool}
    (hp : ∀ row, p row = true ↔ ∀ f ∈ spec.filters, f.Admits ps row) :
    ∃ rows, Store.query stored calls .list = .ok rows ∧ rows.Perm (stored.filter p) := by
  cases h with
  | complete hfilters hsorting =>
      obtain ⟨cs, rfl⟩ := hfilters.areConditions hspec.filters
      obtain ⟨os, rfl⟩ := hsorting.areOrderings hspec
      unfold Store.query
      rw [Selection.ofCalls_regular]
      refine ⟨_, rfl, (Selection.rows_perm rfl stored).trans (.of_eq (List.filter_congr ?_))⟩
      intro row _
      rw [Bool.eq_iff_iff, hp, ← hfilters.admits_iff row]
      simp [QueryCall.Admits]

/-- A row is found by a condition that it meets and no other row does. -/
theorem Store.query_single {stored : List ρ} {row : ρ} {c : Condition χ ε} (hrow : row ∈ stored)
    (hholds : c.holds row) (hsole : stored.countP c.holds = 1) :
    Store.query stored [.condition c, .disableObjectDeserialization] .single = .ok (some row) := by
  have hfilter : stored.filter c.holds = [row] := by
    rw [List.countP_eq_length_filter, List.length_eq_one_iff] at hsole
    obtain ⟨other, hother⟩ := hsole
    have hmem : row ∈ stored.filter c.holds := List.mem_filter.mpr ⟨hrow, hholds⟩
    rw [hother, List.mem_singleton] at hmem
    rw [hother, hmem]
  let chosen := { (Selection.all : Selection χ ε κ) with conditions := [c] }
  have hcalls : Selection.ofCalls [.condition c, .disableObjectDeserialization] = chosen := rfl
  have hrows : chosen.rows stored = [row] := by
    rw [← List.perm_singleton, ← hfilter]
    refine (Selection.rows_perm rfl stored).trans (.of_eq (List.filter_congr fun other _ => ?_))
    simp [chosen]
  have hrun : chosen.run stored = .ok [row] := congrArg Except.ok hrows
  unfold Store.query
  rw [hcalls, hrun]
  rfl

end Queryable

end CaseGateway
