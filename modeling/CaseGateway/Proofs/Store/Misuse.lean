/-
Misuse of the ordering calls.

Sort keys and directions have to alternate, beginning with a key and ending with a
direction.  A selection that is not misused accounts for the ordering calls made so far:
they are those of its orderings, and the one of the key that still waits.  One call either
keeps the account or misuses the query, and what is misused once is misused for good.  So
the state of a query, however it came about, tells of which form its ordering calls were.

The specifications name a sort key at most once, directly before its direction.
-/
import CaseGateway.Proofs.Store.Listing
import CaseGateway.Proofs.Store.Sorting

namespace CaseGateway

variable {ρ χ ε κ α : Type}

theorem OrderingMisuse.kind_error (misuse : OrderingMisuse) :
    misuse.error.kind = .badUserRequest := by
  cases misuse
  · rfl
  · rfl

namespace Selection

variable {s : Selection χ ε κ} {calls later : List (QueryCall χ ε κ)}

/-- The ordering calls that a selection accounts for. -/
def ordering (s : Selection χ ε κ) : List (QueryCall χ ε κ) :=
  s.orderings.flatMap orderingCalls ++ s.pending.toList.map .orderBy

theorem ordering_of_pending_none (h : s.pending = none) :
    s.ordering = s.orderings.flatMap orderingCalls := by
  simp [ordering, h]

theorem ordering_of_pending_some {key : SortKey χ κ} (h : s.pending = some key) :
    s.ordering = s.orderings.flatMap orderingCalls ++ [.orderBy key] := by
  simp [ordering, h]

/-- A call that misuses nothing was made on a selection that was not misused, and is accounted
for. -/
theorem call_ordering {c : QueryCall χ ε κ} (h : (s.call c).misuse = none) :
    s.misuse = none ∧ (s.call c).ordering = s.ordering ++ [c].filter QueryCall.isOrdering := by
  obtain ⟨conditions, orderings, pending, misuse, binaryFetching⟩ := s
  cases c with
  | condition c | disableBinaryFetching | disableObjectDeserialization =>
      exact ⟨h, (List.append_nil _).symm⟩
  | orderBy key =>
      cases pending with
      | none => exact ⟨h, by simp [call, ordering, List.filter_cons, QueryCall.isOrdering]⟩
      | some waiting => cases h
  | direction order =>
      cases pending with
      | none => cases h
      | some key => exact ⟨h, by simp [call, ordering, orderingCalls, List.filter_cons,
        QueryCall.isOrdering]⟩

/-- The same of any number of calls. -/
theorem foldl_call_ordering (calls : List (QueryCall χ ε κ)) :
    ∀ s : Selection χ ε κ, (calls.foldl call s).misuse = none →
      s.misuse = none ∧
        (calls.foldl call s).ordering = s.ordering ++ calls.filter QueryCall.isOrdering := by
  induction calls with
  | nil => exact fun s h => ⟨h, (List.append_nil _).symm⟩
  | cons c calls ih =>
      intro s h
      obtain ⟨hcall, hordering⟩ := ih (s.call c) h
      obtain ⟨hs, hc⟩ := call_ordering hcall
      refine ⟨hs, ?_⟩
      rw [List.foldl_cons, hordering, hc, List.append_assoc, ← List.filter_append]
      rfl

theorem ofCalls_ordering (h : (ofCalls calls).misuse = none) :
    (ofCalls calls).ordering = calls.filter QueryCall.isOrdering :=
  (foldl_call_ordering calls all h).2

/-- What is misused stays misused. -/
theorem misuse_of_append (h : (ofCalls (calls ++ later)).misuse = none) :
    (ofCalls calls).misuse = none := by
  refine (foldl_call_ordering later (ofCalls calls) ?_).1
  rw [ofCalls, ← List.foldl_append]
  exact h

/-- If nothing is misused and no key waits, each key was given its direction. -/
theorem paired_of_fault?_eq_none (h : (ofCalls calls).fault? = none) :
    calls.filter QueryCall.isOrdering = (ofCalls calls).orderings.flatMap orderingCalls := by
  obtain ⟨hmisuse, hpending⟩ := Option.or_eq_none_iff.mp h
  rw [← ofCalls_ordering hmisuse, ordering_of_pending_none (Option.map_eq_none_iff.mp hpending)]

/-- A query that has to be refused, though nothing is misused, has a key that waits. -/
theorem waiting_of_fault? (hfault : (ofCalls calls).fault? ≠ none)
    (hmisuse : (ofCalls calls).misuse = none) :
    ∃ key, calls.filter QueryCall.isOrdering
      = (ofCalls calls).orderings.flatMap orderingCalls ++ [.orderBy key] := by
  cases hpending : (ofCalls calls).pending with
  | none => exact absurd (by rw [fault?, hmisuse, hpending]; rfl) hfault
  | some key => exact ⟨key, by rw [← ofCalls_ordering hmisuse, ordering_of_pending_some hpending]⟩

end Selection

section Queryable

variable [Queryable ρ χ ε κ]

/-- However the query is run, it is refused as a bad request, and for the same reason. -/
def Store.Refuses (stored : List ρ) (calls : List (QueryCall χ ε κ)) : Prop :=
  ∃ e : EngineError, e.kind = .badUserRequest ∧
    ∀ {α : Type} (execution : Execution ρ α), Store.query stored calls execution = .error e

theorem Store.refuses_of_fault? {calls : List (QueryCall χ ε κ)}
    (h : (Selection.ofCalls calls).fault? ≠ none) (stored : List ρ) :
    Store.Refuses stored calls := by
  obtain ⟨misuse, hmisuse⟩ := Option.ne_none_iff_exists'.mp h
  refine ⟨misuse.error, misuse.kind_error, fun execution => ?_⟩
  unfold Store.query Selection.run
  rw [hmisuse]
  rfl

/-- The calls of a regular specification are never a misuse. -/
theorem QuerySpec.Binds.paired {spec : QuerySpec (QueryCall χ ε κ)} {ps : Parameters}
    {calls : List (QueryCall χ ε κ)} (h : spec.Binds ps calls (.ok ())) (hspec : spec.Regular) :
    ∃ os : List (SortKey χ κ × SortOrder),
      calls.filter QueryCall.isOrdering = os.flatMap Selection.orderingCalls := by
  cases h with
  | complete hfilters hsorting =>
      obtain ⟨cs, rfl⟩ := hfilters.areConditions hspec.filters
      obtain ⟨os, rfl⟩ := hsorting.areOrderings hspec
      have hconditions : (cs.map .condition).filter QueryCall.isOrdering
          = ([] : List (QueryCall χ ε κ)) := by
        simp [QueryCall.isOrdering]
      have horderings : (os.flatMap Selection.orderingCalls).filter QueryCall.isOrdering
          = (os.flatMap Selection.orderingCalls : List (QueryCall χ ε κ)) := by
        rw [List.filter_flatMap]
        rfl
      exact ⟨os, by rw [List.filter_append, hconditions, horderings, List.nil_append]⟩

/-- What a regular specification accepts is run on the selected rows. -/
theorem Store.query_of_binds {spec : QuerySpec (QueryCall χ ε κ)} (hspec : spec.Regular)
    {ps : Parameters} {calls : List (QueryCall χ ε κ)} (h : spec.Binds ps calls (.ok ()))
    (stored : List ρ) :
    ∃ rows, ∀ {α : Type} (execution : Execution ρ α),
      Store.query stored calls execution = execution.result rows := by
  obtain ⟨os, hos⟩ := h.paired hspec
  exact ⟨_, Store.query_ofCalls hos stored⟩

end Queryable

/-- The same of the store's own collections. -/
theorem Store.runQuery_of_binds {γ : Type} (c : Collection γ ρ) (s : Store) {ps : Parameters}
    {calls : List γ} (h : c.spec.Binds ps calls (.ok ())) :
    ∃ rows, ∀ {α : Type} (execution : Execution ρ α),
      Store.runQuery c calls execution s = execution.result rows := by
  cases c with
  | instances => exact query_of_binds VariableInstance.spec_regular h s.instances
  | historic => exact query_of_binds HistoricVariable.spec_regular h s.historic
  | links => exact query_of_binds IdentityLink.spec_regular h s.links
  | reports => exact query_of_binds CleanableReport.spec_regular h s.reports

/-- **Misuse of the ordering calls is detected exactly.**

Whatever is called on a query and in which order: if each sort key is given its direction
before the next one is named, then every way of running the query yields what it makes of
the selected rows, and these are sorted by just the keys that were named, in their order
and directions.  Otherwise every way of running it fails as a bad request.  Unless it is
only that the last key still waits for its direction, it does so whatever is called
afterwards.  What comes of parameters that a collection's specification accepts is always
run. -/
theorem Store.misuse_detected [Queryable ρ χ ε κ] [RowFields ρ] (stored : List ρ)
    (calls : List (QueryCall χ ε κ)) :
    (∀ os : List (SortKey χ κ × SortOrder),
      calls.filter QueryCall.isOrdering = os.flatMap Selection.orderingCalls →
      ∃ sorted, Arranged os (stored.filter fun row => ∀ call ∈ calls, call.Admits row) sorted ∧
        ∀ {α : Type} (execution : Execution ρ α), Store.query stored calls execution
          = execution.result (if calls.all QueryCall.fetchesBytes then sorted
              else sorted.map (RowFields.mapValue TypedValue.withoutBytes))) ∧
    ((∀ os : List (SortKey χ κ × SortOrder),
      calls.filter QueryCall.isOrdering ≠ os.flatMap Selection.orderingCalls) →
      Store.Refuses stored calls ∧
        ((∀ (os : List (SortKey χ κ × SortOrder)) key, calls.filter QueryCall.isOrdering
            ≠ os.flatMap Selection.orderingCalls ++ [.orderBy key]) →
          ∀ later, Store.Refuses stored (calls ++ later))) ∧
    ∀ {γ ρ' : Type} (c : Collection γ ρ') (ps : Parameters) (s : Store),
      (c.spec.apply ps).outcome = .ok () →
        ∃ rows, ∀ {α : Type} (execution : Execution ρ' α),
          Store.runQuery c (c.spec.apply ps).calls execution s = execution.result rows := by
  refine ⟨fun os hos => ?_, fun hunpaired => ⟨?_, fun hsettled later => ?_⟩, ?_⟩
  · refine ⟨_, Selection.arranged_mergeSort os _, fun execution => ?_⟩
    rw [Store.query_ofCalls hos, Selection.rows_ofCalls hos]
  · refine Store.refuses_of_fault? (fun hfault => ?_) stored
    exact hunpaired _ (Selection.paired_of_fault?_eq_none hfault)
  · have hfault : (Selection.ofCalls calls).fault? ≠ none := fun hfault =>
      hunpaired _ (Selection.paired_of_fault?_eq_none hfault)
    have hmisuse : (Selection.ofCalls calls).misuse ≠ none := by
      intro hmisuse
      obtain ⟨key, hkey⟩ := Selection.waiting_of_fault? hfault hmisuse
      exact hsettled _ key hkey
    refine Store.refuses_of_fault? (fun hlater => ?_) stored
    exact hmisuse (Selection.misuse_of_append (Option.or_eq_none_iff.mp hlater).1)
  · intro γ ρ' c ps s hps
    have hbinds : c.spec.Binds ps (c.spec.apply ps).calls (.ok ()) := by
      rw [QuerySpec.binds_iff, ← hps]
    exact Store.runQuery_of_binds c s hbinds

/-- A direction without a key is noticed however the query goes on, a key without a direction only
when the query is run. -/
theorem Store.misuse_detected_direction :
    let spoilt : List VariableInstance.Call :=
      [.condition (.equals .name "a"), .direction .desc, .orderBy (.column .tenantId)]
    let waiting : List VariableInstance.Call :=
      [.orderBy (.column .tenantId), .condition (.equals .name "a")]
    (∀ later, Store.Refuses ([] : List VariableInstance) (spoilt ++ later)) ∧
      Store.Refuses ([] : List VariableInstance) waiting ∧
      Store.query [VariableInstance.plain "1" "a" .null] (waiting ++ [.direction .asc]) .count
        = .ok 1 := by
  intro spoilt waiting
  have hspoilt : ∀ os : List (SortKey VariableInstance.Column VariableInstance.Key × SortOrder),
      spoilt.filter QueryCall.isOrdering ≠ os.flatMap Selection.orderingCalls := by
    intro os
    cases os with
    | nil => exact List.cons_ne_nil _ _
    | cons o os => simp [spoilt, List.filter_cons, QueryCall.isOrdering, Selection.orderingCalls]
  have hsettled : ∀ (os : List (SortKey VariableInstance.Column VariableInstance.Key × SortOrder))
      key, spoilt.filter QueryCall.isOrdering
        ≠ os.flatMap Selection.orderingCalls ++ [.orderBy key] := by
    intro os key
    cases os with
    | nil => simp [spoilt, List.filter_cons, QueryCall.isOrdering]
    | cons o os => simp [spoilt, List.filter_cons, QueryCall.isOrdering, Selection.orderingCalls]
  have hwaiting : ∀ os : List (SortKey VariableInstance.Column VariableInstance.Key × SortOrder),
      waiting.filter QueryCall.isOrdering ≠ os.flatMap Selection.orderingCalls := by
    intro os
    cases os with
    | nil => exact List.cons_ne_nil _ _
    | cons o os => simp [waiting, List.filter_cons, QueryCall.isOrdering, Selection.orderingCalls]
  obtain ⟨sorted, harranged, hrun⟩ := (Store.misuse_detected [VariableInstance.plain "1" "a" .null]
    (waiting ++ [.direction .asc])).1 [(.column .tenantId, .asc)] rfl
  have hlength : sorted.length = 1 := harranged.perm.length_eq.trans (by cbv)
  refine ⟨((Store.misuse_detected [] spoilt).2.1 hspoilt).2 hsettled,
    ((Store.misuse_detected [] waiting).2.1 hwaiting).1, (hrun .count).trans ?_⟩
  exact congrArg Except.ok hlength

end CaseGateway
