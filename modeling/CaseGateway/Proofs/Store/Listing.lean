/-
Listings hold what their parameters describe.

For each kind of row `DescribedBy` says, parameter by parameter, what is asked of a row:
which field a parameter is about, and whether the field has to hold the text, one of the
texts, or something like it.  It speaks of the fields of the rows and not of columns or
calls, and it says nothing of parameters that are not declared.

Each line is matched with the filter that is declared for it by one lemma for each way in
which a filter can be about a field, so the tables of filters are gone through once, in
the four `describedBy_iff`.
-/
import CaseGateway.Proofs.Query.Meaning
import CaseGateway.Proofs.Store.Selection
import CaseGateway.Proofs.Text.Like
import CaseGateway.Proofs.Timestamp.Order

namespace CaseGateway

/-! ### What parameters ask of fields -/

namespace Parameters

/-- If the parameter is given, the field is there and holds its text. -/
def Equals (ps : Parameters) (name : String) (field : Option String) : Prop :=
  ∀ s, ps.Spells name s → field = some s

/-- If the parameter is given and has items, the field is there and holds one of them. -/
def OneOf (ps : Parameters) (name : String) (field : Option String) : Prop :=
  ∀ items, ps.Lists name items → items ≠ [] → ∃ s ∈ items, field = some s

/-- If the parameter is given, the text is like its pattern. -/
def Resembles (ps : Parameters) (name : String) (text : String) : Prop :=
  ∀ pattern, ps.Spells name pattern → Like.Matches pattern.toList text.toList

/-- If the parameter is given, its time is met by a time of the row. -/
def Bounds (ps : Parameters) (name : String) (meets : Timestamp → Prop) : Prop :=
  ∀ t, ps.SpellsTime name t → meets t

/-- If the parameter is given and true, something holds of the row. -/
def Demands (ps : Parameters) (name : String) (holds : Prop) : Prop :=
  ps.Spells name "true" → holds

section

variable {ps ps' : Parameters} {name : String} {field : Option String} {text : String}
  {meets : Timestamp → Prop} {holds : Prop}

/-- What is asked under a name depends on the parameter of that name alone. -/
theorem spells_congr (h : ps'.get? name = ps.get? name) {s : String} :
    ps'.Spells name s ↔ ps.Spells name s := by
  unfold Spells
  rw [h]

theorem Equals.congr (h : ps'.get? name = ps.get? name) (hfield : ps.Equals name field) :
    ps'.Equals name field := fun s hs => hfield s ((spells_congr h).mp hs)

theorem OneOf.congr (h : ps'.get? name = ps.get? name) (hfield : ps.OneOf name field) :
    ps'.OneOf name field := by
  unfold OneOf Lists
  rw [h]
  exact hfield

theorem Resembles.congr (h : ps'.get? name = ps.get? name) (htext : ps.Resembles name text) :
    ps'.Resembles name text := fun pattern hs => htext pattern ((spells_congr h).mp hs)

/-- Nothing is asked under a name without a parameter. -/
theorem not_spells (h : ps.get? name = none) (s : String) : ¬ps.Spells name s := by
  rintro ⟨p, hp, -⟩
  rw [h] at hp
  cases hp

theorem not_lists (h : ps.get? name = none) (items : List String) : ¬ps.Lists name items := by
  rintro ⟨p, hp, -⟩
  rw [h] at hp
  cases hp

instance : Decidable (ps.Equals name field) :=
  decidable_of_iff (∀ s ∈ ps.text? name, field = some s)
    (forall_congr' fun _ => imp_congr_left spells_iff.symm)

instance : Decidable (ps.OneOf name field) :=
  decidable_of_iff (∀ items ∈ ps.items? name, items ≠ [] → ∃ s ∈ items, field = some s)
    (forall_congr' fun _ => imp_congr_left lists_iff.symm)

instance : Decidable (ps.Resembles name text) :=
  decidable_of_iff (∀ pattern ∈ ps.text? name, Like.Matches pattern.toList text.toList)
    (forall_congr' fun _ => imp_congr_left spells_iff.symm)

instance [DecidablePred meets] : Decidable (ps.Bounds name meets) :=
  decidable_of_iff (∀ t ∈ ps.time? name, meets t)
    (forall_congr' fun _ => imp_congr_left spellsTime_iff.symm)

instance [Decidable holds] : Decidable (ps.Demands name holds) :=
  decidable_of_iff ("true" ∈ ps.text? name → holds) (imp_congr_left spells_iff.symm)

end

end Parameters

/-- What parameters ask of a variable. -/
def VariableInstance.DescribedBy (ps : Parameters) (v : VariableInstance) : Prop :=
  ps.Equals "variableName" v.name ∧
    ps.Resembles "variableNameLike" v.name ∧
    ps.OneOf "processInstanceIdIn" v.processInstanceId ∧
    ps.OneOf "executionIdIn" v.executionId ∧
    ps.OneOf "caseInstanceIdIn" v.caseInstanceId ∧
    ps.OneOf "caseExecutionIdIn" v.caseExecutionId ∧
    ps.OneOf "taskIdIn" v.taskId ∧
    ps.OneOf "activityInstanceIdIn" v.activityInstanceId ∧
    ps.OneOf "tenantIdIn" v.tenantId

/-- If a value is asked for, and a name with it, the variable has the name and is found by the text
of the value. -/
def HistoricVariable.HasValue (ps : Parameters) (v : HistoricVariable) : Prop :=
  ∀ text, ps.Spells "variableValue" text → ∀ name, ps.Spells "variableName" name →
    v.name = name ∧ v.value.FoundBy text

instance (ps : Parameters) (v : HistoricVariable) : Decidable (v.HasValue ps) :=
  decidable_of_iff (∀ text ∈ ps.text? "variableValue", ∀ name ∈ ps.text? "variableName",
      v.name = name ∧ v.value.rendersAs text)
    (forall_congr' fun _ => imp_congr Parameters.spells_iff.symm <|
      forall_congr' fun _ => imp_congr Parameters.spells_iff.symm <|
        and_congr_right fun _ => TypedValue.foundBy_iff.symm)

/-- What parameters ask of a historic variable. -/
def HistoricVariable.DescribedBy (ps : Parameters) (v : HistoricVariable) : Prop :=
  ps.Equals "processInstanceId" v.processInstanceId ∧
    ps.Equals "processDefinitionId" v.processDefinitionId ∧
    ps.OneOf "executionIdIn" v.executionId ∧
    ps.OneOf "taskIdIn" v.taskId ∧
    ps.OneOf "activityInstanceIdIn" v.activityInstanceId ∧
    ps.Equals "caseInstanceId" v.caseInstanceId ∧
    ps.Equals "variableName" v.name ∧
    ps.Resembles "variableNameLike" v.name ∧
    v.HasValue ps ∧
    ps.OneOf "tenantIdIn" v.tenantId

/-- What parameters ask of an entry of the log. -/
def IdentityLink.DescribedBy (ps : Parameters) (l : IdentityLink) : Prop :=
  ps.Equals "type" l.type ∧
    ps.Equals "userId" l.userId ∧
    ps.Equals "groupId" l.groupId ∧
    ps.Bounds "dateBefore" (fun bound => l.time.NotAfter bound) ∧
    ps.Bounds "dateAfter" (fun bound => bound.NotAfter l.time) ∧
    ps.Equals "assignerId" l.assignerId ∧
    ps.Equals "taskId" l.taskId ∧
    ps.Equals "processDefinitionId" l.processDefinitionId ∧
    ps.Equals "processDefinitionKey" l.processDefinitionKey ∧
    ps.Equals "operationType" l.operationType ∧
    ps.OneOf "tenantIdIn" l.tenantId

/-- What parameters ask of a row of the report. -/
def CleanableReport.DescribedBy (ps : Parameters) (r : CleanableReport) : Prop :=
  ps.OneOf "processDefinitionIdIn" r.processDefinitionId ∧
    ps.OneOf "processDefinitionKeyIn" r.processDefinitionKey ∧
    ps.OneOf "tenantIdIn" r.tenantId ∧
    ps.Demands "withoutTenantId" (r.tenantId = none) ∧
    ps.Demands "compact" (0 < r.finished.val)

instance (ps : Parameters) (v : VariableInstance) : Decidable (v.DescribedBy ps) :=
  inferInstanceAs (Decidable (_ ∧ _))

instance (ps : Parameters) (v : HistoricVariable) : Decidable (v.DescribedBy ps) :=
  inferInstanceAs (Decidable (_ ∧ _))

instance (ps : Parameters) (l : IdentityLink) : Decidable (l.DescribedBy ps) :=
  inferInstanceAs (Decidable (_ ∧ _))

instance (ps : Parameters) (r : CleanableReport) : Decidable (r.DescribedBy ps) :=
  inferInstanceAs (Decidable (_ ∧ _))

/-! ### What filters admit -/

namespace Filter

variable {ρ χ ε κ : Type} [Queryable ρ χ ε κ] {ps : Parameters} {name : String} {row : ρ}

theorem admits_text {call : String → QueryCall χ ε κ} :
    Filter.Admits ps ⟨name, .text call⟩ row ↔ ∀ s, ps.Spells name s → (call s).Admits row := by
  constructor
  · rintro h s ⟨p, hp, hs⟩
    exact h _ (.text hp (Parameter.spells_iff.mp hs))
  · intro h call hcall
    cases hcall with
    | text hp hs => exact h _ ⟨_, hp, Parameter.spells_iff.mpr hs⟩

theorem admits_list {call : List String → QueryCall χ ε κ} :
    Filter.Admits ps ⟨name, .list call⟩ row ↔
      ∀ items, ps.Lists name items → items ≠ [] → (call items).Admits row := by
  constructor
  · rintro h items ⟨p, hp, hitems⟩ hne
    exact h _ (.list hp (Parameter.lists_iff.mp hitems) hne)
  · intro h call hcall
    cases hcall with
    | list hp hitems hne => exact h _ ⟨_, hp, Parameter.lists_iff.mpr hitems⟩ hne

theorem admits_flag {call : QueryCall χ ε κ} :
    Filter.Admits ps ⟨name, .flag call⟩ row ↔ ps.Demands name (call.Admits row) := by
  constructor
  · rintro h ⟨p, hp, htrue⟩
    exact h _ (.flag hp (Parameter.spells_true_iff.mp htrue))
  · intro h call hcall
    cases hcall with
    | flag hp hb => exact h ⟨_, hp, Parameter.spells_true_iff.mpr hb⟩

theorem admits_date {call : Timestamp → QueryCall χ ε κ} :
    Filter.Admits ps ⟨name, .date call⟩ row ↔ ps.Bounds name fun t => (call t).Admits row := by
  constructor
  · rintro h t ⟨s, ⟨p, hp, hs⟩, ht⟩
    exact h _ (.date hp (Parameter.toTimestamp?_eq_some_iff.mpr ⟨s, hs, ht⟩))
  · intro h call hcall
    cases hcall with
    | date hp ht =>
        obtain ⟨s, hs, ht⟩ := Parameter.toTimestamp?_eq_some_iff.mp ht
        exact h _ ⟨s, ⟨_, hp, hs⟩, ht⟩

theorem admits_paired {partner message : String} {call : String → String → QueryCall χ ε κ} :
    Filter.Admits ps ⟨name, .paired partner message call⟩ row ↔
      ∀ second, ps.Spells name second → ∀ first, ps.Spells partner first →
        (call first second).Admits row := by
  constructor
  · rintro h second ⟨p, hp, hsecond⟩ first ⟨other, hother, hfirst⟩
    exact h _ (.paired hp hother (Parameter.spells_iff.mp hfirst)
      (Parameter.spells_iff.mp hsecond))
  · intro h call hcall
    cases hcall with
    | paired hp hother hfirst hsecond =>
        exact h _ ⟨_, hp, Parameter.spells_iff.mpr hsecond⟩ _
          ⟨_, hother, Parameter.spells_iff.mpr hfirst⟩

theorem admits_equals {c : χ} :
    Filter.Admits ps ⟨name, .text fun s => .condition (.equals c s)⟩ row ↔
      ps.Equals name (Queryable.column row c) := by
  rw [admits_text]
  simp [QueryCall.Admits, Condition.holds, Parameters.Equals]

theorem admits_oneOf {c : χ} :
    Filter.Admits ps ⟨name, .list fun ss => .condition (.oneOf c ss)⟩ row ↔
      ps.OneOf name (Queryable.column row c) := by
  rw [admits_list]
  refine forall_congr' fun items => forall_congr' fun _ => forall_congr' fun _ => ?_
  cases hcolumn : Queryable.column row c with
  | none => simp [QueryCall.Admits, Condition.holds, hcolumn]
  | some s => simp [QueryCall.Admits, Condition.holds, hcolumn]

/-- The name of a row is always there. -/
theorem admits_like {c : χ} {text : String} (hcolumn : Queryable.column row c = some text) :
    Filter.Admits ps ⟨name, .text fun s => .condition (.like c s)⟩ row
      ↔ ps.Resembles name text := by
  rw [admits_text]
  simp [QueryCall.Admits, Condition.holds, hcolumn, like_iff, Parameters.Resembles]

end Filter

/-! ### The four tables -/

theorem VariableInstance.describedBy_iff (ps : Parameters) (v : VariableInstance) :
    (∀ f ∈ spec.filters, f.Admits ps v) ↔ v.DescribedBy ps := by
  have hname : Queryable.column v Column.name = some v.name := rfl
  simp only [spec, List.forall_mem_cons, List.not_mem_nil, false_imp_iff, implies_true, and_true,
    Filter.admits_equals, Filter.admits_oneOf, Filter.admits_like hname]
  rfl

theorem HistoricVariable.describedBy_iff (ps : Parameters) (v : HistoricVariable) :
    (∀ f ∈ spec.filters, f.Admits ps v) ↔ v.DescribedBy ps := by
  have hname : Queryable.column v Column.name = some v.name := rfl
  have hvalue : ∀ name text,
      (QueryCall.condition (.special (.valueEquals name text)) : Call).Admits v
        ↔ v.name = name ∧ v.value.FoundBy text := by
    intro name text
    simp [QueryCall.Admits, Condition.holds, Queryable.satisfies, TypedValue.foundBy_iff]
  simp only [spec, List.forall_mem_cons, List.not_mem_nil, false_imp_iff, implies_true, and_true,
    Filter.admits_equals, Filter.admits_oneOf, Filter.admits_like hname, Filter.admits_paired,
    hvalue]
  rfl

theorem IdentityLink.describedBy_iff (ps : Parameters) (l : IdentityLink) :
    (∀ f ∈ spec.filters, f.Admits ps l) ↔ l.DescribedBy ps := by
  have hbefore : ∀ t, (QueryCall.condition (.special (.notAfter t)) : Call).Admits l
      ↔ l.time.NotAfter t := fun t => Timestamp.isLE_compare_iff l.time t
  have hafter : ∀ t, (QueryCall.condition (.special (.notBefore t)) : Call).Admits l
      ↔ t.NotAfter l.time := fun t => Timestamp.isGE_compare_iff l.time t
  simp only [spec, List.forall_mem_cons, List.not_mem_nil, false_imp_iff, implies_true, and_true,
    Filter.admits_equals, Filter.admits_oneOf, Filter.admits_date, hbefore, hafter]
  rfl

theorem CleanableReport.describedBy_iff (ps : Parameters) (r : CleanableReport) :
    (∀ f ∈ spec.filters, f.Admits ps r) ↔ r.DescribedBy ps := by
  have htenant : (QueryCall.condition (.special .withoutTenant) : Call).Admits r
      ↔ r.tenantId = none := by
    simp [QueryCall.Admits, Condition.holds, Queryable.satisfies]
  have hcompact : (QueryCall.condition (.special .compact) : Call).Admits r
      ↔ 0 < r.finished.val := by
    simp [QueryCall.Admits, Condition.holds, Queryable.satisfies]
  simp only [spec, List.forall_mem_cons, List.not_mem_nil, false_imp_iff, implies_true, and_true,
    Filter.admits_oneOf, Filter.admits_flag, htenant, hcompact]
  rfl

theorem VariableInstance.spec_regular : spec.Regular where
  filters := by simp [spec, FilterSetter.SetsCondition]
  sorting := by simp [spec, SortTable.ofList, SortTable.register, SortTable.registerEntry,
    SortTable.empty]
  direction _ := rfl

theorem HistoricVariable.spec_regular : spec.Regular where
  filters := by simp [spec, FilterSetter.SetsCondition]
  sorting := by simp [spec, SortTable.ofList, SortTable.register, SortTable.registerEntry,
    SortTable.empty]
  direction _ := rfl

theorem IdentityLink.spec_regular : spec.Regular where
  filters := by simp [spec, FilterSetter.SetsCondition]
  sorting := by simp [spec, SortTable.ofList, SortTable.register, SortTable.registerEntry,
    SortTable.empty]
  direction _ := rfl

theorem CleanableReport.spec_regular : spec.Regular where
  filters := by simp [spec, FilterSetter.SetsCondition]
  sorting := by simp [spec, SortTable.empty]
  direction _ := rfl

/-! ### Listings -/

namespace Collection

variable {γ ρ : Type}

/-- What parameters ask of a row of a collection. -/
def Describes : Collection γ ρ → Parameters → ρ → Prop
  | .instances, ps, v => v.DescribedBy ps
  | .historic, ps, v => v.DescribedBy ps
  | .links, ps, l => l.DescribedBy ps
  | .reports, ps, r => r.DescribedBy ps

instance decidableDescribes : (c : Collection γ ρ) → (ps : Parameters) → (row : ρ) →
    Decidable (c.Describes ps row)
  | .instances, ps, v => inferInstanceAs (Decidable (v.DescribedBy ps))
  | .historic, ps, v => inferInstanceAs (Decidable (v.DescribedBy ps))
  | .links, ps, l => inferInstanceAs (Decidable (l.DescribedBy ps))
  | .reports, ps, r => inferInstanceAs (Decidable (r.DescribedBy ps))

/-- A parameter that is a partner has a filter of its own. -/
theorem partner_declared (c : Collection γ ρ) :
    ∀ f ∈ c.spec.filters, ∀ partner ∈ f.setter.partner?, partner ∈ c.spec.filterNames := by
  cases c with
  | instances => simp [spec, VariableInstance.spec, FilterSetter.partner?]
  | historic => simp [spec, HistoricVariable.spec, FilterSetter.partner?, QuerySpec.filterNames]
  | links => simp [spec, IdentityLink.spec, FilterSetter.partner?]
  | reports => simp [spec, CleanableReport.spec, FilterSetter.partner?]

/-- Parameters that are not declared make no difference. -/
theorem apply_congr (c : Collection γ ρ) {ps ps' : Parameters}
    (hdeclared : ∀ name ∈ c.spec.filterNames, ps'.get? name = ps.get? name)
    (hkey : ps'.sortBy = ps.sortBy) (horder : ps'.sortOrder = ps.sortOrder) :
    c.spec.apply ps' = c.spec.apply ps := by
  refine QuerySpec.apply_congr (fun f hf => ?_) hkey horder
  refine QuerySpec.bind_congr (hdeclared _ (List.mem_map_of_mem hf)) fun partner hpartner => ?_
  exact hdeclared _ (c.partner_declared f hf partner hpartner)

end Collection

namespace Store

variable {γ ρ α : Type}

/-- A query of the store on a collection.  Its state are the calls that were made on it. -/
def queryObject (s : Store) (c : Collection γ ρ) : QueryObject γ ρ (List γ) where
  make call calls := calls ++ [call]
  run execution calls := (runQuery c calls execution s, calls)

theorem foldl_make (s : Store) (c : Collection γ ρ) (calls : List γ) :
    ∀ made : List γ, calls.foldl (fun made call => (s.queryObject c).make call made) made
      = made ++ calls := by
  induction calls with
  | nil => intro made; simp
  | cons call calls ih =>
      intro made
      rw [List.foldl_cons, ih]
      simp [queryObject]

theorem carryOut_ok (s : Store) (c : Collection γ ρ) (calls : List γ) (execution : Execution ρ α) :
    ((⟨calls, .ok execution⟩ : Plan γ (Execution ρ α)).carryOut (s.queryObject c) []).1
      = (runQuery c calls execution s).mapError .engine := by
  have hmade := s.foldl_make c calls []
  rw [List.nil_append] at hmade
  simp only [Plan.carryOut, hmade]
  rfl

/-- The rows of a listing that is accepted are those that its parameters describe. -/
theorem runQuery_list_perm (s : Store) (c : Collection γ ρ) {ps : Parameters} {calls : List γ}
    (h : c.spec.Binds ps calls (.ok ())) :
    ∃ rows, runQuery c calls .list s = .ok rows ∧
      rows.Perm ((Store.rows c s).filter fun row => c.Describes ps row) := by
  cases c with
  | instances =>
      refine query_list_perm VariableInstance.spec_regular h s.instances fun v => ?_
      rw [decide_eq_true_iff]
      exact (v.describedBy_iff ps).symm
  | historic =>
      refine query_list_perm HistoricVariable.spec_regular h s.historic fun v => ?_
      rw [decide_eq_true_iff]
      exact (v.describedBy_iff ps).symm
  | links =>
      refine query_list_perm IdentityLink.spec_regular h s.links fun l => ?_
      rw [decide_eq_true_iff]
      exact (l.describedBy_iff ps).symm
  | reports =>
      refine query_list_perm CleanableReport.spec_regular h s.reports fun r => ?_
      rw [decide_eq_true_iff]
      exact (r.describedBy_iff ps).symm

/-- **A listing holds exactly the rows that its parameters describe.**

If the parameters are accepted and ask for no page, the listing succeeds.  Its rows are
the stored rows that meet everything the given parameters ask, each as often as it is
stored, and no other rows.  It does not matter what else is given under names that are
not declared. -/
theorem list_exact (s : Store) (c : Collection γ ρ) (ps : Parameters)
    (haccepted : (c.spec.apply ps).outcome = .ok ())
    (hpaging : ps.firstResult = none ∧ ps.maxResults = none) :
    ∃ rows, ((c.spec.list ps).carryOut (s.queryObject c) []).1 = .ok rows ∧
      rows.Perm ((Store.rows c s).filter fun row => c.Describes ps row) ∧
      ∀ ps' : Parameters, (∀ name ∈ c.spec.filterNames, ps'.get? name = ps.get? name) →
        ps'.sortBy = ps.sortBy → ps'.sortOrder = ps.sortOrder →
        ps'.firstResult = ps.firstResult → ps'.maxResults = ps.maxResults →
        ((c.spec.list ps').carryOut (s.queryObject c) []).1 = .ok rows := by
  obtain ⟨calls, outcome, h⟩ := c.spec.exists_binds ps
  obtain rfl : outcome = .ok () := by rw [← haccepted, h.apply_eq]
  have hlisting : ∀ ps' : Parameters, ps'.firstResult = none → ps'.maxResults = none →
      (QuerySpec.listing ps' : Execution ρ (List ρ)) = .list := by
    intro ps' hfirst hmax
    simp [QuerySpec.listing, Parameters.isPaged, hfirst, hmax]
  obtain ⟨rows, hrun, hperm⟩ := s.runQuery_list_perm c h
  have hlist : ∀ ps' : Parameters, c.spec.Binds ps' calls (.ok ()) → ps'.firstResult = none →
      ps'.maxResults = none →
      ((c.spec.list ps').carryOut (s.queryObject c) []).1 = .ok rows := by
    intro ps' h' hfirst hmax
    rw [h'.list_eq, hlisting ps' hfirst hmax]
    exact (s.carryOut_ok c calls .list).trans (by rw [hrun]; rfl)
  refine ⟨rows, hlist ps h hpaging.1 hpaging.2, hperm, ?_⟩
  intro ps' hdeclared hkey horder hfirst hmax
  have h' : c.spec.Binds ps' calls (.ok ()) := by
    rw [QuerySpec.binds_iff, c.apply_congr hdeclared hkey horder, h.apply_eq]
  exact hlist ps' h' (hfirst.trans hpaging.1) (hmax.trans hpaging.2)

/-- What is asked for by one row alone is found at its place. -/
theorem filter_eq_singleton {asked : ρ → Prop} [DecidablePred asked] {rows : List ρ} {place : Nat}
    {found : ρ} (hplace : rows[place]? = some found) (hfound : asked found)
    (hothers : ∀ row ∈ rows.eraseIdx place, ¬asked row) : rows.filter asked = [found] := by
  obtain ⟨hlt, rfl⟩ := List.getElem?_eq_some_iff.mp hplace
  rw [List.eraseIdx_eq_take_drop_succ, List.forall_mem_append] at hothers
  obtain ⟨hbefore, hafter⟩ := hothers
  have hrows : rows = rows.take place ++ rows[place] :: rows.drop (place + 1) := by
    rw [← List.drop_eq_getElem_cons hlt, List.take_append_drop]
  refine List.filter_eq_cons_iff.mpr ⟨_, _, hrows, ?_, decide_eq_true hfound, ?_⟩
  · simpa using hbefore
  · simpa [List.filter_eq_nil_iff] using hafter

/-- Both bounds on the time are inclusive, and an unknown parameter is of no account.  Of a list
empty items do not count, wherever it comes from, and a list without others is none at all.  A double
is found by any text of its number, an integer by a number as well and a date by its text, but a
string by itself alone, also by a number that is written like it.  A flag that is false asks for
nothing. -/
theorem list_exact_bounds :
    let nine : Timestamp := ⟨2014, 4, 28, 9, 0, 0, 0, by decide⟩
    let ten : Timestamp := ⟨2014, 4, 28, 10, 0, 0, 0, by decide⟩
    let link (id : String) (time : Timestamp) : IdentityLink :=
      ⟨id, time, some "assignee", some "demo", none, none, none, none, some "add", none, none⟩
    let row (id name : String) (task tenant : Option String) : VariableInstance :=
      { VariableInstance.plain id name .null with taskId := task, tenantId := tenant }
    let past (id name : String) (value : TypedValue) : HistoricVariable :=
      ⟨id, name, value, none, none, none, none, none, none, none, none, none, none, none, none,
        "CREATED", none⟩
    let report (id : String) (finished : SizedInt .long) (tenant : Option String) :
        CleanableReport :=
      ⟨id, "key", none, ⟨1, by decide⟩, none, finished, ⟨0, by decide⟩, tenant⟩
    let half := past "h1" "ratio" (.double (some ⟨false, 0x3FE0000000000000, by decide⟩))
    let seven := past "h2" "count" (.integral .short (some ⟨7, by decide⟩))
    let noted := past "h4" "count" (.string (some "7.0"))
    let due := past "h6" "due" (.date (some ten))
    let s : Store :=
      { Store.empty with
        links := [link "l1" nine, link "l2" ten, link "l3" nine]
        instances :=
          [row "v1" "color" (some "t1") (some "a"), row "v2" "cost" none (some "a"),
            row "v3" "color" (some "t3") (some "a"), row "v4" "size" (some "t2") (some "a"),
            row "v5" "cost" (some "t2") (some "c")]
        historic :=
          [half, past "h3" "ratio" (.string (some "0.5")), seven, noted,
            past "h5" "size" seven.value, due, past "h7" "due" (.date (some nine))]
        reports :=
          [report "p1" ⟨0, by decide⟩ none, report "p2" ⟨0, by decide⟩ (some "a"),
            report "p3" ⟨3, by decide⟩ (some "a")] }
    let given (filters : List (String × Parameter)) : Parameters :=
      { Parameters.empty with filters := .ofList filters }
    let dates := given
      [("dateBefore", .text "2014-04-28T10:00:00"), ("dateAfter", .text "2014-04-28T10:00:00"),
        ("userId", .text "demo"), ("color", .text "red")]
    let lists := given
      [("variableNameLike", .text "co%"), ("taskIdIn", .text ",t1,,t2"),
        ("tenantIdIn", .json (.array [.string "a", .string "", .bool true])),
        ("executionIdIn", .text ",")]
    let spelled := given [("variableName", .text "ratio"), ("variableValue", .text "5e-1")]
    let number := given
      [("variableName", .json (.string "count")),
        ("variableValue", .json (.number (.integer 7 (by decide))))]
    let decimal := given
      [("variableName", .text "count"),
        ("variableValue",
          .json (.number (.double ⟨false, 0x401C000000000000, by decide⟩ (by decide))))]
    let timed := given
      [("variableName", .text "due"), ("variableValue", .text "2014-04-28T10:00:00")]
    let tenantless := given [("withoutTenantId", .json (.bool true)), ("compact", .text "false")]
    let compact := given [("withoutTenantId", .json (.bool false)), ("compact", .text "true")]
    ((IdentityLink.spec.list dates).carryOut (s.queryObject .links) []).1 = .ok [link "l2" ten] ∧
      ((VariableInstance.spec.list lists).carryOut (s.queryObject .instances) []).1
        = .ok [row "v1" "color" (some "t1") (some "a")] ∧
      ((HistoricVariable.spec.list spelled).carryOut (s.queryObject .historic) []).1 = .ok [half] ∧
      ((HistoricVariable.spec.list number).carryOut (s.queryObject .historic) []).1 = .ok [seven] ∧
      ((HistoricVariable.spec.list decimal).carryOut (s.queryObject .historic) []).1 = .ok [noted] ∧
      ((HistoricVariable.spec.list timed).carryOut (s.queryObject .historic) []).1 = .ok [due] ∧
      ((CleanableReport.spec.list tenantless).carryOut (s.queryObject .reports) []).1
        = .ok [report "p1" ⟨0, by decide⟩ none] ∧
      ((CleanableReport.spec.list compact).carryOut (s.queryObject .reports) []).1
        = .ok [report "p3" ⟨3, by decide⟩ (some "a")] := by
  intro nine ten link row past report half seven noted due s given dates lists spelled number
    decimal timed tenantless compact
  have honly {γ ρ : Type} (c : Collection γ ρ) (ps : Parameters) (place : Nat) {found : ρ}
      (haccepted : (c.spec.apply ps).outcome = .ok ())
      (hpaging : ps.firstResult = none ∧ ps.maxResults = none)
      (hplace : (Store.rows c s)[place]? = some found) (hfound : c.Describes ps found)
      (hothers : ∀ row ∈ (Store.rows c s).eraseIdx place, ¬c.Describes ps row) :
      ((c.spec.list ps).carryOut (s.queryObject c) []).1 = .ok [found] := by
    obtain ⟨rows, hrows, hperm, -⟩ := list_exact s c ps haccepted hpaging
    rw [filter_eq_singleton hplace hfound hothers, List.perm_singleton] at hperm
    rw [← hperm]
    exact hrows
  exact ⟨honly .links dates 1 (by rfl) ⟨rfl, rfl⟩ rfl (by decide +kernel) (by decide +kernel),
    honly .instances lists 0 (by rfl) ⟨rfl, rfl⟩ rfl (by decide +kernel) (by decide +kernel),
    honly .historic spelled 0 (by rfl) ⟨rfl, rfl⟩ rfl (by decide +kernel) (by decide +kernel),
    honly .historic number 2 (by rfl) ⟨rfl, rfl⟩ rfl (by decide +kernel) (by decide +kernel),
    honly .historic decimal 3 (by rfl) ⟨rfl, rfl⟩ rfl (by decide +kernel) (by decide +kernel),
    honly .historic timed 5 (by rfl) ⟨rfl, rfl⟩ rfl (by decide +kernel) (by decide +kernel),
    honly .reports tenantless 0 (by rfl) ⟨rfl, rfl⟩ rfl (by decide +kernel) (by decide +kernel),
    honly .reports compact 2 (by rfl) ⟨rfl, rfl⟩ rfl (by decide +kernel) (by decide +kernel)⟩

end Store

end CaseGateway
