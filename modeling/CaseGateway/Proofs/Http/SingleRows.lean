/-
Single rows and listings.

The row of an id can be asked for by itself, and it is listed among all others.  Both ways
keep the same parts of a value from being fetched and write the rest in the same form, so
the same document comes out, for variables that exist and for those that are remembered.
`Identified` is all that is needed of the two kinds of rows.

By itself a row is shown only if no other one has its id.  Ids are stored as they come, so
there may be others, and then none of them is picked.
-/
import CaseGateway.Proofs.Http.Routing
import CaseGateway.Proofs.Store.Selection
import CaseGateway.Proofs.Text.Percent

namespace CaseGateway

/-- The id that a document states. -/
def Json.id? : Json → Option String
  | .object members =>
    match member? members "id" with
    | some (.string id) => some id
    | _ => none
  | _ => none

theorem Execution.single_of_several {ρ : Type} {rows : List ρ} (h : 1 < rows.length) :
    Execution.single.result rows = .error (.ambiguous rows.length) := by
  match rows, h with
  | _ :: _ :: _, _ => rfl

/-- Parameters that ask for no row in particular, for no order and for no page. -/
structure Parameters.AskForAll (ps : Parameters) (filterNames : List String) : Prop where
  filters : ∀ name ∈ filterNames, ps.get? name = none
  sortBy : ps.sortBy = none
  sortOrder : ps.sortOrder = none
  firstResult : ps.firstResult = none
  maxResults : ps.maxResults = none

theorem QuerySpec.list_eq_of_askForAll {γ ρ : Type} {spec : QuerySpec γ} {ps : Parameters}
    (h : ps.AskForAll spec.filterNames) :
    (spec.list ps : Plan γ (Execution ρ (List ρ))) = ⟨[], .ok .list⟩ := by
  have hbinds : spec.Binds ps ([] ++ []) (.ok ()) :=
    .complete (bound_of_absent fun f hf => h.filters _ (List.mem_map_of_mem hf))
      (.unsorted h.sortBy h.sortOrder)
  rw [hbinds.list_eq, List.nil_append, listing_of_unpaged ⟨h.firstResult, h.maxResults⟩]
  rfl

namespace Http

/-! ### Rows with ids -/

/-- Two responses that agree on the row of an id, where rows of some ids are stored: the first one is
about this row alone, the other one about all rows. -/
structure Agree (id : String) (ids : List String) (single all : Response) : Prop where
  sole : ids.count id = 1 → ∃ document documents,
    single = .json 200 document ∧ all = .json 200 (.array documents) ∧
      (documents.filter fun d => d.id? = some id) = [document]
  missing : ids.count id = 0 →
    single = .ofError (.notFound (.variableInstance id)) ∧ single.status = 404
  ambiguous : 1 < ids.count id →
    single = .ofError (.engine (.ambiguous (ids.count id))) ∧ single.status = 400

/-- A request with a switch that says whether objects are to be decoded. -/
def Request.Switches (r : Request) (deserialize : Bool) : Prop :=
  ∃ ps, r.parameters = .ok ps ∧ ps.deserializeValues = .ok deserialize

namespace ValueRows

variable {χ ε κ ρ : Type} [Queryable ρ χ ε κ]

/-- Rows that are chosen by the id that their documents state. -/
structure Identified (rows : ValueRows χ ε κ ρ) (idOf : ρ → String) : Prop where
  query : ∀ {α : Type} (calls : List (QueryCall χ ε κ)) (execution : Execution ρ α) (s : Store),
    Store.runQuery rows.collection calls execution s
      = Store.query (Store.rows rows.collection s) calls execution
  column : ∀ row, Queryable.column row rows.idColumn = some (idOf row)
  withoutBytes : ∀ row, idOf (Queryable.withoutBytes row) = idOf row
  document : ∀ options row, (rows.toJson options row).id? = some (idOf row)

/-- The response that shows the only row of an id. -/
def shown (rows : ValueRows χ ε κ ρ) (deserialize : Bool) (id : String) :
    Except EngineError (Option ρ) → Response
  | .ok (some row) => .json 200 (rows.toJson (options deserialize) row)
  | .ok none => .ofError (.notFound (.variableInstance id))
  | .error e => .ofError (.engine e)

namespace Identified

variable {rows : ValueRows χ ε κ ρ} {idOf : ρ → String}

/-- Choosing by an id finds the rows that have it, in the order in which they are stored. -/
theorem query_single (h : rows.Identified idOf) (stored : List ρ) (id : String) (deserialize : Bool) :
    Store.query stored (rows.choose id :: withholding deserialize) .single
      = Execution.single.result
          ((stored.filter fun row => idOf row = id).map Queryable.withoutBytes) := by
  have hcalls : Selection.ofCalls (rows.choose id :: withholding deserialize)
      = ⟨[.equals rows.idColumn id], [], none, none, false⟩ := by cases deserialize <;> rfl
  have hfilter : (stored.filter fun row =>
      [(.equals rows.idColumn id : Condition χ ε)].all fun c => c.holds row)
        = stored.filter fun row => idOf row = id := by
    refine List.filter_congr fun row _ => ?_
    rw [Bool.eq_iff_iff]
    simp [Condition.holds, h.column]
  unfold Store.query
  rw [hcalls]
  show Execution.single.result (Selection.rows _ stored) = _
  rw [Selection.rows_unordered rfl rfl, hfilter]

theorem query_list (stored : List ρ) (deserialize : Bool) :
    Store.query stored (withholding deserialize) .list
      = .ok (stored.map Queryable.withoutBytes) := by
  have hcalls : Selection.ofCalls (withholding deserialize : List (QueryCall χ ε κ))
      = ⟨[], [], none, none, false⟩ := by cases deserialize <;> rfl
  unfold Store.query
  rw [hcalls]
  show Except.ok (Selection.rows _ stored) = _
  rw [Selection.rows_unordered rfl rfl]
  exact congrArg (fun l => Except.ok (List.map _ l)) (List.filter_eq_self.mpr fun _ _ => rfl)

theorem run_single (h : rows.Identified idOf) {r : Request} {deserialize : Bool}
    (hr : r.Switches deserialize) (s : Store) (id : String) :
    ((rows.single r id).run s).1 = rows.shown deserialize id (Execution.single.result
      (((Store.rows rows.collection s).filter fun row => idOf row = id).map
        Queryable.withoutBytes)) := by
  obtain ⟨ps, hps, hswitch⟩ := hr
  have hinput : (do (← r.parameters).deserializeValues) = .ok deserialize := by
    rw [hps]
    exact hswitch
  unfold single
  rw [hinput, ← h.query_single (Store.rows rows.collection s) id deserialize, ← h.query]
  simp only [Exchange.given, Exchange.asking, Exchange.run, CaseEngine.answer, Store.answer]
  cases Store.runQuery rows.collection (rows.choose id :: withholding deserialize) .single s with
  | error e => rfl
  | ok row => cases row <;> rfl

theorem run_listByQuery (h : rows.Identified idOf) {q : Request} {deserialize : Bool}
    {ps : Parameters} (hps : q.parameters = .ok ps)
    (hswitch : ps.deserializeValues = .ok deserialize)
    (hall : ps.AskForAll rows.collection.spec.filterNames) (s : Store) :
    ((rows.listByQuery q).run s).1 = .json 200 (.array <|
      (Store.rows rows.collection s).map fun row =>
        rows.toJson (options deserialize) (Queryable.withoutBytes row)) := by
  have hinput : (do
      let ps ← q.parameters
      return (← ps.deserializeValues, ps)) = .ok (deserialize, ps) := by
    rw [hps]
    show (ps.deserializeValues >>= fun d => pure (d, ps)) = _
    rw [hswitch]
    rfl
  have hplan : ((rows.collection.spec.list ps).after (withholding deserialize) :
      Plan (QueryCall χ ε κ) (Execution ρ (List ρ))) = ⟨withholding deserialize, .ok .list⟩ := by
    rw [QuerySpec.list_eq_of_askForAll hall, Plan.after, List.append_nil]
  have hanswer : Store.runQuery rows.collection (withholding deserialize) .list s
      = .ok ((Store.rows rows.collection s).map Queryable.withoutBytes) := by
    rw [h.query, query_list]
  unfold listByQuery
  rw [hinput]
  simp only [Exchange.given, list, listRows, Exchange.ofPlan, hplan, Exchange.asking, Exchange.run,
    CaseEngine.answer, Store.answer, hanswer, List.map_map]
  rfl

theorem agree (h : rows.Identified idOf) {r q : Request} {deserialize : Bool}
    (hr : r.Switches deserialize) {ps : Parameters} (hps : q.parameters = .ok ps)
    (hswitch : ps.deserializeValues = .ok deserialize)
    (hall : ps.AskForAll rows.collection.spec.filterNames) (s : Store) (id : String) :
    Agree id ((Store.rows rows.collection s).map idOf) ((rows.single r id).run s).1
      ((rows.listByQuery q).run s).1 := by
  have hcount : ((Store.rows rows.collection s).map idOf).count id
      = ((Store.rows rows.collection s).filter fun row => idOf row = id).length := by
    rw [List.count, List.countP_map, List.countP_eq_length_filter]
    rfl
  refine ⟨fun hone => ?_, fun hnone => ?_, fun hmany => ?_⟩
  · rw [hcount, List.length_eq_one_iff] at hone
    obtain ⟨row, hrow⟩ := hone
    refine ⟨rows.toJson (options deserialize) (Queryable.withoutBytes row), _,
      (h.run_single hr s id).trans ?_, h.run_listByQuery hps hswitch hall s, ?_⟩
    · rw [hrow]
      rfl
    · have hids : (fun row => decide ((rows.toJson (options deserialize)
          (Queryable.withoutBytes row)).id? = some id)) = fun row => decide (idOf row = id) := by
        funext row
        simp only [h.document, h.withoutBytes, Option.some.injEq]
      rw [List.filter_map, Function.comp_def, hids, hrow]
      rfl
  · rw [hcount, List.length_eq_zero_iff] at hnone
    rw [h.run_single hr, hnone]
    exact ⟨rfl, rfl⟩
  · rw [hcount, ← List.length_map Queryable.withoutBytes] at hmany ⊢
    rw [h.run_single hr, Execution.single_of_several hmany]
    exact ⟨rfl, rfl⟩

end Identified

end ValueRows

theorem variableRows_identified : variableRows.Identified VariableInstance.id where
  query _ _ _ := rfl
  column _ := rfl
  withoutBytes _ := rfl
  document _ _ := rfl

theorem historicRows_identified : historicRows.Identified HistoricVariable.id where
  query _ _ _ := rfl
  column _ := rfl
  withoutBytes _ := rfl
  document _ _ := rfl

/-! ### The two resources -/

/-- The resources whose rows are variables. -/
inductive VariableResource
  | instances
  | historic

namespace VariableResource

/-- The path of a resource. -/
def path : VariableResource → String
  | .instances => "/variable-instance"
  | .historic => "/history/variable-instance"

/-- The segments of the path. -/
def segments : VariableResource → List String
  | .instances => ["variable-instance"]
  | .historic => ["history", "variable-instance"]

/-- The route to all rows. -/
def all : VariableResource → Route
  | .instances => .instances
  | .historic => .historic

/-- The route to the row of an id. -/
def row : VariableResource → String → Route
  | .instances => .variableInstance
  | .historic => .historicVariable

/-- The ids of the rows. -/
def ids (s : Store) : VariableResource → List String
  | .instances => s.instances.map (·.id)
  | .historic => s.historic.map (·.id)

/-- The names under which rows can be asked for. -/
def filterNames : VariableResource → List String
  | .instances => VariableInstance.spec.filterNames
  | .historic => HistoricVariable.spec.filterNames

theorem ofPath?_path (basePath : String) (resource : VariableResource) :
    Route.ofPath? basePath (basePath ++ resource.path) = some resource.all := by
  have hpath : resource.path = "/" ++ "/".intercalate resource.segments := by
    cases resource <;> decide +kernel
  rw [hpath, ofPath?_intercalate]
  · cases resource <;> rfl
  · cases resource <;> decide
  · cases resource <;> decide
  · cases resource <;> decide

/-- A segment behind the path leads to a row, unless it is empty or reserved for counting. -/
theorem ofPath?_row (basePath : String) (resource : VariableResource) {segment : String}
    (hslash : '/' ∉ segment.toList) (hempty : segment ≠ "") (hcount : segment ≠ "count") :
    Route.ofPath? basePath (basePath ++ resource.path ++ "/" ++ segment)
      = some (resource.row segment) := by
  have hpath : basePath ++ resource.path ++ "/" ++ segment
      = basePath ++ ("/" ++ "/".intercalate (resource.segments ++ [segment])) := by
    rw [← String.toList_inj]
    cases resource <;> simp [path, segments]
  have hplain : ∀ t ∈ resource.segments, '/' ∉ t.toList := by cases resource <;> decide
  rw [hpath, ofPath?_intercalate]
  · cases resource <;> simp [segments, Route.ofSegments?, row]
  · intro t ht
    obtain ht | ht := List.mem_append.mp ht
    · exact hplain t ht
    · rw [List.mem_singleton.mp ht]
      exact hslash
  · simpa using hempty
  · simp

end VariableResource

/-! ### Requests -/

/-- A request for the row of an id, however the id is spelled in the path. -/
structure Request.Fetches (config : Config) (r : Request) (resource : VariableResource)
    (id : String) (deserialize : Bool) : Prop where
  method : r.method = .get
  path : ∃ segment, r.path = config.basePath ++ resource.path ++ "/" ++ segment ∧
    '/' ∉ segment.toList ∧ Text.ofPathSegment? segment = some id
  switch : r.Switches deserialize

/-- A request for all rows. -/
structure Request.ListsAll (config : Config) (r : Request) (resource : VariableResource)
    (deserialize : Bool) : Prop where
  method : r.method = .get
  path : r.path = config.basePath ++ resource.path
  parameters : ∃ ps, r.parameters = .ok ps ∧ ps.deserializeValues = .ok deserialize ∧
    ps.AskForAll resource.filterNames

section

variable {config : Config} {r : Request} {resource : VariableResource} {id : String}
  {deserialize : Bool}

theorem Request.Fetches.leads (h : r.Fetches config resource id deserialize) (hempty : id ≠ "")
    (hcount : id ≠ "count") : ∃ raw, r.LeadsTo config raw (resource.row id) := by
  obtain ⟨segment, hpath, hslash, hid⟩ := h.path
  have hne : segment ≠ "" := by
    rintro rfl
    have hread : Text.ofPathSegment? "" = some "" := by decide +kernel
    exact hempty (Option.some.inj (hid.symm.trans hread))
  have hreserved : segment ≠ "count" := by
    rintro rfl
    have hread : Text.ofPathSegment? "count" = some "count" := by decide +kernel
    exact hcount (Option.some.inj (hid.symm.trans hread))
  have hparameter : Route.parameter "id" segment = .ok id := by
    rw [Route.parameter, hid]
  refine ⟨resource.row segment, by simp [h.method], ?_, ?_, ?_⟩
  · rw [hpath, VariableResource.ofPath?_row config.basePath resource hslash hne hreserved]
  · rw [h.method]
    cases resource <;> rfl
  · cases resource <;> simp only [VariableResource.row, Route.unescaped, hparameter] <;> rfl

theorem Request.ListsAll.leads (h : r.ListsAll config resource deserialize) :
    r.LeadsTo config resource.all resource.all := by
  refine ⟨by simp [h.method], ?_, ?_, ?_⟩
  · rw [h.path, VariableResource.ofPath?_path]
  · rw [h.method]
    cases resource <;> rfl
  · cases resource <;> rfl

theorem parameters_of_switch (resource : VariableResource)
    (hr : r.queryString = "deserializeValues=" ++ toString deserialize) :
    ∃ ps, r.parameters = .ok ps ∧ ps.deserializeValues = .ok deserialize ∧
      ps.AskForAll resource.filterNames := by
  have hpairs : Text.formPairs ("deserializeValues=" ++ toString deserialize)
      = [("deserializeValues", toString deserialize)] := by
    cases deserialize <;> decide +kernel
  refine ⟨{ Parameters.empty with
    filters := .ofList [("deserializeValues", .text (toString deserialize))] }, ?_, ?_, ?_⟩
  · rw [Request.parameters, hr, hpairs]
    rfl
  · cases deserialize <;> rfl
  · refine ⟨?_, rfl, rfl, rfl, rfl⟩
    cases resource <;> cases deserialize <;> decide +kernel

/-- Every id can be asked for, and so can all rows, with objects decoded or not. -/
theorem exists_requests (config : Config) (resource : VariableResource) (id : String)
    (deserialize : Bool) :
    (∃ r : Request, r.Fetches config resource id deserialize) ∧
      ∃ q : Request, q.ListsAll config resource deserialize := by
  let q : Request :=
    ⟨.get, config.basePath ++ resource.path, "deserializeValues=" ++ toString deserialize, none, []⟩
  let r : Request := { q with path := q.path ++ "/" ++ Text.toPathSegment id }
  obtain ⟨ps, hps, hswitch, -⟩ := parameters_of_switch (r := r) resource rfl
  refine ⟨⟨r, rfl, ?_, ps, hps, hswitch⟩, q, rfl, rfl, parameters_of_switch resource rfl⟩
  exact ⟨_, rfl, Text.slash_not_mem_toPathSegment id, Text.ofPathSegment?_toPathSegment id⟩

end

/-- **A row shows the same by itself as in the listing.**

Whoever asks for the row of an id gets the document that the listing of all rows has of it, if
no other row has the id and both requests ask for objects in the same form.  Where there is
no such row the response says so, and where there are several it shows none of them. -/
theorem single_as_listed (config : Config) (resource : VariableResource) (s : Store) {id : String}
    (hempty : id ≠ "") (hcount : id ≠ "count") {deserialize : Bool} {r q : Request}
    (hr : r.Fetches config resource id deserialize) (hq : q.ListsAll config resource deserialize) :
    Agree id (resource.ids s) (serve config r s).1 (serve config q s).1 := by
  obtain ⟨raw, hleads⟩ := hr.leads hempty hcount
  obtain ⟨ps, hps, hswitch, hall⟩ := hq.parameters
  rw [serve_of_leadsTo hleads (by rw [hr.method]; decide),
    serve_of_leadsTo hq.leads (by rw [hq.method]; decide)]
  have hget : ¬q.method = .post := by
    rw [hq.method]
    decide
  cases resource with
  | instances =>
      simp only [VariableResource.row, VariableResource.all, dispatch, hget, if_false]
      exact variableRows_identified.agree hr.switch hps hswitch hall s id
  | historic =>
      simp only [VariableResource.row, VariableResource.all, dispatch, hget, if_false]
      exact historicRows_identified.agree hr.switch hps hswitch hall s id

/-- A slash in an id is no matter, and of two rows with one id none is shown. -/
theorem single_as_listed_twins :
    let s : Store :=
      { Store.empty with
        instances := [.plain "a/b" "photo" (.bytes (some [7])),
          .plain "twin" "color" (.string (some "red")), .plain "twin" "color" .null] }
    let q : Request :=
      ⟨.get, "/engine-rest/variable-instance", "deserializeValues=false", none, []⟩
    let r (segment : String) : Request := { q with path := q.path ++ "/" ++ segment }
    (∃ document documents, (serve Config.standard (r "a%2Fb") s).1 = .json 200 document ∧
      (serve Config.standard q s).1 = .json 200 (.array documents) ∧
      (documents.filter fun d => d.id? = some "a/b") = [document]) ∧
    (serve Config.standard (r "tw%69n") s).1.status = 400 ∧
    (serve Config.standard (r "b") s).1.status = 404 := by
  intro s q r
  have hq : q.ListsAll Config.standard .instances false := ⟨rfl, rfl, parameters_of_switch _ rfl⟩
  have hr : ∀ id segment, '/' ∉ segment.toList → Text.ofPathSegment? segment = some id →
      (r segment).Fetches Config.standard .instances id false := by
    intro id segment hslash hid
    have hquery : (r segment).queryString = "deserializeValues=" ++ toString false := rfl
    obtain ⟨ps, hps, hswitch, -⟩ := parameters_of_switch .instances hquery
    exact ⟨rfl, ⟨segment, rfl, hslash, hid⟩, ps, hps, hswitch⟩
  have hfound := single_as_listed Config.standard .instances s (by decide) (by decide)
    (hr "a/b" "a%2Fb" (by decide) (by decide +kernel)) hq
  have htwins := single_as_listed Config.standard .instances s (by decide) (by decide)
    (hr "twin" "tw%69n" (by decide) (by decide +kernel)) hq
  have hmissing := single_as_listed Config.standard .instances s (by decide) (by decide)
    (hr "b" "b" (by decide) (by decide +kernel)) hq
  exact ⟨hfound.sole (by decide), (htwins.ambiguous (by decide)).2, (hmissing.missing (by decide)).2⟩

end Http

end CaseGateway
