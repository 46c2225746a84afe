/-
What listings respond.

All four collections are listed in the same way.  A query string is read, a query is made of
it and run, and the rows become documents; rows with values are fetched without the content of
byte arrays, and say in the query string whether objects are decoded.  What the response
shows is therefore known from the rows that are stored: those that the parameters
describe, or a page of them.

It is known in both directions.  If the parameters are accepted there is an array of
documents, and if there is an array of documents they were accepted.
-/
import CaseGateway.Proofs.Http.Handlers
import CaseGateway.Proofs.Query.Pairs
import CaseGateway.Proofs.Store.Paging
import CaseGateway.Proofs.Text.Percent

namespace CaseGateway

variable {γ ρ χ ε κ α : Type}

/-! ### Byte arrays left out -/

namespace Selection

/-- The selection with byte arrays left out. -/
def withheld (s : Selection χ ε κ) : Selection χ ε κ := { s with binaryFetching := false }

/-- Byte arrays can be left out before any call. -/
theorem foldl_withheld (calls : List (QueryCall χ ε κ)) :
    ∀ s : Selection χ ε κ, calls.foldl call s.withheld = (calls.foldl call s).withheld := by
  induction calls with
  | nil => exact fun _ => rfl
  | cons c calls ih =>
      intro s
      have hcall : s.withheld.call c = (s.call c).withheld := by
        cases c with
        | direction order =>
            obtain ⟨conditions, orderings, pending, misuse, binaryFetching⟩ := s
            cases pending <;> rfl
        | condition _ | orderBy _ | disableBinaryFetching | disableObjectDeserialization => rfl
      rw [List.foldl_cons, List.foldl_cons, hcall, ih]

theorem ofCalls_withholding (deserialize : Bool) (calls : List (QueryCall χ ε κ)) :
    ofCalls (Http.ValueRows.withholding deserialize ++ calls) = (ofCalls calls).withheld := by
  rw [ofCalls, List.foldl_append]
  cases deserialize <;> exact foldl_withheld calls all

end Selection

section Queryable

variable [Queryable ρ χ ε κ]

/-- The rows are the same with byte arrays left out, but for the byte arrays. -/
theorem Store.query_withholding (deserialize : Bool) {calls : List (QueryCall χ ε κ)}
    (h : (Selection.ofCalls calls).binaryFetching = true) (stored : List ρ) :
    query stored (Http.ValueRows.withholding deserialize ++ calls) .list
      = (query stored calls .list).map (List.map Queryable.withoutBytes) := by
  have hfault : (Selection.ofCalls calls).withheld.fault? = (Selection.ofCalls calls).fault? := rfl
  have hrows : (Selection.ofCalls calls).withheld.rows stored
      = ((Selection.ofCalls calls).rows stored).map Queryable.withoutBytes := by
    simp only [Selection.rows, h, Selection.withheld, if_true, Bool.false_eq_true, if_false]
  unfold query Selection.run
  rw [Selection.ofCalls_withholding, hfault, hrows]
  cases (Selection.ofCalls calls).fault? <;> rfl

/-- No specification has byte arrays left out. -/
theorem QuerySpec.Regular.binaryFetching {spec : QuerySpec (QueryCall χ ε κ)}
    (hspec : spec.Regular) {ps : Parameters} {calls : List (QueryCall χ ε κ)}
    (h : spec.Binds ps calls (.ok ())) : (Selection.ofCalls calls).binaryFetching = true := by
  cases h with
  | complete hfilters hsorting =>
      obtain ⟨cs, rfl⟩ := hfilters.areConditions hspec.filters
      obtain ⟨os, rfl⟩ := hsorting.areOrderings hspec
      rw [Selection.ofCalls_regular]
      rfl

end Queryable

/-! ### Pages of what is listed -/

/-- The part of the rows that parameters ask for. -/
def Parameters.cut (ps : Parameters) (rows : List ρ) : List ρ :=
  if ps.isPaged then page ps.firstResult ps.maxResults rows else rows

theorem Parameters.cut_sublist (ps : Parameters) (rows : List ρ) : (ps.cut rows).Sublist rows := by
  unfold cut
  split
  · exact (List.take_sublist _ _).trans (List.drop_sublist _ _)
  · exact .refl rows

theorem Parameters.cut_of_unpaged {ps : Parameters}
    (h : ps.firstResult = none ∧ ps.maxResults = none) (rows : List ρ) : ps.cut rows = rows := by
  rw [cut, isPaged, h.1, h.2]
  rfl

theorem Parameters.cut_map {ρ' : Type} (ps : Parameters) (f : ρ → ρ') (rows : List ρ) :
    ps.cut (rows.map f) = (ps.cut rows).map f := by
  unfold cut page
  split
  · rw [← List.map_drop, ← List.map_take]
  · rfl

theorem QuerySpec.result_listing (ps : Parameters) (rows : List ρ) :
    (listing ps).result rows = .ok (ps.cut rows) := by
  unfold listing Parameters.cut
  split <;> rfl

/-! ### The four listings -/

/-- The part of a name of a document. -/
def Json.part? : Json → String → Option Json
  | .object members, name => member? members name
  | _, _ => none

namespace Collection

/-- The path under which a collection is listed. -/
def path : Collection γ ρ → String
  | .instances => "/variable-instance"
  | .historic => "/history/variable-instance"
  | .links => "/history/identity-link-log"
  | .reports => "/history/process-definition/cleanable-process-instance-report"

/-- The segments of the path. -/
def segments : Collection γ ρ → List String
  | .instances => ["variable-instance"]
  | .historic => ["history", "variable-instance"]
  | .links => ["history", "identity-link-log"]
  | .reports => ["history", "process-definition", "cleanable-process-instance-report"]

/-- The route to the listing. -/
def route : Collection γ ρ → Http.Route
  | .instances => .instances
  | .historic => .historic
  | .links => .links
  | .reports => .report

theorem ofPath?_path (basePath : String) (c : Collection γ ρ) :
    Http.Route.ofPath? basePath (basePath ++ c.path) = some c.route := by
  have hpath : c.path = "/" ++ "/".intercalate c.segments := by cases c <;> decide +kernel
  rw [hpath, Http.ofPath?_intercalate]
  · cases c <;> rfl
  · cases c <;> decide
  · cases c <;> decide
  · cases c <;> decide

/-- Whether objects are to be decoded, which is asked only of rows that have values. -/
def switch : Collection γ ρ → Parameters → Except RestError Bool
  | .instances, ps | .historic, ps => ps.deserializeValues
  | .links, _ | .reports, _ => .ok true

/-- The calls that are made before those of the parameters. -/
def firstCalls (deserialize : Bool) : Collection γ ρ → List γ
  | .instances | .historic => Http.ValueRows.withholding deserialize
  | .links | .reports => []

/-- A row as it is fetched for a listing. -/
def fetched : Collection γ ρ → ρ → ρ
  | .instances, v => Queryable.withoutBytes v
  | .historic, v => Queryable.withoutBytes v
  | .links, l => l
  | .reports, r => r

/-- A row that was fetched as a document. -/
def written (deserialize : Bool) : Collection γ ρ → ρ → Json
  | .instances, v => v.toJson (Http.ValueRows.options deserialize)
  | .historic, v => v.toJson (Http.ValueRows.options deserialize)
  | .links, l => l.toJson
  | .reports, r => r.toJson

/-- The document of a stored row in a listing. -/
def document (c : Collection γ ρ) (deserialize : Bool) (row : ρ) : Json :=
  c.written deserialize (c.fetched row)

theorem runQuery_firstCalls (c : Collection γ ρ) {ps : Parameters} {calls : List γ}
    (h : c.spec.Binds ps calls (.ok ())) (deserialize : Bool) (s : Store) :
    Store.runQuery c (c.firstCalls deserialize ++ calls) .list s
      = (Store.runQuery c calls .list s).map (List.map c.fetched) := by
  have hsame {β : Type} (rows : Except EngineError (List β)) :
      rows.map (List.map fun row => row) = rows := by
    cases rows with
    | error e => rfl
    | ok rows => exact congrArg Except.ok (List.map_id' rows)
  cases c with
  | instances =>
      exact Store.query_withholding deserialize (VariableInstance.spec_regular.binaryFetching h) _
  | historic =>
      exact Store.query_withholding deserialize (HistoricVariable.spec_regular.binaryFetching h) _
  | links => exact (hsame _).symm
  | reports => exact (hsame _).symm

/-- A listing fetches the rows that its parameters describe, or the part of them that is asked
for. -/
theorem runQuery_listing (c : Collection γ ρ) {ps : Parameters} {calls : List γ}
    (h : c.spec.Binds ps calls (.ok ())) (deserialize : Bool) (s : Store) :
    ∃ rows, rows.Perm ((Store.rows c s).filter fun row => c.Describes ps row) ∧
      Store.runQuery c (c.firstCalls deserialize ++ calls) (QuerySpec.listing ps) s
        = .ok ((ps.cut rows).map c.fetched) := by
  obtain ⟨rows, hrows, hperm⟩ := s.runQuery_list_perm c h
  refine ⟨rows, hperm, ?_⟩
  rw [Store.runQuery_of_list (QuerySpec.result_listing ps), c.runQuery_firstCalls h, hrows,
    ← ps.cut_map]
  rfl

end Collection

namespace Http

/-! ### Requests and responses -/

/-- A request for a listing, with what its query string says. -/
structure Request.Queries (config : Config) (r : Request) (c : Collection γ ρ)
    (pairs : List (String × String)) : Prop where
  method : r.method = .get
  path : r.path = config.basePath ++ c.path
  pairs : Text.formPairs r.queryString = pairs

/-- Whatever can be said can be said in a query string. -/
theorem exists_queries (config : Config) (c : Collection γ ρ) (pairs : List (String × String)) :
    ∃ r : Request, r.Queries config c pairs :=
  ⟨⟨.get, config.basePath ++ c.path, Text.toQueryString pairs, none, []⟩, rfl, rfl,
    Text.formPairs_toQueryString pairs⟩

section Queries

variable {config : Config} {r : Request} {c : Collection γ ρ} {pairs : List (String × String)}

theorem Request.Queries.leads (h : r.Queries config c pairs) : r.LeadsTo config c.route c.route := by
  refine ⟨by simp [h.method], ?_, ?_, ?_⟩
  · rw [h.path, Collection.ofPath?_path]
  · rw [h.method]
    cases c <;> rfl
  · cases c <;> rfl

theorem Exchange.given_bind {β : Type} (x : Except RestError α) (f : α → Except RestError β)
    (exchange : β → Exchange) :
    given (x >>= f) exchange = given x fun a => given (f a) exchange := by
  cases x <;> rfl

theorem run_listRows {toJson : ρ → Json} {firstCalls calls : List γ} {ps : Parameters} {s : Store}
    {rows : List ρ} (hcalls : c.spec.Binds ps calls (.ok ()))
    (hrows : Store.runQuery c (firstCalls ++ calls) (QuerySpec.listing ps) s = .ok rows) :
    ((listRows c toJson firstCalls ps).run s).1 = .json 200 (.array (rows.map toJson)) := by
  have hplan : ((c.spec.list ps).after firstCalls : Plan γ (Execution ρ (List ρ)))
      = ⟨firstCalls ++ calls, .ok (QuerySpec.listing ps)⟩ := by
    rw [hcalls.list_eq]
    rfl
  unfold listRows Exchange.ofPlan
  rw [hplan]
  simp only [Exchange.asking, Exchange.run, CaseEngine.answer, Store.answer, hrows]
  rfl

theorem run_listRows_error {toJson : ρ → Json} {firstCalls calls : List γ} {ps : Parameters}
    {e : RestError} (hcalls : c.spec.Binds ps calls (.error e)) (s : Store) :
    ((listRows c toJson firstCalls ps).run s).1 = .ofError e := by
  have hplan : ((c.spec.list ps).after firstCalls : Plan γ (Execution ρ (List ρ)))
      = ⟨firstCalls ++ calls, .error e⟩ := by
    rw [hcalls.list_eq]
    rfl
  unfold listRows Exchange.ofPlan
  rw [hplan]
  rfl

/-- What a listing with some parameters comes to. -/
def Exchange.listing (c : Collection γ ρ) (ps : Parameters) : Exchange :=
  .given (c.switch ps) fun deserialize =>
    listRows c (c.written deserialize) (c.firstCalls deserialize) ps

theorem Request.Queries.serve_eq (h : r.Queries config c pairs) (s : Store) :
    serve config r s
      = (Exchange.given (Parameters.ofPairs pairs) (Exchange.listing c)).run s := by
  have hget : ¬r.method = .post := by
    rw [h.method]
    decide
  have hparameters : r.parameters = Parameters.ofPairs pairs := by rw [Request.parameters, h.pairs]
  rw [serve_of_leadsTo h.leads (by rw [h.method]; decide), ← hparameters]
  congr 1
  cases c with
  | instances =>
      simp only [Collection.route, dispatch, hget, if_false, ValueRows.listByQuery,
        Exchange.given_bind]
      rfl
  | historic =>
      simp only [Collection.route, dispatch, hget, if_false, ValueRows.listByQuery,
        Exchange.given_bind]
      rfl
  | links => rfl
  | reports => rfl

/-- What the values in a query string ask for, if a listing accepts them. -/
structure Asks (c : Collection γ ρ) (pairs : List (String × String)) (ps : Parameters)
    (deserialize : Bool) : Prop where
  parameters : Parameters.ofPairs pairs = .ok ps
  switch : c.switch ps = .ok deserialize
  bound : ∃ calls, c.spec.Binds ps calls (.ok ())

/-- **A listing responds with the documents of the rows that are asked for.** -/
theorem Request.Queries.serve_of_asks (h : r.Queries config c pairs) {ps : Parameters}
    {deserialize : Bool} (hasks : Asks c pairs ps deserialize) (s : Store) :
    ∃ rows, rows.Perm ((Store.rows c s).filter fun row => c.Describes ps row) ∧
      (serve config r s).1 = .json 200 (.array ((ps.cut rows).map (c.document deserialize))) := by
  obtain ⟨calls, hcalls⟩ := hasks.bound
  obtain ⟨rows, hperm, hrun⟩ := c.runQuery_listing hcalls deserialize s
  refine ⟨rows, hperm, ?_⟩
  rw [h.serve_eq, hasks.parameters]
  simp only [Exchange.given, Exchange.listing, hasks.switch, run_listRows hcalls hrun, List.map_map]
  rfl

/-- A listing that succeeds has accepted what it was asked. -/
theorem Request.Queries.asks_of_success (h : r.Queries config c pairs) {s : Store}
    (hsuccess : (serve config r s).1.isSuccess) :
    ∃ ps deserialize, Asks c pairs ps deserialize := by
  have hfailed {e : RestError} (he : (serve config r s).1 = .ofError e) : False := by
    rw [he, isSuccess_ofError] at hsuccess
    cases hsuccess
  rw [h.serve_eq] at hfailed
  cases hps : Parameters.ofPairs pairs with
  | error e => exact (hfailed (e := e) (by rw [hps]; rfl)).elim
  | ok ps =>
      cases hswitch : c.switch ps with
      | error e =>
          refine (hfailed (e := e) ?_).elim
          rw [hps, Exchange.given, Exchange.listing, hswitch]
          rfl
      | ok deserialize =>
          obtain ⟨calls, outcome, hcalls⟩ := c.spec.exists_binds ps
          cases outcome with
          | error e =>
              refine (hfailed (e := e) ?_).elim
              rw [hps, Exchange.given, Exchange.listing, hswitch]
              exact run_listRows_error hcalls s
          | ok u => exact ⟨ps, deserialize, hps, hswitch, calls, hcalls⟩

end Queries

end Http

end CaseGateway
