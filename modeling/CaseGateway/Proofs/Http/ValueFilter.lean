/-
Rows are found by the values they are shown with.

A listing of historic variables shows a name and a value with every row, and can be narrowed to
the rows of a name and a value.  What is shown is the one way a value has to be written and what
is asked for is another, but they agree: asking for the name and the text of the value
that a row is shown with leaves the row in the listing.

Nothing else in the query can get into the way of that.  All its other parameters are texts
again, which every filter of the collection can make use of, and are met by the row as before.
A page is another matter, since other rows may come to stand before the one that is looked
for; so the narrowed query is one for all rows.
-/
import CaseGateway.Proofs.Http.Listings
import CaseGateway.Proofs.Value.Rendering
import CaseGateway.Proofs.Value.Types

namespace CaseGateway

theorem QuerySpec.Sorts.congr {γ : Type} {spec : QuerySpec γ} {ps ps' : Parameters}
    {sorting : List γ} (h : spec.Sorts ps sorting) (hkey : ps'.sortBy = ps.sortBy)
    (horder : ps'.sortOrder = ps.sortOrder) : spec.Sorts ps' sorting := by
  cases h with
  | unsorted hkey' horder' => exact .unsorted (hkey.trans hkey') (horder.trans horder')
  | sorted hkey' horder' hcall hdirection =>
      exact .sorted (hkey.trans hkey') (horder.trans horder') hcall hdirection

/-! ### Documents of rows -/

/-- What a document says of a variable: its name, the type of its value, and the text of the value,
which is a scalar. -/
structure Json.Shows (document : Json) (name : String) (type : ValueType) (text : String) :
    Prop where
  name : document.part? "name" = some (.string name)
  type : document.part? "type" = some (.string type.tag)
  value : (document.part? "value").bind Parameter.scalarText? = some text

theorem ValueType.tag_injective {t t' : ValueType} (h : t.tag = t'.tag) : t = t' :=
  Option.some.inj ((ofTag?_tag t).symm.trans (h ▸ ofTag?_tag t'))

namespace HistoricVariable

theorem part?_toJson (v : HistoricVariable) (options : EncodeOptions) :
    (v.toJson options).part? "name" = some (.string v.name) ∧
      (v.toJson options).part? "type" = some (.string v.value.type.tag) ∧
      (v.toJson options).part? "value" = some (v.value.encode options).value := by
  have htag := v.value.encode_typeTag options
  unfold toJson
  generalize v.value.encode options = form at htag
  simp [Json.part?, Json.member?, WireValue.members, htag]

/-- Of a value that has texts, all is fetched. -/
theorem withoutBytes_of_type {v : TypedValue} (h : v.withoutBytes.type.isHidden = false) :
    v.withoutBytes = v := by
  cases v with
  | bytes bs => cases h
  | _ => rfl

/-- What is shown of a row is a text of its value. -/
theorem rendersAs_of_shows {v : HistoricVariable} {deserialize : Bool} {name text : String}
    {type : ValueType}
    (h : (Collection.document .historic deserialize v).Shows name type text)
    (htype : type.isHidden = false) (hnan : type = .double → text ≠ "NaN") :
    v.name = name ∧ v.value.rendersAs text := by
  obtain ⟨hname, htag, hvalue⟩ :=
    part?_toJson { v with value := v.value.withoutBytes } (Http.ValueRows.options deserialize)
  have hname' := Option.some.inj (hname.symm.trans h.name)
  have htag' := Option.some.inj (htag.symm.trans h.type)
  obtain rfl : v.value.withoutBytes.type = type := ValueType.tag_injective (Json.string.inj htag')
  have hshown := h.value
  rw [show (Collection.document .historic deserialize v).part? "value" = _ from hvalue] at hshown
  rw [← withoutBytes_of_type htype]
  exact ⟨Json.string.inj hname', TypedValue.rendersAs_of_shown hshown htype hnan⟩

/-! ### Narrowed queries -/

/-- A query string asks for a name and a value, and apart from these for the same as another one, but
for no page. -/
structure Narrows (pairs pairs' : List (String × String)) (name text : String) : Prop where
  name : firstOf? pairs' "variableName" = some name
  value : firstOf? pairs' "variableValue" = some text
  others : ∀ other ∉ ["variableName", "variableValue", "firstResult", "maxResults"],
    firstOf? pairs' other = firstOf? pairs other
  firstResult : firstOf? pairs' "firstResult" = none
  maxResults : firstOf? pairs' "maxResults" = none

/-- Every query can be narrowed. -/
theorem exists_narrows (pairs : List (String × String)) (name text : String) :
    ∃ pairs', Narrows pairs pairs' name text := by
  let unpaged (other : String) : Bool := other ∉ ["firstResult", "maxResults"]
  let rest := pairs.filter fun e => unpaged e.1
  have hrest {other : String} (hname : "variableName" ≠ other) (hvalue : "variableValue" ≠ other) :
      firstOf? (("variableName", name) :: ("variableValue", text) :: rest) other
        = firstOf? rest other := by
    simp [firstOf?, hname, hvalue]
  refine ⟨("variableName", name) :: ("variableValue", text) :: rest, rfl, rfl,
    fun other hother => ?_, ?_, ?_⟩
  · simp only [List.mem_cons, List.not_mem_nil, or_false, not_or] at hother
    obtain ⟨hname, hvalue, hfirst, hmax⟩ := hother
    rw [hrest (Ne.symm hname) (Ne.symm hvalue)]
    exact Parameters.firstOf?_filter (by simp [unpaged, hfirst, hmax])
  · rw [hrest (by decide) (by decide)]
    exact Parameters.firstOf?_filter_of_not rfl
  · rw [hrest (by decide) (by decide)]
    exact Parameters.firstOf?_filter_of_not rfl

/-- A query for a value has to name the variable, and nothing else can be wrong with its filters if its
parameters are texts. -/
theorem exists_bound {ps : Parameters} (htexts : ∀ name p, ps.get? name = some p → ∃ s, p = .text s)
    (hname : ps.get? "variableName" ≠ none) : ∃ calls, QuerySpec.Bound ps spec.filters calls := by
  refine QuerySpec.exists_bound fun f hmem e hf => ?_
  cases hf with
  | text hp hs | list hp hs | paired hp _ _ hs =>
      obtain ⟨s, rfl⟩ := htexts _ _ hp
      cases hs
  | partner _ hother hfirst =>
      obtain ⟨s, rfl⟩ := htexts _ _ hother
      cases hfirst
  | flag _ _ | date _ _ => simp [spec] at hmem
  | alone _ hother =>
      simp only [spec, List.mem_cons, Filter.mk.injEq, FilterSetter.paired.injEq, reduceCtorEq,
        and_false, false_or, or_false, List.not_mem_nil] at hmem
      rw [hmem.2.1] at hother
      exact hname hother

section Narrows

variable {pairs pairs' : List (String × String)} {name text : String} {ps ps' : Parameters}

theorem Narrows.get?_eq (h : Narrows pairs pairs' name text)
    (hps : Parameters.ofPairs pairs = .ok ps) (hps' : Parameters.ofPairs pairs' = .ok ps') {other : String}
    (hother : other ∉ "variableName" :: "variableValue" :: Parameters.reserved) :
    ps'.get? other = ps.get? other := by
  have hreserved : other ∉ Parameters.reserved := fun hmem =>
    hother (List.mem_cons_of_mem _ (List.mem_cons_of_mem _ hmem))
  have hnamed : other ∉ ["variableName", "variableValue", "firstResult", "maxResults"] := by
    simp only [Parameters.reserved, List.mem_cons, List.not_mem_nil, or_false, not_or] at hother ⊢
    exact ⟨hother.1, hother.2.1, hother.2.2.1, hother.2.2.2.1⟩
  rw [Parameters.get?_of_ofPairs hps' hreserved, Parameters.get?_of_ofPairs hps hreserved,
    h.others other hnamed]

/-- A row that meets a query meets the narrowed one if it has the name and the value. -/
theorem Narrows.describedBy (h : Narrows pairs pairs' name text)
    (hps : Parameters.ofPairs pairs = .ok ps) (hps' : Parameters.ofPairs pairs' = .ok ps')
    {v : HistoricVariable} (hv : v.DescribedBy ps) (hname : v.name = name)
    (hvalue : v.value.rendersAs text) : v.DescribedBy ps' := by
  have hget {other : String}
      (hother : other ∉ "variableName" :: "variableValue" :: Parameters.reserved) :=
    h.get?_eq hps hps' hother
  have hspelled {other : String} {value s : String} (hreserved : other ∉ Parameters.reserved)
      (hfirst : firstOf? pairs' other = some value) (hs : ps'.Spells other s) : s = value := by
    obtain ⟨p, hp, hs⟩ := hs
    rw [Parameters.get?_of_ofPairs hps' hreserved, hfirst] at hp
    obtain rfl := Option.some.inj hp
    cases hs
    rfl
  obtain ⟨hinstance, hdefinition, hexecution, htask, hactivity, hcase, -, hlike, -, htenant⟩ := hv
  refine ⟨hinstance.congr (hget (by decide)), hdefinition.congr (hget (by decide)),
    hexecution.congr (hget (by decide)), htask.congr (hget (by decide)),
    hactivity.congr (hget (by decide)), hcase.congr (hget (by decide)), ?_,
    hlike.congr (hget (by decide)), ?_, htenant.congr (hget (by decide))⟩
  · intro other hother
    rw [hspelled (by decide) h.name hother, hname]
  · intro value hother other hother'
    rw [hspelled (by decide) h.value hother, hspelled (by decide) h.name hother']
    exact ⟨hname, TypedValue.foundBy_iff.mpr hvalue⟩

/-- A narrowed query is accepted like the one it is made of. -/
theorem Narrows.asks {deserialize : Bool} (h : Narrows pairs pairs' name text)
    (hasks : Http.Asks .historic pairs ps deserialize) :
    ∃ ps', Http.Asks .historic pairs' ps' deserialize ∧
      ps'.firstResult = none ∧ ps'.maxResults = none := by
  obtain ⟨ps', hps', hunpaged⟩ := Parameters.exists_unpaged h.firstResult h.maxResults
  obtain ⟨hkey, horder⟩ := Parameters.sorting_of_ofPairs hasks.parameters
  obtain ⟨hkey', horder'⟩ := Parameters.sorting_of_ofPairs hps'
  rw [h.others _ (by decide), ← hkey] at hkey'
  rw [h.others _ (by decide), ← horder] at horder'
  obtain ⟨calls, hcalls⟩ : ∃ calls, QuerySpec.Bound ps' HistoricVariable.spec.filters calls := by
    refine HistoricVariable.exists_bound (fun _ _ hp => Parameters.text_of_ofPairs hps' hp) ?_
    rw [Parameters.get?_of_ofPairs hps' (by decide), h.name]
    exact Option.some_ne_none _
  refine ⟨ps', ⟨hps', ?_, ?_⟩, hunpaged⟩
  · have hswitch : ps'.deserializeValues = ps.deserializeValues := by
      rw [Parameters.deserializeValues, Parameters.switch,
        h.get?_eq hasks.parameters hps' (by decide)]
      rfl
    exact hswitch.trans hasks.switch
  · obtain ⟨_, hbinds⟩ := hasks.bound
    cases hbinds with
    | complete _ hsorting => exact ⟨_, .complete hcalls (hsorting.congr hkey' horder')⟩

end Narrows

end HistoricVariable

namespace Http

theorem documents_of_response {documents documents' : List Json}
    (h : Response.json 200 (.array documents) = .json 200 (.array documents')) :
    documents = documents' := by
  injection h with _ _ hbody
  injection hbody with hjson
  injection hjson

/-- A row that is listed is listed again when it is asked for by what it is shown with. -/
theorem shown_again {config : Config} {s : Store} {r q : Request}
    {pairs pairs' : List (String × String)} {documents : List Json} {document : Json}
    {name text : String} {type : ValueType} (hr : r.Queries config .historic pairs)
    (hq : q.Queries config .historic pairs')
    (hnarrows : HistoricVariable.Narrows pairs pairs' name text)
    (hresponse : (serve config r s).1 = .json 200 (.array documents))
    (hdocument : document ∈ documents) (hshows : document.Shows name type text)
    (htype : type.isHidden = false) (hnan : type = .double → text ≠ "NaN") :
    ∃ found, (serve config q s).1 = .json 200 (.array found) ∧ document ∈ found := by
  obtain ⟨ps, deserialize, hasks⟩ := hr.asks_of_success (by rw [hresponse]; rfl)
  obtain ⟨rows, hperm, hrows⟩ := hr.serve_of_asks hasks s
  obtain rfl := documents_of_response (hresponse.symm.trans hrows)
  obtain ⟨row, hrow, rfl⟩ := List.mem_map.mp hdocument
  obtain ⟨hstored, hdescribed⟩ :=
    List.mem_filter.mp (hperm.mem_iff.mp ((ps.cut_sublist rows).mem hrow))
  obtain ⟨hname, hvalue⟩ := HistoricVariable.rendersAs_of_shows hshows htype hnan
  obtain ⟨ps', hasks', hunpaged⟩ := hnarrows.asks hasks
  obtain ⟨rows', hperm', hrows'⟩ := hq.serve_of_asks hasks' s
  refine ⟨_, hrows', List.mem_map_of_mem ?_⟩
  have hdescribed' : row.DescribedBy ps' :=
    hnarrows.describedBy hasks.parameters hasks'.parameters (of_decide_eq_true hdescribed) hname
      hvalue
  rw [Parameters.cut_of_unpaged hunpaged]
  exact hperm'.mem_iff.mpr (List.mem_filter.mpr ⟨hstored, decide_eq_true hdescribed'⟩)

/-- **What a row is shown with is what it is found by.**

The text of a value in a listing is the one text that the filter for values accepts for it, for
strings, truth values, integers and dates with and without a value; a double is found by its
text unless it is not a number, and other values are found by none.  So if a listing of
historic variables shows a row with a scalar in text, and the same is asked for with the name
and the text of the row, the row is shown again, whatever else is asked for. -/
theorem found_by_shown_value :
    (∀ (v : TypedValue) (options : EncodeOptions),
      (v.type.isVerbatim → ∀ raw, v.rendersAs raw ↔
        Parameter.scalarText? (v.encode options).value = some raw) ∧
      (∀ d, v = .double (some d) → d.isNaN = false →
        ∃ text, Parameter.scalarText? (v.encode options).value = some text ∧ v.rendersAs text) ∧
      (v.type.isHidden → ∀ raw, v.rendersAs raw = false)) ∧
    ∀ (config : Config) (s : Store) (r q : Request) (pairs pairs' : List (String × String))
      (documents : List Json) (name text : String) (type : ValueType),
      r.Queries config .historic pairs → q.Queries config .historic pairs' →
      HistoricVariable.Narrows pairs pairs' name text →
      (serve config r s).1 = .json 200 (.array documents) →
      ∀ document ∈ documents, document.Shows name type text → type.isHidden = false →
        (type = .double → text ≠ "NaN") →
        ∃ found, (serve config q s).1 = .json 200 (.array found) ∧ document ∈ found := by
  refine ⟨fun v options => ⟨fun h => v.rendersAs_verbatim_iff h options, ?_, ?_⟩, ?_⟩
  · rintro d rfl hnan
    exact TypedValue.rendersAs_double hnan options
  · exact fun h => v.rendersAs_hidden h
  · intro config s r q pairs pairs' documents name text type hr hq hnarrows hresponse document
      hdocument hshows htype hnan
    exact shown_again hr hq hnarrows hresponse hdocument hshows htype hnan

/-- One half is found by the text it is shown with, in a listing that asks for something else as
well; a truth value has its word as its text, and the empty value has none. -/
theorem found_by_shown_value_half :
    let half : Double := ⟨false, 0x3FE0000000000000, by decide⟩
    let row : HistoricVariable :=
      ⟨"h1", "ratio", .double (some half), none, none, some "p1", none, none, none, none, none, none,
        none, none, none, "CREATED", none⟩
    let s : Store :=
      { Store.empty with historic := [row, { row with processInstanceId := some "p2" }] }
    let r : Request :=
      ⟨.get, "/engine-rest/history/variable-instance", "processInstanceId=p1", none, []⟩
    let q : Request :=
      { r with queryString := "variableName=ratio&variableValue=0.5&processInstanceId=p1" }
    let document := row.toJson (ValueRows.options true)
    (serve Config.standard r s).1 = .json 200 (.array [document]) ∧
      document.Shows "ratio" .double "0.5" ∧
      (∃ found, (serve Config.standard q s).1 = .json 200 (.array found) ∧ document ∈ found) ∧
      row.value.rendersAs "0.5" ∧
      (∀ raw, (TypedValue.boolean (some true)).rendersAs raw ↔ raw = "true") ∧
      ∀ raw, TypedValue.null.rendersAs raw = false := by
  intro half row s r q document
  let pairs := [("processInstanceId", "p1")]
  let pairs' := ("variableName", "ratio") :: ("variableValue", "0.5") :: pairs
  let ps : Parameters :=
    { Parameters.empty with filters := .ofList [("processInstanceId", .text "p1")] }
  have hr : r.Queries Config.standard .historic pairs := ⟨rfl, rfl, by decide +kernel⟩
  have hq : q.Queries Config.standard .historic pairs' := ⟨rfl, rfl, by decide +kernel⟩
  have hnarrows : HistoricVariable.Narrows pairs pairs' "ratio" "0.5" := by
    refine ⟨rfl, rfl, fun other hother => ?_, rfl, rfl⟩
    simp only [List.mem_cons, List.not_mem_nil, or_false, not_or] at hother
    rw [firstOf?, List.find?_cons_of_neg (by simpa using Ne.symm hother.1),
      List.find?_cons_of_neg (by simpa using Ne.symm hother.2.1)]
    rfl
  have hshows : document.Shows "ratio" .double "0.5" := ⟨rfl, rfl, by decide +kernel⟩
  have hasks : Asks .historic pairs ps true := ⟨rfl, rfl, _, QuerySpec.binds_iff.mpr rfl⟩
  have hresponse : (serve Config.standard r s).1 = .json 200 (.array [document]) := by
    obtain ⟨rows, hperm, hrows⟩ := hr.serve_of_asks hasks s
    have hfilter :
        ((Store.rows .historic s).filter fun row => Collection.Describes .historic ps row)
        = [row] := by
      rw [show Store.rows .historic s = [row, { row with processInstanceId := some "p2" }] from rfl,
        List.filter_cons_of_pos (by decide +kernel), List.filter_cons_of_neg (by decide +kernel),
        List.filter_nil]
    rw [hfilter, List.perm_singleton] at hperm
    rw [hrows, hperm]
    rfl
  refine ⟨hresponse, hshows, ?_, ?_, ?_, ?_⟩
  · exact found_by_shown_value.2 _ s r q pairs pairs' _ _ _ _ hr hq hnarrows hresponse document
      List.mem_cons_self hshows rfl fun _ => by decide
  · obtain ⟨text, htext, hrenders⟩ := (found_by_shown_value.1 row.value .full).2.1 half rfl rfl
    have hhalf : Parameter.scalarText? (row.value.encode .full).value = some "0.5" := by
      decide +kernel
    rwa [Option.some.inj (hhalf.symm.trans htext)]
  · intro raw
    have htrue := (found_by_shown_value.1 (.boolean (some true)) .full).1 rfl raw
    exact htrue.trans (Option.some_inj.trans eq_comm)
  · exact (found_by_shown_value.1 .null .full).2.2 rfl

end Http

end CaseGateway
