/-
What a request sets can be read back.

There are four kinds of requests that set variables: putting one, posting modifications
and deletions, uploading content, and taking an execution through a transition.  Each is
read as one command in which the removals stand before the new values, and no variable is
set twice, so the value a request gives to a name is the last change of that name.
`Request.Sets` says which value that is, in terms of what the request contains; the
readers come to exactly that or refuse the request.

From there on it does not matter any more where a command came from.  Its last change of
a name decides what the execution sees under the name, and a listing of variables shows
what the execution sees.
-/
import CaseGateway.Proofs.Http.Contents
import CaseGateway.Proofs.Http.Effect
import CaseGateway.Proofs.Store.LastChange

namespace CaseGateway.Http

/-! ### Commands that are read from requests -/

/-- A command on an execution that leaves a value under a name, set in a scope. -/
structure Leaves (c : Command) (id name : String) (value : TypedValue) (scope : VariableScope) :
    Prop where
  execution : c.execution = id
  last : lastChange? name c.changes = some (.set name value scope)

theorem leaves_setVariable (id name : String) (value : TypedValue) (scope : VariableScope) :
    Leaves ⟨id, [.setVariable name value scope]⟩ id name value scope where
  execution := rfl
  last := by simp [Command.changes, CommandCall.changes, lastChange?, VariableChange.name]

/-- Values that are set after everything else, each name once, are what is left. -/
theorem leaves_append {id name : String} {value : TypedValue} {scope : VariableScope}
    {removals settings : List CommandCall}
    (hnames : (settings.flatMap CommandCall.changes).Pairwise fun a b => a.name ≠ b.name)
    (hmem : .set name value scope ∈ settings.flatMap CommandCall.changes) :
    Leaves ⟨id, removals ++ settings⟩ id name value scope where
  execution := rfl
  last := by
    have hlast := lastChange?_of_mem hnames hmem
    unfold Command.changes
    rw [List.flatMap_append, lastChange?_append]
    rw [VariableChange.name] at hlast
    rw [hlast, Option.some_or]

theorem leaves_setVariables {id name : String} {value : TypedValue} {values : Dictionary TypedValue}
    (h : values.get? name = some value) (scope : VariableScope) (removals : List CommandCall) :
    Leaves ⟨id, removals ++ [.setVariables values scope]⟩ id name value scope := by
  have hchanges : [CommandCall.setVariables values scope].flatMap CommandCall.changes
      = values.entries.map fun e => .set e.1 e.2 scope := by simp [CommandCall.changes]
  refine leaves_append ?_ ?_
  · rw [hchanges, List.pairwise_map]
    exact values.entries_pairwise_ne
  · rw [hchanges, List.mem_map]
    exact ⟨(name, value), Dictionary.mem_entries_iff.mpr h, rfl⟩

section Readers

variable {formats : DataFormats} {r : Request} {c : Command} {id segment name : String}
  {value : TypedValue} {scope : VariableScope} {wire : WireValue}

theorem leaves_readPut (h : readPut formats r id segment name = .ok c)
    (hscope : scopeOf segment = .ok scope) (hwire : r.read .empty WireValue.ofJson? = .ok wire)
    (hvalue : formats.decode wire = .ok value) : Leaves c id name value scope := by
  have h := ok_of_bind hscope h
  have h := ok_of_bind hwire h
  have h := ok_of_bind (valueFor_eq_ok.mpr hvalue) h
  rw [← pure_eq_ok.mp h]
  exact leaves_setVariable id name value scope

theorem leaves_readUpload {parts : List Part}
    (h : readUpload formats id segment name (some parts) = .ok c)
    (hscope : scopeOf segment = .ok scope) (hvalue : uploadedValue formats name parts = .ok value) :
    Leaves c id name value scope := by
  have h := ok_of_bind hscope h
  have h := ok_of_bind hvalue h
  rw [← pure_eq_ok.mp h]
  exact leaves_setVariable id name value scope

theorem leaves_readModification {patch : PatchBody} {wires : Dictionary WireValue}
    (h : readModification formats r id segment = .ok c) (hscope : scopeOf segment = .ok scope)
    (hpatch : r.read .empty PatchBody.ofJson? = .ok patch)
    (hwires : patch.modifications = some wires) (hwire : wires.get? name = some wire)
    (hvalue : formats.decode wire = .ok value) : Leaves c id name value scope := by
  have h := ok_of_bind hscope h
  have h := ok_of_bind hpatch h
  rw [hwires] at h
  obtain ⟨values?, hread, h⟩ := bind_eq_ok.mp h
  obtain ⟨values, hvalues, hsome⟩ := bind_eq_ok.mp hread
  rw [← pure_eq_ok.mp hsome] at h
  rw [← pure_eq_ok.mp h]
  exact leaves_setVariables (get?_readValues hvalues hwire hvalue) scope _

theorem leaves_readTrigger {t : Transition} {body : TriggerBody} {isLocal : Bool}
    (h : readTrigger formats r id t = .ok c) (hbody : r.read .empty TriggerBody.ofJson? = .ok body)
    (hwire : body.settings.get? name = some (wire, isLocal))
    (hvalue : formats.decode wire = .ok value) :
    Leaves c id name value (scopeOfMark isLocal) := by
  obtain ⟨body', settings, hbody', hsettings, rfl⟩ := readTrigger_eq_ok.mp h
  obtain rfl : body' = body := Except.ok.inj (hbody'.symm.trans hbody)
  have hnames : (settings.flatMap CommandCall.changes).map VariableChange.name
      = body'.settings.entries.map (·.1) := by
    have hkeys : settings.map (fun call => call.changes.map VariableChange.name)
        = body'.settings.entries.map fun e => [e.1] := by
      refine map_of_forall₂ hsettings ?_
      rintro e call ⟨value, -, rfl⟩
      rfl
    rw [List.map_flatMap, List.flatMap_def, hkeys, ← List.flatMap_def]
    exact List.map_eq_flatMap.symm
  refine leaves_append ?_ ?_
  · rw [← List.pairwise_map (R := (· ≠ ·)), hnames, List.pairwise_map]
    exact body'.settings.entries_pairwise_ne
  · obtain ⟨call, hcall, value', hvalue', rfl⟩ :=
      exists_of_forall₂ hsettings (Dictionary.mem_entries_iff.mpr hwire)
    obtain rfl : value' = value := Except.ok.inj (hvalue'.symm.trans hvalue)
    exact List.mem_flatMap.mpr ⟨_, hcall, List.mem_singleton_self _⟩

end Readers

/-! ### Requests that set a variable -/

/-- A request that sets a variable of an execution to a value, as its route and its body say. -/
inductive Request.Sets (config : Config) (r : Request) (id name : String) (value : TypedValue) :
    VariableScope → Prop
  /-- One variable is put. -/
  | put {raw : Route} {segment : String} {scope : VariableScope} {wire : WireValue}
    (leads : r.LeadsTo config raw (.executionVariable id segment name)) (method : r.method = .put)
    (within : IsScope segment scope) (body : r.Contains Json.IsWire .empty wire)
    (decoded : config.formats.decode wire = .ok value) : Sets config r id name value scope
  /-- The variable is among the modifications, whatever is to be deleted. -/
  | modification {raw : Route} {segment : String} {scope : VariableScope} {patch : PatchBody}
    {wires : Dictionary WireValue} {wire : WireValue}
    (leads : r.LeadsTo config raw (.executionVariables id segment)) (method : r.method = .post)
    (within : IsScope segment scope) (body : r.Contains Json.IsPatch .empty patch)
    (modifications : patch.modifications = some wires) (modified : wires.get? name = some wire)
    (decoded : config.formats.decode wire = .ok value) : Sets config r id name value scope
  /-- The content of the variable is uploaded. -/
  | upload {raw : Route} {segment boundary : String} {scope : VariableScope} {parts : List Part}
    (leads : r.LeadsTo config raw (.executionData id segment name)) (method : r.method = .post)
    (within : IsScope segment scope)
    (bounded : Multipart.boundary? r.contentType = some boundary)
    (body : Multipart.parts? boundary r.body = some parts)
    (uploaded : IsUpload config.formats parts value) : Sets config r id name value scope
  /-- The variable goes with a transition, marked as local or not. -/
  | transition {raw : Route} {t : Transition} {changes : TriggerBody} {wire : WireValue}
    {isLocal : Bool} (leads : r.LeadsTo config raw (.transition id t))
    (body : r.Contains Json.IsTrigger .empty changes)
    (setting : changes.settings.get? name = some (wire, isLocal))
    (decoded : config.formats.decode wire = .ok value) :
    Sets config r id name value (if isLocal then .localOnly else .global)

namespace Exchange

/-- An exchange that has a variable set, unless it is settled with something else than success. -/
def Setting (id name : String) (value : TypedValue) (scope : VariableScope) (x : Exchange) : Prop :=
  (∃ response, x = .settled response ∧ response.status ≠ 204) ∨
    ∃ c, Leaves c id name value scope ∧ Commanding c x

section

variable {id name : String} {value : TypedValue} {scope : VariableScope}

theorem setting_given {α : Type} {input : Except RestError α} {x : α → Exchange}
    (h : ∀ a, input = .ok a → (x a).Setting id name value scope) :
    (given input x).Setting id name value scope := by
  cases input with
  | ok a => exact h a rfl
  | error e => exact Or.inl ⟨_, rfl, ofError_status_ne e⟩

theorem setting_withBody (config : Config) (r : Request) {x : Exchange}
    (h : x.Setting id name value scope) : (withBody config r x).Setting id name value scope := by
  unfold withBody
  split
  · exact Or.inl ⟨_, rfl, by decide⟩
  · exact h

theorem setting_attempting {c : Command} (h : Leaves c id name value scope) (attempt : Attempt) :
    (attempting attempt (.execute c) done).Setting id name value scope :=
  Or.inr ⟨c, h, commanding_attempting attempt c⟩

end

end Exchange

/-- A request that sets a variable comes to a command that leaves the value, or is refused. -/
theorem Request.Sets.setting {config : Config} {r : Request} {id name : String} {value : TypedValue}
    {scope : VariableScope} (h : r.Sets config id name value scope) :
    (exchange config r).Setting id name value scope := by
  cases h with
  | put leads method within body decoded =>
      rw [exchange_of_leadsTo leads]
      simp only [dispatch, method]
      refine Exchange.setting_withBody _ _ (Exchange.setting_given ?_)
      intro c hc
      have hscope := scopeOf_eq_ok_iff.mpr within
      have hbody := (Request.read_eq_ok_iff Json.recognizes_wire).mpr body
      exact Exchange.setting_attempting (leaves_readPut hc hscope hbody decoded) _
  | modification leads method within body modifications modified decoded =>
      rw [exchange_of_leadsTo leads, dispatch, if_pos method]
      refine Exchange.setting_withBody _ _ (Exchange.setting_given ?_)
      intro c hc
      have hscope := scopeOf_eq_ok_iff.mpr within
      have hbody := (Request.read_eq_ok_iff Json.recognizes_patch).mpr body
      exact Exchange.setting_attempting
        (leaves_readModification hc hscope hbody modifications modified decoded) _
  | upload leads method within bounded body uploaded =>
      rw [exchange_of_leadsTo leads, dispatch, if_pos method]
      simp only [withParts, bounded, body]
      refine Exchange.setting_given ?_
      intro c hc
      have hscope := scopeOf_eq_ok_iff.mpr within
      by_cases hlong : config.maxUploadBytes < r.body.length
      · rw [if_pos hlong] at hc
        have hc := ok_of_bind hscope hc
        exact absurd hc (by simp)
      · rw [if_neg hlong] at hc
        have hleaves := leaves_readUpload hc hscope (uploadedValue_eq_ok_iff.mpr uploaded)
        exact Exchange.setting_attempting hleaves _
  | transition leads body setting decoded =>
      rw [exchange_of_leadsTo leads]
      refine Exchange.setting_withBody _ _ (Exchange.setting_given ?_)
      intro c hc
      have hbody := (Request.read_eq_ok_iff Json.recognizes_trigger).mpr body
      exact Or.inr ⟨c, leaves_readTrigger hc hbody setting decoded,
        .trigger _ ⟨rfl, fun _ => ⟨_, rfl⟩⟩⟩

theorem Request.Sets.commanded {config : Config} {r : Request} {id name : String}
    {value : TypedValue} {scope : VariableScope} (h : r.Sets config id name value scope) {s : Store}
    (hstatus : (serve config r s).1.status = 204) :
    ∃ c, Leaves c id name value scope ∧ s.Commanded c (serve config r s).2 := by
  rw [serve_status] at hstatus
  rw [serve_state]
  rcases h.setting with ⟨response, hsettled, hne⟩ | ⟨c, hleaves, hcommanding⟩
  · rw [hsettled] at hstatus
    exact absurd hstatus hne
  · rcases hcommanding.run_cases s with ⟨report, hrun⟩ | ⟨s', hs', hrun⟩
    · rw [hrun] at hstatus
      exact absurd hstatus (ofError_status_ne report)
    · rw [hrun]
      exact ⟨c, hleaves, hs'⟩

/-! ### Listings of what an execution sees -/

/-- A request for the variables of an execution in a scope. -/
structure Request.Lists (config : Config) (r : Request) (id : String) (scope : VariableScope)
    (deserialize : Bool) : Prop where
  method : r.method = .get
  leads : ∃ raw segment, r.LeadsTo config raw (.executionVariables id segment) ∧
    readView r segment = .ok (scope, deserialize)

/-- A listing shows the variables that the store makes out in the scope. -/
theorem Request.Lists.serve_scoped {config : Config} {r : Request} {id : String}
    {scope : VariableScope} {deserialize : Bool} (h : r.Lists config id scope deserialize)
    {s : Store} {values : Dictionary TypedValue} (hvalues : s.scopedVariables id scope = .ok values) :
    (serve config r s).1
      = .json 200 (.ofDictionary
          (values.map fun _ value => (value.encode ⟨true, deserialize⟩).toJson)) := by
  obtain ⟨raw, segment, hleads, hview⟩ := h.leads
  rw [serve_of_leadsTo hleads (by rw [h.method]; decide)]
  simp [dispatch, h.method, getVariables, hview, Exchange.given, Exchange.asking, Exchange.run,
    CaseEngine.answer, Store.answer, hvalues, Exchange.report]

/-- The listing of the variables of a known execution shows what it sees. -/
theorem Request.Lists.serve_eq {config : Config} {r : Request} {id : String}
    {scope : VariableScope} {deserialize : Bool} (h : r.Lists config id scope deserialize)
    {s : Store} (hunique : s.UniqueVariables) {e : CaseExecution}
    (he : s.executions.get? id = some e) :
    ∃ shown, (serve config r s).1 = .json 200 (.ofDictionary shown) ∧
      ∀ name, shown.get? name = (s.variableMap.visible id e.caseInstance name scope).map
        fun value => (value.encode ⟨true, deserialize⟩).toJson := by
  obtain ⟨values, hvalues, hvisible⟩ := Store.scopedVariables_spec hunique he scope
  refine ⟨_, h.serve_scoped hvalues, ?_⟩
  intro name
  rw [Dictionary.get?_map, hvisible]

/-- **What a request sets can be read back.**

Whenever a request that sets a variable is answered 204, the variable is in every listing
of what its execution sees, with the value in the precision in which it travels.  If it
was set in the local scope it is in the listings of that scope too.  Nothing is asked of
the rest of the request, nor of the variables that were there before. -/
theorem serve_reads_back (config : Config) (s : Store) (hunique : s.UniqueVariables) (r : Request)
    (id name : String) (value : TypedValue) (scope : VariableScope)
    (hsets : r.Sets config id name value scope) (hstatus : (serve config r s).1.status = 204)
    (q : Request) (scope' : VariableScope) (deserialize : Bool)
    (hlists : q.Lists config id scope' deserialize)
    (hscope : scope' = .global ∨ scope = .localOnly) :
    ∃ shown, (serve config q (serve config r s).2).1 = .json 200 (.ofDictionary shown) ∧
      shown.get? name = some (value.normalized.encode ⟨true, deserialize⟩).toJson := by
  obtain ⟨c, hleaves, hcommanded⟩ := hsets.commanded hstatus
  obtain ⟨e, e', -, he', hcase, hunique', hmap⟩ := hcommanded.spec hunique
  rw [hleaves.execution] at he' hmap
  obtain ⟨shown, hserve, hshown⟩ := hlists.serve_eq hunique' he'
  refine ⟨shown, hserve, ?_⟩
  rw [hshown, hcase, hmap, VariableMap.visible_foldl_change hscope c.changes hleaves.last]
  rfl

/-- What is put, posted beside deletions of itself, uploaded, and sent with a transition is shown by
the listings of the task: the leap second as the one before it, and an object that is not to be
decoded by its payload alone. -/
theorem serve_reads_back_repaint :
    let request (method : Method) (path text : String) : Request :=
      ⟨method, "/engine-rest/case-execution/task/" ++ path, "", none, Text.toUtf8 text⟩
    let put := request .put "localVariables/due"
      "\x7b\"value\":\"2016-12-31T23:59:60\",\"type\":\"Date\"\x7d"
    let patch := request .post "variables"
      ("\x7b\"modifications\":\x7b\"color\":\x7b\"value\":\"green\"\x7d\x7d," ++
        "\"deletions\":[\"color\",\"color\"]\x7d")
    let start := request .post "manual-start"
      ("\x7b\"variables\":\x7b\"size\":\x7b\"value\":7,\"local\":true\x7d\x7d," ++
        "\"deletions\":[\x7b\"name\":\"size\"\x7d]\x7d")
    let upload : Request :=
      { request .post "variables/photo/data" "" with
        contentType := some "multipart/form-data; boundary=cut"
        body := Text.toUtf8 ("\r\n".intercalate
          ["--cut", "Content-Disposition: form-data; name=type", "", "Paint",
            "--cut", "Content-Disposition: form-data; name=data",
            "Content-Type: Text/Plain", "", "blue", "--cut--"]) }
    let all := request .get "variables" ""
    let own := request .get "localVariables" ""
    let raw : Request := { all with queryString := "deserializeValues=false" }
    let dueText := "\x7b\"value\":\"2016-12-31T23:59:59\",\"type\":\"Date\"\x7d"
    let colorText := "\x7b\"value\":\"green\",\"type\":\"String\"\x7d"
    let sizeText := "\x7b\"value\":7,\"type\":\"Integer\"\x7d"
    let photoText := "\x7b\"value\":null,\"type\":\"Object\"," ++
      "\"valueInfo\":\x7b\"objectTypeName\":\"Paint\"," ++
      "\"serializationDataFormat\":\"text/plain\"\x7d," ++
      "\"serializedValue\":\x7b\"value\":\"blue\",\"configuration\":\x7b\x7d\x7d\x7d"
    let shows (r q : Request) (name text : String) : Prop :=
      ∃ shown j, (serve Config.standard q (serve Config.standard r Store.paintShop).2).1
          = .json 200 (.ofDictionary shown) ∧ shown.get? name = some j ∧ j.text = text
    shows put all "due" dueText ∧
      shows put own "due" dueText ∧
      shows patch all "color" colorText ∧
      shows start all "size" sizeText ∧
      shows start own "size" sizeText ∧
      shows upload raw "photo" photoText := by
  intro request put patch start upload all own raw dueText colorText sizeText photoText shows
  have hshows {r q : Request} {name text : String} {value : TypedValue}
      {scope scope' : VariableScope} {deserialize : Bool}
      (hsets : r.Sets Config.standard "task" name value scope)
      (htext : (value.normalized.encode ⟨true, deserialize⟩).toJson.text = text)
      (hstatus : (serve Config.standard r Store.paintShop).1.status = 204)
      (hlists : q.Lists Config.standard "task" scope' deserialize)
      (hscope : scope' = .global ∨ scope = .localOnly) : shows r q name text := by
    obtain ⟨shown, hserve, hshown⟩ := serve_reads_back Config.standard Store.paintShop (by decide) r
      "task" name value scope hsets hstatus q scope' deserialize hlists hscope
    exact ⟨shown, _, hserve, hshown, htext⟩
  have hall : all.Lists Config.standard "task" .global true :=
    ⟨rfl, .executionVariables "task" "variables", "variables", by decide +kernel,
      by decide +kernel⟩
  have hown : own.Lists Config.standard "task" .localOnly true :=
    ⟨rfl, .executionVariables "task" "localVariables", "localVariables", by decide +kernel,
      by decide +kernel⟩
  have hraw : raw.Lists Config.standard "task" .global false :=
    ⟨rfl, .executionVariables "task" "variables", "variables", by decide +kernel,
      by decide +kernel⟩
  -- What the bodies stand for is computed, and only then turned into what they contain.
  have hput : (do
      let wire ← (put.read .empty WireValue.ofJson?).toOption
      let value ← (Config.standard.formats.decode wire).toOption
      some (value.normalized.encode ⟨true, true⟩).toJson.text)
        = some dueText := by decide +kernel
  have hpatch : (do
      let changes ← (patch.read .empty PatchBody.ofJson?).toOption
      let wires ← changes.modifications
      let wire ← wires.get? "color"
      let value ← (Config.standard.formats.decode wire).toOption
      some (value.normalized.encode ⟨true, true⟩).toJson.text)
        = some colorText := by decide +kernel
  have hstart : (do
      let changes ← (start.read .empty TriggerBody.ofJson?).toOption
      let setting ← changes.settings.get? "size"
      let value ← (Config.standard.formats.decode setting.1).toOption
      some (setting.2, (value.normalized.encode ⟨true, true⟩).toJson.text))
        = some (true, sizeText) := by decide +kernel
  have hupload : (do
      let parts ← Multipart.parts? "cut" upload.body
      let value ← (uploadedValue Config.standard.formats "photo" parts).toOption
      some (value.normalized.encode ⟨true, false⟩).toJson.text)
        = some photoText := by decide +kernel
  simp only [Option.bind_eq_bind, Option.bind_eq_some_iff, toOption_eq_some, Option.some.injEq,
    Prod.mk.injEq] at hput hpatch hstart hupload
  obtain ⟨wire, hwire, due, hdue, hdueText⟩ := hput
  obtain ⟨changes, hchanges, wires, hwires, colorWire, hcolorWire, color, hcolor, hcolorText⟩ := hpatch
  obtain ⟨trigger, htrigger, ⟨sizeWire, isLocal⟩, hsizeWire, size, hsize, rfl, hsizeText⟩ := hstart
  obtain ⟨parts, hparts, photo, hphoto, hphotoText⟩ := hupload
  have hputLeads : put.LeadsTo Config.standard (.executionVariable "task" "localVariables" "due")
      (.executionVariable "task" "localVariables" "due") := by decide +kernel
  have hpatchLeads : patch.LeadsTo Config.standard (.executionVariables "task" "variables")
      (.executionVariables "task" "variables") := by decide +kernel
  have hstartLeads : start.LeadsTo Config.standard (.transition "task" .manualStart)
      (.transition "task" .manualStart) := by decide +kernel
  have huploadLeads : upload.LeadsTo Config.standard (.executionData "task" "variables" "photo")
      (.executionData "task" "variables" "photo") := by decide +kernel
  have hputs : put.Sets Config.standard "task" "due" due .localOnly :=
    .put hputLeads rfl .localOnly ((Request.read_eq_ok_iff Json.recognizes_wire).mp hwire) hdue
  have hpatches : patch.Sets Config.standard "task" "color" color .global :=
    .modification hpatchLeads rfl .global
      ((Request.read_eq_ok_iff Json.recognizes_patch).mp hchanges) hwires hcolorWire hcolor
  have hstarts : start.Sets Config.standard "task" "size" size .localOnly :=
    .transition hstartLeads ((Request.read_eq_ok_iff Json.recognizes_trigger).mp htrigger) hsizeWire
      hsize
  have huploads : upload.Sets Config.standard "task" "photo" photo .global :=
    .upload huploadLeads rfl .global (by decide +kernel) hparts (uploadedValue_eq_ok_iff.mp hphoto)
  have hputStatus : (serve Config.standard put Store.paintShop).1.status = 204 := by decide +kernel
  have hstartStatus : (serve Config.standard start Store.paintShop).1.status = 204 := by
    decide +kernel
  exact ⟨hshows hputs hdueText hputStatus hall (Or.inl rfl),
    hshows hputs hdueText hputStatus hown (Or.inr rfl),
    hshows hpatches hcolorText (by decide +kernel) hall (Or.inl rfl),
    hshows hstarts hsizeText hstartStatus hall (Or.inl rfl),
    hshows hstarts hsizeText hstartStatus hown (Or.inr rfl),
    hshows huploads hphotoText (by decide +kernel) hraw (Or.inl rfl)⟩

end CaseGateway.Http
