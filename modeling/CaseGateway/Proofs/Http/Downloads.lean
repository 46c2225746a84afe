/-
What is uploaded can be downloaded.

The content of an upload is stored as a byte array, or with a type as an object in a format, and
there are two ways to it: under the name, through the scope that it was uploaded to, and under the
id of its row.  Both hand out what the value carries, and a value that was read from an upload
carries the bytes of the part `data` as they are.

What is handed out beside the bytes is the format, so only formats that may stand in a header are
of use.  A byte array has none, and is handed out as a stream of octets whatever its part said.
-/
import CaseGateway.Proofs.Http.ReadYourWrites
import CaseGateway.Proofs.Store.Endings
import CaseGateway.Proofs.Store.Selection

namespace CaseGateway

/-- A value that has binary content, to be handed out under a content type. -/
inductive TypedValue.Carries (content : Bytes) : String → TypedValue → Prop
  | bytes : Carries content "application/octet-stream" (.bytes (some content))
  | object {o : ObjectValue} {format : String} (data : o.data = some content)
    (named : o.format = some format) : Carries content format (.object o)

theorem TypedValue.Carries.normalized {content : Bytes} {contentType : String} {value : TypedValue}
    (h : value.Carries content contentType) : value.normalized = value := by
  cases h <;> rfl

namespace Http

/-! ### What an upload stands for -/

/-- The content type under which an upload is handed out again, if it is accepted: that of octets
if it has no type, and otherwise the format that the part `data` names, or the standard one. -/
inductive KeptAs (formats : DataFormats) (parts : List Part) (data : Part) : String → Prop
  | octets (untyped : lastPart? parts "type" = none) :
    KeptAs formats parts data "application/octet-stream"
  | standard {type : Part} (typed : lastPart? parts "type" = some type)
    (unnamed : data.contentType = none) : KeptAs formats parts data formats.standard
  | named {type : Part} {mediaType : MediaType} (typed : lastPart? parts "type" = some type)
    (named : data.contentType = some mediaType) (supported : formats.supports mediaType.text) :
    KeptAs formats parts data (DataFormats.canonical mediaType.text)

section

variable {formats : DataFormats} {parts : List Part} {data : Part} {name contentType : String}

/-- What is kept under a content type is read as a value that carries it. -/
theorem KeptAs.value (h : KeptAs formats parts data contentType) (name : String)
    (hdata : lastPart? parts "data" = some data) :
    ∃ value, uploadedValue formats name parts = .ok value ∧
      value.Carries data.content contentType := by
  have hread : ∃ value, formats.decodeUpload data.content ((lastPart? parts "type").map (·.text))
      (data.contentType.map (·.text)) = .ok value ∧ value.Carries data.content contentType := by
    cases h with
    | octets untyped =>
        rw [untyped]
        exact ⟨_, rfl, .bytes⟩
    | standard typed unnamed =>
        rw [typed, unnamed]
        exact ⟨_, rfl, .object rfl rfl⟩
    | named typed named supported =>
        rw [typed, named]
        exact ⟨_, decodeUpload_typed_eq_ok_iff.mpr ⟨_, .named supported, rfl⟩, .object rfl rfl⟩
  obtain ⟨value, hvalue, hcarries⟩ := hread
  exact ⟨value, uploadedValue_eq_ok.mpr ⟨data, hdata, hvalue⟩, hcarries⟩

/-- What has a type is kept under its format. -/
theorem keptAs_of_isFormat {type : Part} (typed : lastPart? parts "type" = some type)
    (h : IsFormat formats data.contentType contentType) :
    KeptAs formats parts data contentType := by
  generalize hnamed : data.contentType = mediaType at h
  cases h with
  | standard => exact .standard typed hnamed
  | named supported => exact .named typed hnamed supported

/-- Whatever is read is kept under a content type. -/
theorem exists_keptAs {value : TypedValue} (h : uploadedValue formats name parts = .ok value)
    (hdata : lastPart? parts "data" = some data) :
    ∃ contentType, KeptAs formats parts data contentType := by
  obtain ⟨data', hdata', hvalue⟩ := uploadedValue_eq_ok.mp h
  obtain rfl : data' = data := Option.some.inj (hdata'.symm.trans hdata)
  cases htype : lastPart? parts "type" with
  | none => exact ⟨_, .octets htype⟩
  | some type =>
      rw [htype] at hvalue
      obtain ⟨format, hformat, -⟩ := decodeUpload_typed_eq_ok_iff.mp hvalue
      exact ⟨format, keptAs_of_isFormat htype hformat⟩

end

/-! ### Handing out content -/

/-- The response that hands out content. -/
def Response.content (contentType : String) (bytes : Bytes) : Response :=
  ⟨200, some contentType, .bytes bytes⟩

theorem binaryResponse_of_carries {content : Bytes} {contentType : String} {value : TypedValue}
    (h : value.Carries content contentType) (hheader : Response.isHeaderText contentType)
    (missing : Missing) (notBinary : NotBinary) :
    binaryResponse (some value) missing notBinary = .ok (.content contentType content) := by
  have hbinary : Response.binary contentType content = .content contentType content := by
    rw [Response.binary, if_pos hheader]
    rfl
  rw [← hbinary]
  cases h with
  | bytes => rfl
  | object data named => simp [binaryResponse, binaryContent, data, named]

/-- Formats that may all stand in a header. -/
def Sendable (formats : DataFormats) : Prop :=
  ∀ format ∈ formats.standard :: formats.names.keys, Response.isHeaderText format

instance (formats : DataFormats) : Decidable (Sendable formats) :=
  inferInstanceAs (Decidable (∀ format ∈ formats.standard :: formats.names.keys,
    Response.isHeaderText format))

theorem KeptAs.isHeaderText {formats : DataFormats} {parts : List Part} {data : Part}
    {contentType : String} (h : KeptAs formats parts data contentType)
    (hformats : Sendable formats) : Response.isHeaderText contentType := by
  cases h with
  | octets untyped => decide +kernel
  | standard typed unnamed => exact hformats _ List.mem_cons_self
  | named typed named supported =>
      exact hformats _ (List.mem_cons_of_mem _ (Dictionary.mem_keys_iff.mpr supported))

/-! ### Requests -/

/-- A request that uploads content in parts. -/
structure Request.Uploads (config : Config) (r : Request) (id name : String)
    (scope : VariableScope) (parts : List Part) : Prop where
  method : r.method = .post
  leads : ∃ raw segment, r.LeadsTo config raw (.executionData id segment name) ∧
    scopeOf segment = .ok scope
  body : ∃ boundary, Multipart.boundary? r.contentType = some boundary ∧
    Multipart.parts? boundary r.body = some parts

/-- A request for the content of a variable of an execution. -/
structure Request.Downloads (config : Config) (r : Request) (id name : String)
    (scope : VariableScope) : Prop where
  method : r.method = .get
  leads : ∃ raw segment, r.LeadsTo config raw (.executionData id segment name) ∧
    scopeOf segment = .ok scope

/-- A request for the content of the variable in a row. -/
structure Request.DownloadsRow (config : Config) (r : Request) (id : String) : Prop where
  method : r.method = .get
  leads : ∃ raw, r.LeadsTo config raw (.instanceData id)

section

variable {config : Config} {r : Request} {id name : String} {scope : VariableScope} {s : Store}
  {content : Bytes} {contentType : String} {value : TypedValue}

theorem Request.Downloads.serve_content (h : r.Downloads config id name scope)
    {values : Dictionary TypedValue} (hvalues : s.scopedVariables id scope = .ok values)
    (hvalue : values.get? name = some value) (hcarries : value.Carries content contentType)
    (hheader : Response.isHeaderText contentType) :
    (serve config r s).1 = .content contentType content := by
  obtain ⟨raw, segment, hleads, hscope⟩ := h.leads
  rw [serve_of_leadsTo hleads (by rw [h.method]; decide)]
  simp [dispatch, h.method, getVariableData, hscope, Exchange.given, Exchange.attempting,
    Exchange.run, CaseEngine.answer, Store.answer, hvalues, Except.map, hvalue, Exchange.report,
    binaryResponse_of_carries hcarries hheader]

theorem Request.DownloadsRow.serve_content {row : VariableInstance}
    (h : r.DownloadsRow config row.id) (hrow : row ∈ s.instances)
    (hsole : s.instances.countP (·.id == row.id) = 1)
    (hcarries : row.value.Carries content contentType)
    (hheader : Response.isHeaderText contentType) :
    (serve config r s).1 = .content contentType content := by
  obtain ⟨raw, hleads⟩ := h.leads
  have hquery : Store.query s.instances
      [variableRows.choose row.id, .disableObjectDeserialization] .single = .ok (some row) :=
    Store.query_single hrow (beq_self_eq_true _) hsole
  have hanswer : Store.answer (.query variableRows.collection
      [variableRows.choose row.id, .disableObjectDeserialization] .single) s
        = (.ok (some row), s) := congrArg (·, s) hquery
  rw [serve_of_leadsTo hleads (by rw [h.method]; decide)]
  simp only [dispatch, ValueRows.data, Exchange.asking, Exchange.run, CaseEngine.answer, hanswer]
  exact congrArg Exchange.report (binaryResponse_of_carries hcarries hheader _ _)

/-- The upload of a known execution is accepted if it is read as a command. -/
theorem status_postVariableData {formats : DataFormats} {segment : String}
    {parts? : Option (List Part)} {e : CaseExecution} (he : s.executions.get? id = some e) :
    ((postVariableData formats id segment name parts?).run s).1.status = 204 ↔
      ∃ c, readUpload formats id segment name parts? = .ok c := by
  unfold postVariableData
  cases hread : readUpload formats id segment name parts? with
  | error error =>
      refine ⟨fun hstatus => absurd hstatus (ofError_status_ne error), ?_⟩
      rintro ⟨c, hc⟩
      cases hc
  | ok c =>
      obtain ⟨scope, parts, value, -, -, -, rfl⟩ := readUpload_eq_ok.mp hread
      have hanswer := Store.answer_execute (c := ⟨id, [.setVariable name value scope]⟩) he
      refine ⟨fun _ => ⟨_, rfl⟩, fun _ => ?_⟩
      simp only [Exchange.given, Exchange.attempting, Exchange.run, CaseEngine.answer, hanswer]
      rfl

/-- An upload sets the variable to the value that its parts make up. -/
theorem Request.Uploads.sets {parts : List Part} (h : r.Uploads config id name scope parts)
    (hvalue : uploadedValue config.formats name parts = .ok value) :
    r.Sets config id name value scope := by
  obtain ⟨raw, segment, hleads, hscope⟩ := h.leads
  obtain ⟨boundary, hboundary, hparts⟩ := h.body
  exact .upload hleads h.method (scopeOf_eq_ok_iff.mp hscope) hboundary hparts
    (uploadedValue_eq_ok_iff.mp hvalue)

/-- An upload is accepted if it is not too long and there is something that it is kept as. -/
theorem Request.Uploads.accepted_iff {parts : List Part} (h : r.Uploads config id name scope parts)
    {data : Part} (hdata : lastPart? parts "data" = some data) {e : CaseExecution}
    (he : s.executions.get? id = some e) :
    (serve config r s).1.status = 204 ↔
      r.body.length ≤ config.maxUploadBytes ∧
        ∃ contentType, KeptAs config.formats parts data contentType := by
  obtain ⟨raw, segment, hleads, hscope⟩ := h.leads
  obtain ⟨boundary, hboundary, hparts⟩ := h.body
  rw [serve_of_leadsTo hleads (by rw [h.method]; decide), dispatch, if_pos h.method]
  simp only [withParts, hboundary, hparts, status_postVariableData he, readUpload_eq_ok]
  constructor
  · rintro ⟨c, scope', parts', value, -, hparts', hvalue, -⟩
    split at hparts'
    · cases hparts'
    · rename_i hshort
      obtain rfl := Option.some.inj hparts'
      exact ⟨Nat.not_lt.mp hshort, exists_keptAs hvalue hdata⟩
  · rintro ⟨hshort, contentType, hkept⟩
    obtain ⟨value, hvalue, -⟩ := hkept.value name hdata
    exact ⟨_, scope, parts, value, hscope, if_neg (Nat.not_lt.mpr hshort), hvalue, rfl⟩

end

/-- **What is uploaded can be downloaded.**

An upload to a known execution is accepted exactly if it is not too long and its format is in use,
where one is asked for.  Then the bytes of its last part `data` are handed out, as they are and
under the content type that they are kept as, to whoever asks for the variable in the same scope;
and there is one row at the place of the variable from which they are handed out as well, if no
other row has its id. -/
theorem upload_downloads {config : Config} (hformats : Sendable config.formats) {s : Store}
    (hunique : s.UniqueVariables) {id : String} {e : CaseExecution}
    (he : s.executions.get? id = some e) {name : String} {scope : VariableScope} {r : Request}
    {parts : List Part} (hr : r.Uploads config id name scope parts) {data : Part}
    (hdata : lastPart? parts "data" = some data) :
    ((serve config r s).1.status = 204 ↔ r.body.length ≤ config.maxUploadBytes ∧
      ∃ contentType, KeptAs config.formats parts data contentType) ∧
    ((serve config r s).1.status = 204 →
      ∀ contentType, KeptAs config.formats parts data contentType →
        let s' := (serve config r s).2
        (∀ q : Request, q.Downloads config id name scope →
          (serve config q s').1 = .content contentType data.content) ∧
        ∃ row ∈ s'.instances,
          row.place = some (s'.variableMap.target id e.caseInstance name scope, name) ∧
          (s'.instances.countP (·.id == row.id) = 1 →
            ∀ q : Request, q.DownloadsRow config row.id →
              (serve config q s').1 = .content contentType data.content)) := by
  refine ⟨hr.accepted_iff hdata he, ?_⟩
  intro hstatus contentType hkept s'
  have hheader := hkept.isHeaderText hformats
  obtain ⟨value, hvalue, hcarries⟩ := hkept.value name hdata
  obtain ⟨c, hleaves, hcommanded⟩ := (hr.sets hvalue).commanded hstatus
  obtain ⟨e₀, e', he₀, he', hcase, hunique', hmap⟩ := hcommanded.spec hunique
  rw [hleaves.execution] at he₀ he' hmap
  obtain rfl : e₀ = e := Option.some.inj (he₀.symm.trans he)
  have hscope : scope = .global ∨ scope = .localOnly := by cases scope <;> simp
  have hvisible : s'.variableMap.visible id e₀.caseInstance name scope = some value := by
    rw [hmap, VariableMap.visible_foldl_change hscope c.changes hleaves.last, hcarries.normalized]
  refine ⟨?_, ?_⟩
  · intro q hq
    obtain ⟨values, hvalues, hget⟩ := Store.scopedVariables_spec hunique' he' scope
    refine hq.serve_content hvalues ?_ hcarries hheader
    rw [hget, hcase, hvisible]
  · rw [VariableMap.visible_eq_target] at hvisible
    obtain ⟨row, hrow, hexecution, hname, hrowvalue⟩ :=
      (Store.variableMap_eq_some_iff hunique').mp hvisible
    refine ⟨row, hrow, ?_, ?_⟩
    · rw [VariableInstance.place, hexecution, hname]
      rfl
    · intro hsole q hq
      exact hq.serve_content hrow hsole (hrowvalue ▸ hcarries) hheader

/-- Of two parts with data the last one counts, and with a type between them its format. -/
theorem upload_downloads_photo :
    let lines (texts : List String) : Bytes := texts.flatMap fun text => Text.toUtf8 (text ++ "\r\n")
    let r : Request :=
      { method := .post
        path := "/engine-rest/case-execution/task/variables/photo/data"
        queryString := ""
        contentType := some "multipart/form-data; boundary=cut"
        body := lines
          ["--cut", "Content-Disposition: form-data; name=data", "", "red",
            "--cut", "Content-Disposition: form-data; name=type", "", "Paint",
            "--cut", "Content-Disposition: form-data; name=data",
            "Content-Type: Text/Plain; charset=utf-8", "", "blue", "--cut--"] }
    let q : Request := { r with method := .get, contentType := none, body := [] }
    let q' : Request :=
      { q with path := "/engine-rest/variable-instance/00000000-0000-7000-8000-000000000000/data" }
    let download : Response := .content "text/plain" (Text.toUtf8 "blue")
    (serve Config.standard r Store.paintShop).1.status = 204 ∧
      (serve Config.standard q (serve Config.standard r Store.paintShop).2).1 = download ∧
      (serve Config.standard q' (serve Config.standard r Store.paintShop).2).1 = download := by
  intro lines r q q' download
  have hread : (do
      let parts ← Multipart.parts? "cut" r.body
      let data ← lastPart? parts "data"
      let type ← lastPart? parts "type"
      let mediaType ← data.contentType
      some (data.content, Config.standard.formats.supports mediaType.text,
        DataFormats.canonical mediaType.text))
        = some (Text.toUtf8 "blue", true, "text/plain") := by decide +kernel
  simp only [Option.bind_eq_bind, Option.bind_eq_some_iff, Option.some.injEq, Prod.mk.injEq]
    at hread
  obtain ⟨parts, hparts, data, hdata, type, htype, mediaType, hnamed, hcontent, hsupported,
    hcanonical⟩ := hread
  have hkept : KeptAs Config.standard.formats parts data "text/plain" :=
    hcanonical ▸ .named htype hnamed hsupported
  have hroute : (Route.executionData "task" "variables" "photo").unescaped
      = .ok (.executionData "task" "variables" "photo") := by decide +kernel
  have hr : r.Uploads Config.standard "task" "photo" .global parts :=
    ⟨rfl, ⟨.executionData "task" "variables" "photo", "variables",
      ⟨by decide, by decide +kernel, by decide, hroute⟩, by decide⟩, "cut", by decide +kernel, hparts⟩
  have hq : q.Downloads Config.standard "task" "photo" .global :=
    ⟨rfl, .executionData "task" "variables" "photo", "variables",
      ⟨by decide, by decide +kernel, by decide, hroute⟩, by decide⟩
  have hq' : q'.DownloadsRow Config.standard "00000000-0000-7000-8000-000000000000" :=
    ⟨rfl, .instanceData "00000000-0000-7000-8000-000000000000", by decide, by decide +kernel,
      by decide, by decide +kernel⟩
  have he : Store.paintShop.executions.get? "task" = some ⟨"case", .enabled⟩ := by decide
  have hformats : Sendable Config.standard.formats := by decide +kernel
  obtain ⟨haccepted, hdownloads⟩ := upload_downloads hformats (by decide) he hr hdata
  have hstatus : (serve Config.standard r Store.paintShop).1.status = 204 :=
    haccepted.mpr ⟨by decide +kernel, _, hkept⟩
  obtain ⟨hname, row, hrow, hplace, hsole⟩ := hdownloads hstatus _ hkept
  rw [hcontent] at hname hsole
  -- The new row is found by its name, and no other row has its id.
  have hrows : (serve Config.standard r Store.paintShop).2.instances.map (fun v => (v.id, v.name))
      = [("v1", "color"), ("00000000-0000-7000-8000-000000000000", "photo")] := by decide +kernel
  have hphoto : row.name = "photo" := by
    obtain ⟨execution, -, hrowplace⟩ := Option.map_eq_some_iff.mp hplace
    exact congrArg Prod.snd hrowplace
  have hrowid : row.id = "00000000-0000-7000-8000-000000000000" := by
    have hmem := List.mem_map_of_mem (f := fun v : VariableInstance => (v.id, v.name)) hrow
    rw [hrows, hphoto] at hmem
    simpa using hmem
  have honly : (serve Config.standard r Store.paintShop).2.instances.countP (·.id == row.id) = 1 := by
    have hcount := List.countP_map (p := fun e : String × String => e.1 == row.id)
      (f := fun v : VariableInstance => (v.id, v.name))
      (l := (serve Config.standard r Store.paintShop).2.instances)
    rw [hrows, hrowid] at hcount
    rw [hrowid]
    exact hcount.symm.trans (by decide)
  exact ⟨hstatus, hname q hq, hsole honly q' (hrowid ▸ hq')⟩

end Http

end CaseGateway
