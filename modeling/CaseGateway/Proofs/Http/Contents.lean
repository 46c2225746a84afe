/-
What stands in requests.

The bodies of requests that change variables are records.  The relations here say from the parts of
such a record what a body stands for that sets a variable, several ones, or some beside a
transition.  An upload is no record but has parts of its own, of which the last one of a name counts,
and a segment of the path stands for a scope.

The readers of requests are shown to recognize these relations.  What is said of requests by way
of the relations does not depend on how they are read, and a request that stands for nothing is
refused.
-/
import CaseGateway.Proofs.Http.Readers
import CaseGateway.Proofs.Json.Records
import CaseGateway.Proofs.Value.Formats

namespace CaseGateway

namespace Json

/-! ### Values -/

/-- A document is the payload of an object. -/
def IsPayload (j : Json) (p : SerializedPayload) : Prop :=
  ∃ members, IsRecord ["value", "configuration"] j members ∧
    members.lookup "value" = some p.value ∧
    IsDefaulted (fun j d => ∃ members, j = .object members ∧ d = .ofList members) .empty
      (members.lookup "configuration") p.configuration

/-- The members of a record make up a value as it travels.  All of them may be missing, and members of
other names are of no account. -/
structure MakeWire (members : List (String × Json)) (w : WireValue) : Prop where
  value : w.value = (members.lookup "value").getD .null
  typeTag : IsOptional (fun j tag => j = .string tag) (members.lookup "type") w.typeTag
  info : IsDefaulted (fun j d => ∃ members, j = .object members ∧ d = .ofList members) .empty
    (members.lookup "valueInfo") w.info
  serialized : IsOptional IsPayload (members.lookup "serializedValue") w.serialized

/-- A document is a value as it travels. -/
def IsWire (j : Json) (w : WireValue) : Prop :=
  ∃ members, IsRecord ["value", "type", "valueInfo", "serializedValue"] j members ∧
    MakeWire members w

theorem recognizes_payload : Recognizes WireValue.payloadOfJson? IsPayload := by
  intro j p
  unfold WireValue.payloadOfJson? IsPayload
  simp only [Option.bind_eq_bind, Option.bind_eq_some_iff, recordMembers?_eq_some_iff,
    member?_eq_lookup, recognizes_toDictionary?.orDefault, Option.pure_def, Option.some.injEq]
  constructor
  · rintro ⟨members, hmembers, value, hvalue, configuration, hconfiguration, rfl⟩
    exact ⟨members, hmembers, hvalue, hconfiguration⟩
  · rintro ⟨members, hmembers, hvalue, hconfiguration⟩
    exact ⟨members, hmembers, _, hvalue, _, hconfiguration, rfl⟩

theorem ofMembers?_eq_some_iff {members : List (String × Json)} {w : WireValue} :
    WireValue.ofMembers? members = some w ↔ MakeWire members w := by
  unfold WireValue.ofMembers?
  simp only [Option.bind_eq_bind, Option.bind_eq_some_iff, member?_eq_lookup,
    recognizes_toText?.optional, recognizes_toDictionary?.orDefault, recognizes_payload.optional,
    Option.pure_def, Option.some.injEq]
  constructor
  · rintro ⟨tag, htag, info, hinfo, payload, hpayload, rfl⟩
    exact ⟨rfl, htag, hinfo, hpayload⟩
  · rintro ⟨hvalue, htag, hinfo, hpayload⟩
    exact ⟨_, htag, _, hinfo, _, hpayload, by rw [← hvalue]⟩

theorem recognizes_wire : Recognizes WireValue.ofJson? IsWire := by
  intro j w
  unfold WireValue.ofJson?
  rw [Option.bind_eq_some_iff]
  exact exists_congr fun _ => and_congr recordMembers?_eq_some_iff ofMembers?_eq_some_iff

/-! ### Changes to variables -/

/-- A document is a record of variables to be set and of names to be removed.  Either may be missing
or null, which is another thing than to be empty. -/
def IsPatch (j : Json) (patch : Http.PatchBody) : Prop :=
  ∃ members, IsRecord ["modifications", "deletions"] j members ∧
    IsOptional (IsMap IsWire) (members.lookup "modifications") patch.modifications ∧
    IsOptional (IsList fun j name => j = .string name) (members.lookup "deletions") patch.deletions

/-- The members of a record mark it as local, or not. -/
def MarkLocal (members : List (String × Json)) (isLocal : Bool) : Prop :=
  IsDefaulted (fun j b => j = .bool b) false (members.lookup "local") isLocal

/-- A document is a variable to be set, which has to be an object, with its mark. -/
def IsSetting (j : Json) (setting : WireValue × Bool) : Prop :=
  ∃ members, j = .object members ∧ MakeWire members setting.1 ∧ MarkLocal members setting.2

/-- A document is a name to be removed, with its mark. -/
def IsDeletion (j : Json) (deletion : String × Bool) : Prop :=
  ∃ members, IsRecord ["name", "local"] j members ∧
    members.lookup "name" = some (.string deletion.1) ∧ MarkLocal members deletion.2

/-- A document is a record of changes beside a transition.  Both parts may be missing or null, which
is the same as to be empty. -/
def IsTrigger (j : Json) (body : Http.TriggerBody) : Prop :=
  ∃ members settings deletions, IsRecord ["variables", "deletions"] j members ∧
    IsOptional (IsMap IsSetting) (members.lookup "variables") settings ∧
    IsOptional (IsList IsDeletion) (members.lookup "deletions") deletions ∧
    body = ⟨settings.getD .empty, deletions.getD []⟩

theorem recognizes_patch : Recognizes Http.PatchBody.ofJson? IsPatch := by
  intro j patch
  unfold Http.PatchBody.ofJson? IsPatch
  simp only [Option.bind_eq_bind, Option.bind_eq_some_iff, recordMembers?_eq_some_iff,
    member?_eq_lookup, recognizes_wire.toEntries?.optional, recognizes_toText?.toList?.optional,
    Option.pure_def, Option.some.injEq]
  constructor
  · rintro ⟨members, hmembers, modifications, hmodifications, deletions, hdeletions, rfl⟩
    exact ⟨members, hmembers, hmodifications, hdeletions⟩
  · rintro ⟨members, hmembers, hmodifications, hdeletions⟩
    exact ⟨members, hmembers, _, hmodifications, _, hdeletions, rfl⟩

theorem localMark?_eq_some_iff {members : List (String × Json)} {isLocal : Bool} :
    Http.TriggerBody.localMark? members = some isLocal ↔ MarkLocal members isLocal := by
  rw [Http.TriggerBody.localMark?, member?_eq_lookup]
  exact recognizes_toBool?.orDefault

theorem recognizes_setting : Recognizes Http.TriggerBody.setting? IsSetting := by
  intro j setting
  unfold IsSetting
  cases j with
  | object members =>
      simp only [Http.TriggerBody.setting?, Option.bind_eq_bind, Option.bind_eq_some_iff,
        ofMembers?_eq_some_iff, localMark?_eq_some_iff, Option.pure_def, Option.some.injEq]
      constructor
      · rintro ⟨w, hw, isLocal, hlocal, rfl⟩
        exact ⟨members, rfl, hw, hlocal⟩
      · rintro ⟨members', hmembers, hw, hlocal⟩
        obtain rfl := Json.object.inj hmembers
        exact ⟨_, hw, _, hlocal, rfl⟩
  | null | bool | number | string | array => simp [Http.TriggerBody.setting?]

theorem recognizes_deletion : Recognizes Http.TriggerBody.deletion? IsDeletion := by
  intro j deletion
  unfold Http.TriggerBody.deletion? IsDeletion
  simp only [Option.bind_eq_bind, Option.bind_eq_some_iff, recordMembers?_eq_some_iff,
    member?_eq_lookup, localMark?_eq_some_iff, Option.pure_def, Option.some.injEq]
  constructor
  · rintro ⟨members, hmembers, j', hj', name, hname, isLocal, hlocal, rfl⟩
    obtain rfl := (recognizes_toText? _ _).mp hname
    exact ⟨members, hmembers, hj', hlocal⟩
  · rintro ⟨members, hmembers, hname, hlocal⟩
    exact ⟨members, hmembers, _, hname, _, rfl, _, hlocal, rfl⟩

theorem recognizes_trigger : Recognizes Http.TriggerBody.ofJson? IsTrigger := by
  intro j body
  unfold Http.TriggerBody.ofJson? IsTrigger
  simp only [Option.bind_eq_bind, Option.bind_eq_some_iff, recordMembers?_eq_some_iff,
    member?_eq_lookup, recognizes_setting.toEntries?.optional,
    recognizes_deletion.toList?.optional, Option.pure_def, Option.some.injEq]
  constructor
  · rintro ⟨members, hmembers, settings, hsettings, deletions, hdeletions, rfl⟩
    exact ⟨members, settings, deletions, hmembers, hsettings, hdeletions, rfl⟩
  · rintro ⟨members, settings, deletions, hmembers, hsettings, hdeletions, rfl⟩
    exact ⟨members, hmembers, settings, hsettings, deletions, hdeletions, rfl⟩

end Json

namespace Http

/-! ### Scopes and bodies -/

/-- A segment of the path stands for a scope. -/
inductive IsScope : String → VariableScope → Prop
  | global : IsScope "variables" .global
  | localOnly : IsScope "localVariables" .localOnly

theorem scopeOf_eq_ok_iff {segment : String} {scope : VariableScope} :
    scopeOf segment = .ok scope ↔ IsScope segment scope := by
  constructor
  · intro h
    unfold scopeOf at h
    split at h
    · rename_i hsegment
      obtain rfl := Except.ok.inj h
      exact hsegment ▸ .global
    · split at h
      · rename_i hsegment
        obtain rfl := Except.ok.inj h
        exact hsegment ▸ .localOnly
      · cases h
  · intro h
    cases h <;> decide

/-- The body of a request is a document, or else nothing but blanks and line ends, which is null. -/
inductive Request.Holds (r : Request) : Json → Prop
  | blank (blank : ∀ b ∈ r.body, b ∈ [0x20, 0x09, 0x0A, 0x0C, 0x0D]) : r.Holds .null
  | document {b : UInt8} {j : Json} (mem : b ∈ r.body) (solid : b ∉ [0x20, 0x09, 0x0A, 0x0C, 0x0D])
    (read : Json.ofBytes? r.body = some j) : r.Holds j

/-- The body of a request stands for something, and null for a default. -/
inductive Request.Contains {α : Type} (r : Request) (P : Json → α → Prop) (default : α) : α → Prop
  | nothing (body : r.Holds .null) : r.Contains P default default
  | given {j : Json} {a : α} (body : r.Holds j) (present : j ≠ .null) (stands : P j a) :
    r.Contains P default a

theorem isBodyBlank_iff {b : UInt8} :
    isBodyBlank b ↔ b ∈ [0x20, 0x09, 0x0A, 0x0C, 0x0D] := by
  simp [isBodyBlank, or_assoc]

theorem Request.document_eq_ok_iff {r : Request} {j : Json} :
    r.document = .ok j ↔ r.Holds j := by
  unfold document
  by_cases hblank : r.body.all isBodyBlank
  · have hall : ∀ b ∈ r.body, b ∈ [0x20, 0x09, 0x0A, 0x0C, 0x0D] := fun b hb =>
      isBodyBlank_iff.mp (List.all_eq_true.mp hblank b hb)
    rw [if_pos hblank]
    constructor
    · intro h
      obtain rfl := Except.ok.inj h
      exact .blank hall
    · intro h
      cases h with
      | blank => rfl
      | document mem solid read => exact absurd (hall _ mem) solid
  · rw [if_neg hblank]
    constructor
    · intro h
      obtain ⟨b, mem, solid⟩ : ∃ b ∈ r.body, ¬isBodyBlank b := by simpa using hblank
      split at h
      · rename_i j' read
        obtain rfl := Except.ok.inj h
        exact .document mem (fun hb => solid (isBodyBlank_iff.mpr hb)) read
      · cases h
    · intro h
      cases h with
      | blank hall =>
          exact absurd (List.all_eq_true.mpr fun b hb => isBodyBlank_iff.mpr (hall b hb)) hblank
      | document mem solid read => rw [read]

theorem Request.read_eq_ok_iff {α : Type} {r : Request} {read : Json → Option α}
    {P : Json → α → Prop} (h : Json.Recognizes read P) {default a : α} :
    r.read default read = .ok a ↔ r.Contains P default a := by
  rw [read_eq_ok]
  constructor
  · rintro (⟨hnull, rfl⟩ | ⟨j, hj, present, ha⟩)
    · exact .nothing (document_eq_ok_iff.mp hnull)
    · exact .given (document_eq_ok_iff.mp hj) present ((h _ _).mp ha)
  · intro ha
    cases ha with
    | nothing body => exact Or.inl ⟨document_eq_ok_iff.mpr body, rfl⟩
    | given body present stands =>
        exact Or.inr ⟨_, document_eq_ok_iff.mpr body, present, (h _ _).mpr stands⟩

/-! ### Uploads -/

/-- The last part of a name. -/
def IsLastPart (parts : List Part) (name : String) (p : Part) : Prop :=
  ∃ before after, parts = before ++ p :: after ∧ p.name = some name ∧
    ∀ q ∈ after, q.name ≠ some name

/-- The format of an object that is uploaded: the standard one, or the one that its part names. -/
inductive IsFormat (formats : DataFormats) : Option MediaType → String → Prop
  | standard : IsFormat formats none formats.standard
  | named {mediaType : MediaType} (supported : formats.supports mediaType.text) :
    IsFormat formats (some mediaType) (DataFormats.canonical mediaType.text)

/-- The value that the parts of an upload make up: the bytes of `data`, or where there is a `type` an
object of them. -/
inductive IsUpload (formats : DataFormats) (parts : List Part) : TypedValue → Prop
  | bytes {data : Part} (content : IsLastPart parts "data" data)
    (untyped : ∀ p ∈ parts, p.name ≠ some "type") : IsUpload formats parts (.bytes data.content)
  | object {data type : Part} {format : String} (content : IsLastPart parts "data" data)
    (typed : IsLastPart parts "type" type) (kept : IsFormat formats data.contentType format) :
    IsUpload formats parts (.object
      { data := some data.content, format := some format, typeName := some type.text,
        configuration := .empty })

section Uploads

variable {formats : DataFormats} {parts : List Part} {name : String} {p data : Part}
  {value : TypedValue}

theorem lastPart?_eq_some_iff : lastPart? parts name = some p ↔ IsLastPart parts name p := by
  rw [lastPart?, List.find?_eq_some_iff_append]
  constructor
  · rintro ⟨hname, before, after, hparts, hbefore⟩
    refine ⟨after.reverse, before.reverse, ?_, by simpa using hname, fun q hq => ?_⟩
    · simpa using congrArg List.reverse hparts
    · simpa using hbefore q (List.mem_reverse.mp hq)
  · rintro ⟨before, after, rfl, hname, hafter⟩
    refine ⟨by simpa using hname, after.reverse, before.reverse, by simp, fun q hq => ?_⟩
    simpa using hafter q (List.mem_reverse.mp hq)

theorem lastPart?_eq_none_iff : lastPart? parts name = none ↔ ∀ p ∈ parts, p.name ≠ some name := by
  simp [lastPart?]

/-- What becomes of the content of an upload with a type. -/
theorem decodeUpload_typed_eq_ok_iff {payload : Bytes} {typeName : String}
    {contentType : Option MediaType} :
    formats.decodeUpload payload (some typeName) (contentType.map (·.text)) = .ok value ↔
      ∃ format, IsFormat formats contentType format ∧ value = .object
        { data := some payload, format := some format, typeName := some typeName,
          configuration := .empty } := by
  rw [DataFormats.decodeUpload_eq, map_eq_ok]
  refine exists_congr fun format => and_congr ?_ eq_comm
  cases contentType with
  | none =>
      constructor
      · intro h
        exact Except.ok.inj h ▸ .standard
      · intro h
        cases h
        rfl
  | some mediaType =>
      constructor
      · intro h
        obtain ⟨rfl, hmem⟩ :=
          DataFormats.resolve?_eq_some_iff.mp (DataFormats.require_eq_ok_iff.mp h)
        exact .named (DataFormats.supports_iff.mpr hmem)
      · intro h
        cases h with
        | named supported =>
            exact DataFormats.require_eq_ok_iff.mpr
              (DataFormats.resolve?_eq_some_iff.mpr ⟨rfl, DataFormats.supports_iff.mp supported⟩)

theorem uploadedValue_eq_ok_iff :
    uploadedValue formats name parts = .ok value ↔ IsUpload formats parts value := by
  rw [uploadedValue_eq_ok]
  constructor
  · rintro ⟨data, hdata, hvalue⟩
    cases htype : lastPart? parts "type" with
    | none =>
        rw [htype] at hvalue
        obtain rfl := Except.ok.inj hvalue
        exact .bytes (lastPart?_eq_some_iff.mp hdata) (lastPart?_eq_none_iff.mp htype)
    | some type =>
        rw [htype] at hvalue
        obtain ⟨format, hformat, rfl⟩ := decodeUpload_typed_eq_ok_iff.mp hvalue
        exact .object (lastPart?_eq_some_iff.mp hdata) (lastPart?_eq_some_iff.mp htype) hformat
  · intro h
    cases h with
    | bytes content untyped =>
        refine ⟨_, lastPart?_eq_some_iff.mpr content, ?_⟩
        rw [lastPart?_eq_none_iff.mpr untyped]
        rfl
    | object content typed kept =>
        refine ⟨_, lastPart?_eq_some_iff.mpr content, ?_⟩
        rw [lastPart?_eq_some_iff.mpr typed]
        exact decodeUpload_typed_eq_ok_iff.mpr ⟨_, kept, rfl⟩

end Uploads

end Http

end CaseGateway
