/-
Objects in their wire form.

The tag and the format of an object travel apart from its payload, and are brought
together again by the reader.  Where the format is in use under its canonical name,
nothing of it is lost, and all that can change is the payload: it is shown as a document
or as a text, and the reader takes what it is shown for a payload again.

A text is its own payload, so a payload that is shown as a text comes back.  A document
comes back as its text, unless it is one that the reader has another use for: a null stands
for no payload at all, and a string for the text in it.  Payloads in the engine's own format
are never shown, and what is shown in their place is not taken for one.
-/
import CaseGateway.Proofs.Json.Documents
import CaseGateway.Proofs.Text.Utf8
import CaseGateway.Proofs.Value.RoundTrip

namespace CaseGateway

open DataFormats (json native)

/-! ### Documents as payloads -/

/-- A payload holds a document if the document is read from it.  The text of a document holds the
document also where it shows the numbers in it, and where nothing is read from it. -/
inductive Json.HeldBy (j : Json) (data : Bytes) : Prop
  | read (h : ofBytes? data = some j)
  | written (hdata : data = Text.toUtf8 j.text) (h : j.Legible)
  | unread (hdata : data = Text.toUtf8 j.text) (h : ofBytes? data = none)

theorem Json.ofBytes?_toUtf8 (s : String) : ofBytes? (Text.toUtf8 s) = parse? s := by
  rw [ofBytes?, Text.ofUtf8?_toUtf8]
  rfl

/-- The payload that a document stands for in place of an object in JSON: none if it is null, the
text in a string, and the document's own text otherwise. -/
def Json.payload? : Json → Option Bytes
  | .null => none
  | .string s => some (Text.toUtf8 s)
  | j => some (Text.toUtf8 j.text)

/-- Only nulls and strings do not stand for their own texts. -/
theorem Json.payload?_eq_text_iff (j : Json) :
    j.payload? = some (Text.toUtf8 j.text) ↔ j ≠ .null ∧ ∀ s, j ≠ .string s := by
  cases j with
  | null => exact iff_of_false nofun fun h => h.1 rfl
  | string s =>
      refine iff_of_false (fun h => ?_) fun h => h.2 s rfl
      have hs := congrArg Text.ofUtf8? (Option.some.inj h)
      rw [Text.ofUtf8?_toUtf8, Text.ofUtf8?_toUtf8] at hs
      exact text_string_ne s (Option.some.inj hs).symm
  | bool b | number n | array items | object members => exact iff_of_true rfl ⟨nofun, nofun⟩

/-! ### Tag and type information -/

namespace ObjectValue

variable (o : ObjectValue)

theorem get?_info :
    o.info.get? WireValue.objectTypeName = o.typeName.map Json.string ∧
      o.info.get? WireValue.serializationDataFormat = o.format.map Json.string := by
  unfold info
  cases o.typeName <;> cases o.format <;>
    simp [Dictionary.ofList, Dictionary.get?_insert, WireValue.objectTypeName,
      WireValue.serializationDataFormat]

/-- The options matter neither to the tag nor to the information on the type. -/
theorem encode_header (options : EncodeOptions) :
    (o.encode options).typeTag = some (TypedValue.object o).type.tag ∧
      (o.encode options).info = o.info := by
  unfold encode
  cases o.data with
  | none => exact ⟨rfl, rfl⟩
  | some data => cases o.isNative <;> exact ⟨rfl, rfl⟩

end ObjectValue

theorem TypedValue.type_object (o : ObjectValue) :
    (TypedValue.object o).type = if o.isNative then .serializable else .object := rfl

namespace DataFormats

variable {formats : DataFormats}

theorem require_of_resolve? {name canonicalName : String}
    (h : formats.resolve? name = some canonicalName) : formats.require name = .ok canonicalName := by
  rw [require, h]

/-- Once the format is known, only the payload can fail to be read. -/
theorem decodeObject_of_format {type : ValueType} {form : WireValue} {f : String}
    (h : formats.formatOf type form.info = .ok f) :
    formats.decodeObject type form
      = (payloadOf f type form.value).map fun data =>
          .object
            { data
              format := some f
              typeName := (form.info.get? WireValue.objectTypeName).bind Json.toText?
              configuration := .empty } := by
  rw [decodeObject, h]
  change (payloadOf f type form.value).bind _ = _
  cases payloadOf f type form.value <;> rfl

/-- An object keeps its type name and its format, and its payload is read from what is shown. -/
theorem decode_encode_object {o : ObjectValue} {f : String} (hformat : o.format = some f)
    (hf : formats.resolve? f = some f) (options : EncodeOptions) :
    formats.decode ((TypedValue.object o).encode options)
      = (payloadOf f (TypedValue.object o).type (o.encode options).value).map fun data =>
          .object { o with data, configuration := .empty } := by
  obtain ⟨htag, hinfo⟩ := o.encode_header options
  obtain ⟨hinfoName, hinfoFormat⟩ := o.get?_info
  have hchosen : formats.formatOf (TypedValue.object o).type (o.encode options).info = .ok f := by
    rw [hinfo, formatOf, hinfoFormat, hformat]
    exact require_of_resolve? hf
  have hname : ((o.encode options).info.get? WireValue.objectTypeName).bind Json.toText?
      = o.typeName := by
    rw [hinfo, hinfoName]
    cases o.typeName <;> rfl
  have hobject : formats.decodeAs (o.encode options) (TypedValue.object o).type
      = formats.decodeObject (TypedValue.object o).type (o.encode options) := by
    rw [TypedValue.type_object]
    split <;> rfl
  have hdecode := TypedValue.decode_of_tag formats (o.encode options) htag
    (ValueType.ofTag?_tag _)
  rw [hobject, decodeObject_of_format hchosen, hname, ← hformat] at hdecode
  exact hdecode

theorem payloadOf_string {f : String} (h : f ≠ native) (type : ValueType) (s : String) :
    payloadOf f type (.string s) = .ok (some (Text.toUtf8 s)) :=
  if_neg h

theorem payloadOf_json (type : ValueType) (j : Json) :
    payloadOf json type j = .ok j.payload? := by
  cases j with
  | string s => exact payloadOf_string (by decide) type s
  | array items => rw [payloadOf, if_pos rfl]; rfl
  | object members => rw [payloadOf, if_pos rfl]; rfl
  | null | bool b | number n => rfl

end DataFormats

/-! ### What is shown of a payload -/

theorem Number.count_of_le {n : Nat} (h : n ≤ 0xFFFFFFFFFFFFFFFF) :
    ∃ inRange, Number.count n = .integer n inRange := by
  refine ⟨by omega, ?_⟩
  simp only [count, Nat.min_eq_left h]

namespace ObjectValue

variable {o : ObjectValue}

theorem isNative_iff : o.isNative ↔ o.format = some native := beq_iff_eq

theorem encode_of_none (h : o.data = none) (options : EncodeOptions) :
    o.encode options = ⟨.null, some (TypedValue.object o).type.tag, o.info, none⟩ := by
  rw [encode, h]

section Data

variable {data : Bytes} (hdata : o.data = some data)
include hdata

theorem encode_native (h : o.format = some native) (options : EncodeOptions) :
    o.encode options
      = ⟨if options.objectDeserialization then o.descriptor data else .null,
          some (TypedValue.object o).type.tag, o.info, none⟩ := by
  rw [encode, hdata]
  exact if_pos (isNative_iff.mpr h)

theorem encode_other (h : o.format ≠ some native) (options : EncodeOptions) :
    o.encode options
      = ⟨if options.objectDeserialization then o.content data else .null,
          some (TypedValue.object o).type.tag, o.info,
          some ⟨.string (Text.ofUtf8Lossy data), o.configuration⟩⟩ := by
  rw [encode, hdata]
  exact if_neg (mt isNative_iff.mp h)

end Data

theorem content_of_read {data : Bytes} {j : Json} (h : o.format = some json)
    (hread : Json.ofBytes? data = some j) : o.content data = j := by
  rw [content, if_pos h, hread]
  rfl

theorem content_of_text {data : Bytes} (h : o.format = some json → Json.ofBytes? data = none) :
    o.content data = .string (Text.ofUtf8Lossy data) := by
  unfold content
  split
  · next hjson => rw [h hjson]; rfl
  · rfl

theorem withData_self {d : Option Bytes} (h : o.data = d) :
    ({ o with data := d, configuration := .empty } : ObjectValue)
      = { o with configuration := .empty } := by
  subst h
  rfl

/-! ### Payloads that are no documents -/

section Kept

variable {formats : DataFormats} {o : ObjectValue} {f : String} (hformat : o.format = some f)
  (hf : formats.resolve? f = some f)
include hformat hf

theorem decode_encode_none (hdata : o.data = none) (options : EncodeOptions) :
    formats.decode ((TypedValue.object o).encode options)
      = .ok (.object { o with configuration := .empty }) := by
  rw [DataFormats.decode_encode_object hformat hf, o.encode_of_none hdata, ← o.withData_self hdata]
  rfl

theorem decode_encode_content (hother : f ≠ native) {data : Bytes} (hdata : o.data = some data) :
    formats.decode ((TypedValue.object o).encode .full)
      = (DataFormats.payloadOf f (TypedValue.object o).type (o.content data)).map fun data =>
          .object { o with data, configuration := .empty } := by
  have hne : o.format ≠ some native := by
    rw [hformat]
    exact fun h => hother (Option.some.inj h)
  rw [DataFormats.decode_encode_object hformat hf, o.encode_other hdata hne]
  rfl

theorem decode_encode_text (hother : f ≠ native) {s : String}
    (hdata : o.data = some (Text.toUtf8 s)) (hs : f = json → Json.parse? s = none) :
    formats.decode ((TypedValue.object o).encode .full)
      = .ok (.object { o with configuration := .empty }) := by
  have hcontent : o.content (Text.toUtf8 s) = .string s := by
    rw [o.content_of_text, Text.ofUtf8Lossy_toUtf8]
    intro hjson
    rw [Json.ofBytes?_toUtf8]
    exact hs (Option.some.inj (hformat.symm.trans hjson))
  rw [decode_encode_content hformat hf hother hdata, hcontent, DataFormats.payloadOf_string hother,
    ← o.withData_self hdata]
  rfl

end Kept

theorem decode_encode_native {formats : DataFormats} {o : ObjectValue}
    (hformat : o.format = some native) (hf : formats.resolve? native = some native)
    {data : Bytes} (hdata : o.data = some data) :
    formats.decode ((TypedValue.object o).encode .full)
      = .error (.shapeMismatch .serializable "object") := by
  have htype : (TypedValue.object o).type = .serializable := by
    rw [TypedValue.type_object, if_pos (o.isNative_iff.mpr hformat)]
  rw [DataFormats.decode_encode_object hformat hf, o.encode_native hdata hformat, htype]
  rfl

/-- **An object whose payload is no document comes back as it was, or not at all.**

It comes back, without what the engine reported about the serializer, if there is no payload,
or if the payload is a text in a format other than the engine's own.  In the engine's own format
a description with the length of the payload is shown instead, which is refused.  The
stored payload goes along with all other payloads, and never with one in the engine's format. -/
theorem kept_or_refused (formats : DataFormats) (o : ObjectValue) :
    (∀ f, o.format = some f → formats.resolve? f = some f →
      ((o.data = none ∨ f ≠ native ∧ ∃ s, o.data = some (Text.toUtf8 s) ∧
          (f = json → Json.parse? s = none)) →
        formats.decode ((TypedValue.object o).encode .full)
          = .ok (.object { o with configuration := .empty })) ∧
      (f = native → ∀ data, o.data = some data →
        (∃ members, ((TypedValue.object o).encode .full).value = .object members ∧
          (data.length ≤ 0xFFFFFFFFFFFFFFFF → ∃ inRange,
            Json.member? members "byteLength"
              = some (.number (.integer data.length inRange)))) ∧
        formats.decode ((TypedValue.object o).encode .full)
          = .error (.shapeMismatch .serializable "object"))) ∧
    ∀ options,
      (o.format = some native → ((TypedValue.object o).encode options).serialized = none) ∧
      (o.format ≠ some native → ∀ data, o.data = some data →
        ∃ p, ((TypedValue.object o).encode options).serialized = some p ∧
          p.value = .string (Text.ofUtf8Lossy data)) := by
  refine ⟨fun f hformat hf => ⟨?_, ?_⟩, fun options => ⟨?_, ?_⟩⟩
  · rintro (hdata | ⟨hother, s, hdata, hs⟩)
    · exact decode_encode_none hformat hf hdata .full
    · exact decode_encode_text hformat hf hother hdata hs
  · rintro rfl data hdata
    refine ⟨⟨_, congrArg WireValue.value (o.encode_native hdata hformat .full), fun hlength => ?_⟩,
      decode_encode_native hformat hf hdata⟩
    obtain ⟨inRange, hcount⟩ := Number.count_of_le hlength
    exact ⟨inRange, congrArg (fun n => some (Json.number n)) hcount⟩
  · intro hnative
    cases hdata : o.data with
    | none => exact congrArg WireValue.serialized (o.encode_of_none hdata options)
    | some data => exact congrArg WireValue.serialized (o.encode_native hdata hnative options)
  · intro hother data hdata
    exact ⟨_, congrArg WireValue.serialized (o.encode_other hdata hother options), rfl⟩

/-- What the serializer reported is not kept, and a binary payload does not come back. -/
theorem kept_or_refused_order :
    let reported : Dictionary Json := .ofList [("rootType", .string "Order")]
    let order : ObjectValue :=
      ⟨some (Text.toUtf8 "<order/>"), some DataFormats.xml, some "Order", reported⟩
    let binary : ObjectValue := ⟨some [0xAC, 0xED, 0x00], some native, some "Order", reported⟩
    DataFormats.builtIn.resolve? DataFormats.xml = some DataFormats.xml ∧
      DataFormats.builtIn.resolve? native = some native ∧
      DataFormats.builtIn.decode ((TypedValue.object order).encode .full)
        = .ok (.object { order with configuration := .empty }) ∧
      DataFormats.builtIn.decode ((TypedValue.object binary).encode .full)
        = .error (.shapeMismatch .serializable "object") := by
  intro reported order binary
  have hxml : DataFormats.builtIn.resolve? DataFormats.xml = some DataFormats.xml := by
    decide +kernel
  have hnative : DataFormats.builtIn.resolve? native = some native := by decide +kernel
  refine ⟨hxml, hnative, ?_, ?_⟩
  · refine ((kept_or_refused .builtIn order).1 _ rfl hxml).1 (Or.inr ⟨by decide, ?_⟩)
    exact ⟨"<order/>", rfl, fun h => absurd h (by decide)⟩
  · exact (((kept_or_refused .builtIn binary).1 _ rfl hnative).2 rfl _ rfl).2

/-! ### Documents -/

section Document

variable {formats : DataFormats} {o : ObjectValue} (hformat : o.format = some json)

theorem payload?_content_of_unread {j : Json} (h : Json.ofBytes? (Text.toUtf8 j.text) = none) :
    (o.content (Text.toUtf8 j.text)).payload? = j.payload? := by
  rw [o.content_of_text fun _ => h, Text.ofUtf8Lossy_toUtf8]
  rw [Json.ofBytes?_toUtf8] at h
  cases j with
  | null => exact nomatch (Json.parse?_text .null).symm.trans h
  | string s => exact nomatch (Json.parse?_text (.string s)).symm.trans h
  | bool b | number n | array items | object members => rfl

include hformat

/-- What is shown is the document, or the text of one that is not read. -/
theorem payload?_content {j : Json} {data : Bytes} (h : j.HeldBy data) :
    (o.content data).payload? = j.payload? := by
  cases h with
  | read h => rw [o.content_of_read hformat h]
  | unread hdata h =>
      subst hdata
      exact payload?_content_of_unread h
  | written hdata h =>
      subst hdata
      have hread := Json.parse?_text h
      rw [← Json.ofBytes?_toUtf8] at hread
      split at hread
      · rw [o.content_of_read hformat hread]
      · exact payload?_content_of_unread hread

theorem decode_encode_document (hf : formats.resolve? json = some json) {data : Bytes}
    (hdata : o.data = some data) :
    formats.decode ((TypedValue.object o).encode .full)
      = .ok (.object { o with data := (o.content data).payload?, configuration := .empty }) := by
  rw [decode_encode_content hformat hf (by decide) hdata, DataFormats.payloadOf_json]
  rfl

end Document

/-- **An object in JSON keeps its document, unless that is null or a string.**

The payload comes back as the text of the document it holds.  A string comes back as the text in
it, and a null as no payload; these are the only documents that do not come back. -/
theorem document_kept_iff {formats : DataFormats} {o : ObjectValue} {data : Bytes} {j : Json}
    (hsupports : formats.supports json) (hformat : o.format = some json)
    (hdata : o.data = some data) (hj : j.HeldBy data) :
    formats.decode ((TypedValue.object o).encode .full)
        = .ok (.object { o with data := j.payload?, configuration := .empty }) ∧
      (j.payload? = some (Text.toUtf8 j.text) ↔ j ≠ .null ∧ ∀ s, j ≠ .string s) := by
  have hcanonical : DataFormats.canonical json = json := by decide +kernel
  have hf : formats.resolve? json = some json := by
    rw [DataFormats.resolve?, if_pos hsupports, hcanonical]
  refine ⟨?_, j.payload?_eq_text_iff⟩
  rw [decode_encode_document hformat hf hdata, payload?_content hformat hj]

/-- A list with a number and a text in it comes back, in an object. -/
theorem document_kept_order :
    let half : Number := .double ⟨false, 0x3FE0000000000000, by decide⟩ (by decide)
    let j : Json := .object [("parts", .array [.number half, .string "door"])]
    let o : ObjectValue := ⟨some (Text.toUtf8 j.text), some json, some "Order", .empty⟩
    DataFormats.builtIn.supports json ∧ j.HeldBy (Text.toUtf8 j.text) ∧
      j.text = "\x7b\"parts\":[0.5,\"door\"]\x7d" ∧
      DataFormats.builtIn.decode ((TypedValue.object o).encode .full) = .ok (.object o) := by
  intro half j o
  have hsupports : DataFormats.builtIn.supports json := by decide +kernel
  have hhalf : half.Legible := ⟨⟨false, ['0'], ['5'], none⟩, by decide +kernel, by decide +kernel⟩
  have hparts : (Json.array [.number half, .string "door"]).Legible :=
    .array (by simpa using ⟨.double hhalf, .string "door"⟩)
  have hj : j.HeldBy (Text.toUtf8 j.text) :=
    .written rfl (.object (List.pairwise_singleton _ _) (by simpa using hparts))
  refine ⟨hsupports, hj, by decide +kernel, ?_⟩
  obtain ⟨hdecode, hkept⟩ := document_kept_iff hsupports (o := o) rfl rfl hj
  rw [hkept.mpr ⟨nofun, nofun⟩] at hdecode
  exact hdecode

/-- A string comes back as the text in it, a null as no payload, and a number as the neighbour for
which its text is taken. -/
theorem document_not_kept :
    let o (j : Json) : ObjectValue := ⟨some (Text.toUtf8 j.text), some json, some "Name", .empty⟩
    let back (j : Json) := DataFormats.builtIn.decode ((TypedValue.object (o j)).encode .full)
    let d : Json := .number (.double ⟨false, 0x403F3ECA06FAEA82, by decide⟩ (by decide))
    let e : Json := .number (.double ⟨false, 0x403F3ECA06FAEA83, by decide⟩ (by decide))
    DataFormats.builtIn.supports json ∧
      (back (.string "a") = .ok (.object { o (.string "a") with data := some (Text.toUtf8 "a") }) ∧
        (Json.string "a").text = "\"a\"") ∧
      back .null = .ok (.object { o .null with data := none }) ∧
      back d = .ok (.object { o d with data := some (Text.toUtf8 e.text) }) ∧
      d.text = "31.245270191439438" ∧ e.text = "31.24527019143944" := by
  intro o back d e
  have hf : DataFormats.builtIn.resolve? json = some json := by decide +kernel
  have hback (j k : Json) (hread : Json.parse? j.text = some k) :
      back j = .ok (.object { o j with data := k.payload? }) := by
    have hdecode := decode_encode_document (o := o j) rfl hf rfl
    rwa [(o j).content_of_read rfl ((Json.ofBytes?_toUtf8 _).trans hread)] at hdecode
  have hnumber : Json.parse? d.text = some e := by
    refine Json.parse?_literal (l := ⟨false, "31".toList, "245270191439438".toList, none⟩) ?_ ?_ <;>
      decide +kernel
  exact ⟨by decide +kernel, ⟨hback _ _ (Json.parse?_text (.string "a")), by decide +kernel⟩,
    hback _ _ (Json.parse?_text .null), hback _ _ hnumber, by decide +kernel, by decide +kernel⟩

end ObjectValue

end CaseGateway
