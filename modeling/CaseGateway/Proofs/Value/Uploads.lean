/-
Objects in documents and in uploads.

An object comes in two ways: spelled out in a document, or as an upload with a content type.
In the one the payload is a text and the format is declared along with the type, in the other
the payload consists of bytes and the content type declares the format.  Both choose the
format in the same way, and what tells the payload from the text is the chosen format alone, so
the same payload in the same format is the same object, and a format that is not in use
is the same error.
-/
import CaseGateway.Proofs.Text.Base64
import CaseGateway.Proofs.Value.Objects

namespace CaseGateway

namespace DataFormats

variable (formats : DataFormats)

/-- The format of an object that is not tagged as one in the engine's own: the declared one, or the
default where there is no declaration. -/
def choose : Option String → Except ValueError String
  | some name => formats.require name
  | none => .ok formats.standard

theorem choose_unsupported {name : String} (h : formats.supports name = false) :
    formats.choose (some name) = .error (.unrecognizedFormat name) := by
  have hnone : formats.resolve? name = none := if_neg (Bool.eq_false_iff.mp h)
  rw [choose, require, hnone]

/-- The text that spells out a payload is its base64 in the engine's own format, and the text of
which it consists in any other. -/
def Spelled (f : String) (payload : Bytes) (s : String) : Prop :=
  if f = native then s = Base64.encode payload else payload = Text.toUtf8 s

theorem payloadOf_spelled {f : String} {payload : Bytes} {s : String} (h : Spelled f payload s)
    (type : ValueType) : payloadOf f type (.string s) = .ok (some payload) := by
  unfold Spelled at h
  split at h
  · next hnative =>
    rw [payloadOf, if_pos hnative, h, TypedValue.decodeBase64, Base64.decode_encode]
    rfl
  · next hother => rw [payloadOf_string hother, h]

theorem decodeUpload_eq (payload : Bytes) (typeName : String) (declared : Option String) :
    formats.decodeUpload payload (some typeName) declared
      = (formats.choose declared).map fun f =>
          .object ⟨some payload, some f, some typeName, .empty⟩ := by
  cases declared with
  | none => rfl
  | some name =>
      show (formats.require name).bind _ = (formats.require name).map _
      cases formats.require name <;> rfl

section Inline

variable {form : WireValue} {typeName s : String} {declared : Option String} {payload : Bytes}
  (hformat : form.info.get? WireValue.serializationDataFormat = declared.map Json.string)
include hformat

theorem formatOf_declared : formats.formatOf .object form.info = formats.choose declared := by
  rw [formatOf, hformat]
  cases declared <;> rfl

theorem decodeObject_eq (hname : form.info.get? WireValue.objectTypeName = some (.string typeName))
    (hvalue : form.value = .string s)
    (hs : ∀ f, formats.choose declared = .ok f → Spelled f payload s) :
    formats.decodeObject .object form
      = (formats.choose declared).map fun f =>
          .object ⟨some payload, some f, some typeName, .empty⟩ := by
  have hchosen := formats.formatOf_declared hformat
  cases hf : formats.choose declared with
  | error e =>
      rw [decodeObject, hchosen, hf]
      rfl
  | ok f =>
      rw [decodeObject_of_format (hchosen.trans hf), hvalue, payloadOf_spelled (hs f hf), hname]
      rfl

end Inline

/-- **An object that is spelled out in a document is read like one that is uploaded.**

Both are in the declared format or in the default one, are of the declared type and have the same
payload; and both are refused for the same reason if the format is not in use. -/
theorem inline_as_upload {form : WireValue} {tag typeName s : String} {declared : Option String}
    {payload : Bytes} (htag : form.typeTag = some tag)
    (htype : ValueType.ofTag? tag = some .object)
    (hname : form.info.get? WireValue.objectTypeName = some (.string typeName))
    (hformat : form.info.get? WireValue.serializationDataFormat = declared.map Json.string)
    (hvalue : form.value = .string s)
    (hs : ∀ f, formats.choose declared = .ok f → Spelled f payload s) :
    formats.decode form = formats.decodeUpload payload (some typeName) declared ∧
      (∀ f, formats.choose declared = .ok f →
        formats.decode form = .ok (.object ⟨some payload, some f, some typeName, .empty⟩)) ∧
      ∀ name, declared = some name → formats.supports name = false →
        formats.decode form = .error (.unrecognizedFormat name) := by
  have hdecode : formats.decode form = formats.decodeObject .object form :=
    TypedValue.decode_of_tag formats form htag htype
  rw [formats.decodeObject_eq hformat hname hvalue hs] at hdecode
  refine ⟨hdecode.trans (formats.decodeUpload_eq payload typeName declared).symm, ?_, ?_⟩
  · intro f hf
    rw [hdecode, hf]
    rfl
  · rintro name rfl hunsupported
    rw [hdecode, formats.choose_unsupported hunsupported]
    rfl

/-- The format may be declared in any spelling, and a binary payload is spelled out in base64. -/
theorem inline_as_upload_binary :
    let name := " Application/X-Java-Serialized-Object; v=1"
    let payload : Bytes := [0xAC, 0xED]
    let form : WireValue :=
      ⟨.string "rO0=", some "Object",
        .ofList [("objectTypeName", .string "Order"), ("serializationDataFormat", .string name)],
        none⟩
    ValueType.ofTag? "Object" = some .object ∧
      builtIn.choose (some name) = .ok native ∧
      Spelled native payload "rO0=" ∧
      builtIn.decode form = builtIn.decodeUpload payload (some "Order") (some name) ∧
      builtIn.decode form = .ok (.object ⟨some payload, some native, some "Order", .empty⟩) := by
  intro name payload form
  have htype : ValueType.ofTag? "Object" = some .object := by decide +kernel
  have hresolve : builtIn.resolve? name = some native := by decide +kernel
  have hchoose : builtIn.choose (some name) = .ok native := require_of_resolve? hresolve
  have hspelled : Spelled native payload "rO0=" := by
    rw [Spelled, if_pos rfl]
    decide +kernel
  have htag : form.typeTag = some "Object" := rfl
  have hname : form.info.get? WireValue.objectTypeName = some (.string "Order") := by
    simp [form, Dictionary.ofList, Dictionary.get?_insert, WireValue.objectTypeName]
  have hformat : form.info.get? WireValue.serializationDataFormat
      = (some name).map Json.string := Dictionary.get?_insert_self _ _ _
  have hvalue : form.value = .string "rO0=" := rfl
  obtain ⟨hupload, hobject, -⟩ :=
    inline_as_upload .builtIn htag htype hname hformat hvalue fun f hf => by
      rw [← Except.ok.inj (hchoose.symm.trans hf)]
      exact hspelled
  exact ⟨htype, hchoose, hspelled, hupload, hobject _ hchoose⟩

end DataFormats

end CaseGateway
