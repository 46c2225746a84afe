/-
Byte arrays have one text each.

A byte array travels as base64, and of all texts that could be meant to spell the same bytes the
decoder takes none but the one that is written.  Decoding and encoding are therefore inverse to
each other on all texts that are accepted, and whatever else is sent for a byte array is refused
as malformed base64, never as something of the wrong kind.
-/
import CaseGateway.Proofs.Value.RoundTrip

namespace CaseGateway.TypedValue

theorem decodeBase64_eq_ok_iff {s : String} {bs : Bytes} :
    decodeBase64 s = .ok bs ↔ s = Base64.encode bs := by
  rw [decodeBase64, mapError_eq_ok, Base64.decode_eq_ok_iff]

/-- A text that is not read as bytes is reported with what is wrong with its base64. -/
theorem decodeBase64_of_ne {s : String} (h : ∀ bs, s ≠ Base64.encode bs) :
    ∃ fault : Base64.Fault, decodeBase64 s = .error (.base64 fault.message) := by
  rw [decodeBase64]
  cases hs : Base64.decode s with
  | error fault => exact ⟨fault, rfl⟩
  | ok bs => exact absurd (Base64.decode_eq_ok_iff.mp hs) (h bs)

section Tagged

variable (formats : DataFormats) {form : WireValue} {tag : String}
  (htag : form.typeTag = some tag) (htype : ValueType.ofTag? tag = some .bytes)

include htag htype

theorem decode_bytes_string (s : String) :
    formats.decode { form with value := .string s }
      = (decodeBase64 s).map fun bs => .bytes (some bs) := by
  refine (decode_of_tag formats { form with value := .string s } htag htype).trans ?_
  simp only [DataFormats.decodeAs, decodeBytes]
  cases decodeBase64 s <;> rfl

theorem decode_bytes_eq_ok_iff {s : String} {v : TypedValue} :
    formats.decode { form with value := .string s } = .ok v ↔
      ∃ bs, v = .bytes (some bs) ∧ s = Base64.encode bs := by
  rw [decode_bytes_string formats htag htype, map_eq_ok]
  simp only [decodeBase64_eq_ok_iff]
  exact ⟨fun ⟨bs, hs, hv⟩ => ⟨bs, hv.symm, hs⟩, fun ⟨bs, hv, hs⟩ => ⟨bs, hs, hv.symm⟩⟩

end Tagged

/-- **A byte array is read from the text that is written for it, and from no other.**

A text with a tag of byte arrays is read exactly if it is what some byte array is written as when
its content is wanted, and then it is read as that array.  Each array has one text, what is read
is written as it was sent, and every other text is malformed base64. -/
theorem bytes_text_canonical (formats : DataFormats) {form : WireValue} {tag : String}
    (htag : form.typeTag = some tag) (htype : ValueType.ofTag? tag = some .bytes)
    (deserialize : Bool) :
    let read (s : String) := formats.decode { form with value := .string s }
    let written (v : TypedValue) := v.encode ⟨true, deserialize⟩
    (∀ s bs, read s = .ok (.bytes (some bs)) ↔ (written (.bytes (some bs))).value = .string s) ∧
    (∀ bs, ∃! s, read s = .ok (.bytes (some bs))) ∧
    (∀ s v, read s = .ok v → (∃ bs, v = .bytes (some bs)) ∧
      written v = ⟨.string s, some ValueType.bytes.tag, .empty, none⟩) ∧
    ∀ s, (∀ bs, (written (.bytes (some bs))).value ≠ .string s) →
      ∃ fault : Base64.Fault, read s = .error (.base64 fault.message) ∧
        ∀ name, (ValueError.base64 fault.message).describeFor name
          = name ++ " due to " ++ (ValueError.base64 fault.message).message := by
  intro read written
  have hwritten (s : String) (bs : Bytes) :
      (written (.bytes (some bs))).value = .string s ↔ s = Base64.encode bs :=
    ⟨fun h => (Json.string.inj h).symm, fun h => congrArg Json.string h.symm⟩
  have hread (s : String) (bs : Bytes) :
      read s = .ok (.bytes (some bs)) ↔ s = Base64.encode bs := by
    rw [decode_bytes_eq_ok_iff formats htag htype]
    simp
  refine ⟨fun s bs => (hread s bs).trans (hwritten s bs).symm, ?_, ?_, ?_⟩
  · intro bs
    exact ⟨Base64.encode bs, (hread _ bs).mpr rfl, fun s hs => (hread s bs).mp hs⟩
  · intro s v h
    obtain ⟨bs, rfl, rfl⟩ := (decode_bytes_eq_ok_iff formats htag htype).mp h
    exact ⟨⟨bs, rfl⟩, rfl⟩
  · intro s hs
    obtain ⟨fault, hfault⟩ := decodeBase64_of_ne fun bs => (hwritten s bs).not.mp (hs bs)
    refine ⟨fault, ?_, fun _ => rfl⟩
    show formats.decode { form with value := .string s } = _
    rw [decode_bytes_string formats htag htype, hfault]
    rfl

/-- Two bytes are read from a text whose last symbol has nothing but zeros to spare.  With another bit
there it is malformed. -/
theorem bytes_text_canonical_pair :
    let form : WireValue := ⟨.null, some "byte[]", .empty, none⟩
    let read (s : String) := DataFormats.builtIn.decode { form with value := .string s }
    form.typeTag = some "byte[]" ∧ ValueType.ofTag? "byte[]" = some .bytes ∧
      read "AQI=" = .ok (.bytes (some [1, 2])) ∧
      ∃ fault : Base64.Fault, read "AQJ=" = .error (.base64 fault.message) := by
  intro form read
  have htag : form.typeTag = some "byte[]" := rfl
  have htype : ValueType.ofTag? "byte[]" = some .bytes := by decide +kernel
  have htext : Base64.encode [1, 2] = "AQI=" := by decide +kernel
  have hother (bs : Bytes) : Base64.encode bs ≠ "AQJ=" := by
    intro h
    have hfault : Base64.decode "AQJ=" = .error (.lastSymbol 74 2) := by decide +kernel
    rw [← h, Base64.decode_encode] at hfault
    cases hfault
  obtain ⟨hread, -, -, hfaulty⟩ := bytes_text_canonical .builtIn htag htype true
  obtain ⟨fault, hfault, -⟩ := hfaulty "AQJ=" fun bs h => hother bs (Json.string.inj h)
  exact ⟨htag, htype, (hread _ _).mpr (congrArg Json.string htext), fault, hfault⟩

end CaseGateway.TypedValue
