/-
Values survive their wire form.

Every value but an object is read back as it was written, the nulls of each type
included, once it has the precision in which values travel.  That is a matter of dates
only, which are cut to whole seconds.  NaNs are told apart neither in a number nor by the
text in their place, so any of them stands for all.

The tag says how to read what was written, so the data formats, which are for objects,
play no part.
-/
import CaseGateway.Proofs.Text.Base64
import CaseGateway.Proofs.Timestamp.RoundTrip
import CaseGateway.Value.Decode
import CaseGateway.Value.Encode

namespace CaseGateway

theorem ValueType.ofTag?_tag (t : ValueType) : ofTag? t.tag = some t := by
  cases t with
  | integral w => cases w <;> decide +kernel
  | _ => decide +kernel

namespace TypedValue

/-- Equality of values, of doubles by their binary form; but any two NaNs are alike. -/
def Alike (v w : TypedValue) : Prop :=
  v = w ∨ ∃ d e : Double, v = .double (some d) ∧ w = .double (some e) ∧ d.isNaN ∧ e.isNaN

theorem Alike.refl (v : TypedValue) : v.Alike v := Or.inl rfl

/-- Whether a value is an object. -/
def isObject : TypedValue → Bool
  | .object _ => true
  | _ => false

theorem normalized_normalized (v : TypedValue) : v.normalized.normalized = v.normalized := by
  cases v with
  | date t => cases t <;> rfl
  | _ => rfl

/-! ### Values of each type -/

theorem toSized?_ofSized {w : IntWidth} (n : SizedInt w) :
    (Number.ofSized n).toSized? w = some n := by
  show SizedInt.ofInt? w n.val = some n
  rw [SizedInt.ofInt?, dif_pos n.fits]

/-- A double that is neither finite nor a NaN is one of the two infinities. -/
theorem eq_infinity {d : Double} (hfinite : d.isFinite = false) (hnan : d.isNaN = false) :
    d = if d.negative then Double.infinity.neg else Double.infinity := by
  obtain ⟨negative, rank, hrank⟩ := d
  have hrank : rank = Double.infinityRank := by
    simp [Double.isFinite, Double.isNaN] at hfinite hnan
    omega
  subst hrank
  cases negative <;> rfl

theorem decodeDouble_string {s : String} {d : Double} (h : Double.ofText? s = some d) :
    decodeDouble (.string s) = .ok (some d) := by
  rw [decodeDouble, h]

/-- A double is read back as it is, or as a NaN if it is one. -/
theorem decodeDouble_doubleJson (d : Double) :
    ∃ e, decodeDouble (doubleJson d) = .ok (some e) ∧ (e = d ∨ e.isNaN ∧ d.isNaN) := by
  unfold doubleJson
  by_cases hfinite : d.isFinite
  · rw [dif_pos hfinite]
    exact ⟨d, rfl, Or.inl rfl⟩
  · rw [dif_neg hfinite]
    by_cases hnan : d.isNaN
    · rw [if_pos hnan]
      exact ⟨.nan, decodeDouble_string (by decide +kernel), Or.inr ⟨by decide, hnan⟩⟩
    · rw [if_neg hnan]
      have hd := eq_infinity (by simpa using hfinite) (by simpa using hnan)
      by_cases hneg : d.negative
      · rw [if_pos hneg] at hd ⊢
        exact ⟨d, by rw [hd]; exact decodeDouble_string (by decide +kernel), Or.inl rfl⟩
      · rw [if_neg hneg] at hd ⊢
        exact ⟨d, by rw [hd]; exact decodeDouble_string (by decide +kernel), Or.inl rfl⟩

theorem decodeDate_text (t : Timestamp) :
    decodeDate (.string t.wholeSecond.text) = .ok (some t.wholeSecond) := by
  rw [decodeDate, Timestamp.parse?_text t.wholeSecond rfl]

theorem decodeBytes_encode (bs : Bytes) :
    decodeBytes (.string (Base64.encode bs)) = .ok (some bs) := by
  rw [decodeBytes, decodeBase64, Base64.decode_encode]
  rfl

/-- A value with a tag is read as the type of the tag. -/
theorem decode_of_tag (formats : DataFormats) (form : WireValue) {tag : String} {type : ValueType}
    (htag : form.typeTag = some tag) (htype : ValueType.ofTag? tag = some type) :
    formats.decode form = formats.decodeAs form type := by
  simp only [DataFormats.decode, htag, htype]

theorem decode_tagged (formats : DataFormats) (j : Json) (t : ValueType) :
    formats.decode ⟨j, some t.tag, .empty, none⟩
      = formats.decodeAs ⟨j, some t.tag, .empty, none⟩ t :=
  decode_of_tag formats _ rfl (ValueType.ofTag?_tag t)

/-- **Every value but an object is read back from its wire form.** -/
theorem decode_encode_normalized (formats : DataFormats) (v : TypedValue) (h : v.isObject = false) :
    ∃ w, formats.decode (v.normalized.encode .full) = .ok w ∧ w.Alike v.normalized := by
  cases v with
  | object o => simp [isObject] at h
  | null => exact ⟨.null, decode_tagged formats _ .null, .refl _⟩
  | string s =>
      refine ⟨.string s, (decode_tagged formats _ .string).trans ?_, .refl _⟩
      cases s <;> rfl
  | boolean b =>
      refine ⟨.boolean b, (decode_tagged formats _ .boolean).trans ?_, .refl _⟩
      cases b <;> rfl
  | integral width n =>
      refine ⟨.integral width n, (decode_tagged formats _ (.integral width)).trans ?_, .refl _⟩
      cases n with
      | none => rfl
      | some n =>
          simp only [DataFormats.decodeAs, normalized, scalarJson, decodeIntegral, toSized?_ofSized]
          rfl
  | double d =>
      cases d with
      | none => exact ⟨.double none, decode_tagged formats _ .double, .refl _⟩
      | some d =>
          obtain ⟨e, he, halike⟩ := decodeDouble_doubleJson d
          refine ⟨.double (some e), (decode_tagged formats _ .double).trans ?_, ?_⟩
          · simp only [DataFormats.decodeAs, normalized, scalarJson, he]
            rfl
          · rcases halike with rfl | ⟨hnan, hnan'⟩
            · exact .refl _
            · exact Or.inr ⟨e, d, rfl, rfl, hnan, hnan'⟩
  | date t =>
      cases t with
      | none => exact ⟨.date none, decode_tagged formats _ .date, .refl _⟩
      | some t =>
          refine ⟨.date (some t.wholeSecond), (decode_tagged formats _ .date).trans ?_, .refl _⟩
          simp only [DataFormats.decodeAs, normalized, scalarJson, decodeDate_text]
          rfl
  | bytes bs =>
      cases bs with
      | none => exact ⟨.bytes none, decode_tagged formats _ .bytes, .refl _⟩
      | some bs =>
          refine ⟨.bytes (some bs), (decode_tagged formats _ .bytes).trans ?_, .refl _⟩
          simp only [DataFormats.decodeAs, normalized, scalarJson, EncodeOptions.full, if_true,
            decodeBytes_encode]
          rfl

end TypedValue

end CaseGateway
