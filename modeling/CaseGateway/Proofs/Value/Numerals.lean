/-
Numbers and the texts of numbers as values.

The types of numbers take a number or its text.  For the integers the two ways have nothing in
common, one checks the number against the width and the other one reads digits, and they
agree since the text of an integer denotes it and no double has such a text.  For doubles
they agree since the nearest double to the shortest decimal is the double itself, and the
digits of an integer are rounded just as the integer is.
-/
import CaseGateway.Proofs.Number.Layout
import CaseGateway.Proofs.Value.RoundTrip

namespace CaseGateway

/-- Whether the values of a type are numbers. -/
def ValueType.isNumeric : ValueType → Bool
  | .integral _ | .double => true
  | _ => false

namespace TypedValue

/-! ### Integers -/

theorem ofInt?_eq_some_iff {w : IntWidth} {n : Int} {i : SizedInt w} :
    SizedInt.ofInt? w n = some i ↔ n = i.val := by
  unfold SizedInt.ofInt?
  split
  · next h =>
    rw [Option.some_inj]
    exact ⟨fun hi => by rw [← hi], fun hn => by subst hn; rfl⟩
  · next h => exact ⟨nofun, fun hn => absurd (hn ▸ i.fits) h⟩

/-- A number is an integer of a width just if it is that integer. -/
theorem toSized?_eq_some_iff {w : IntWidth} {n : Number} {i : SizedInt w} :
    n.toSized? w = some i ↔ ∃ h, n = .integer i.val h := by
  cases n with
  | integer n inRange =>
    refine ofInt?_eq_some_iff.trans ⟨?_, ?_⟩
    · rintro rfl
      exact ⟨inRange, rfl⟩
    · rintro ⟨h, hn⟩
      injection hn
  | double d finite => exact ⟨nofun, fun ⟨_, h⟩ => nomatch h⟩

/-- A text is an integer of a width just if it denotes that integer. -/
theorem ofText?_eq_some_iff {w : IntWidth} {s : String} {i : SizedInt w} :
    SizedInt.ofText? w s = some i ↔ IntegerText s.toList i.val := by
  unfold SizedInt.ofText?
  simp only [Option.bind_eq_some_iff, integerOfText?_eq_some_iff, ofInt?_eq_some_iff,
    exists_eq_right]

/-! ### Reading by a tag -/

section Tagged

variable (formats : DataFormats) {form : WireValue} {tag : String} (htag : form.typeTag = some tag)
include htag

section Integral

variable {w : IntWidth} (htype : ValueType.ofTag? tag = some (.integral w))
include htype

theorem decode_integral_number (n : Number) :
    formats.decode { form with value := .number n }
      = (n.toSized? w).elim (.error (.numberFormat n.text)) fun i => .ok (.integral w (some i)) := by
  refine (decode_of_tag formats { form with value := .number n } htag htype).trans ?_
  simp only [DataFormats.decodeAs, decodeIntegral]
  cases n.toSized? w <;> rfl

theorem decode_integral_string (s : String) :
    formats.decode { form with value := .string s }
      = (SizedInt.ofText? w s).elim (.error (.numberFormat s)) fun i =>
          .ok (.integral w (some i)) := by
  refine (decode_of_tag formats { form with value := .string s } htag htype).trans ?_
  simp only [DataFormats.decodeAs, decodeIntegral]
  cases SizedInt.ofText? w s <;> rfl

end Integral

section Double

variable (htype : ValueType.ofTag? tag = some .double)
include htype

theorem decode_double_number (n : Number) :
    formats.decode { form with value := .number n } = .ok (.double (some n.toDouble)) :=
  decode_of_tag formats { form with value := .number n } htag htype

/-- The text of a number is read as the double the number stands for. -/
theorem decode_double_text (n : Number) :
    formats.decode { form with value := .string n.text } = .ok (.double (some n.toDouble)) := by
  refine (decode_of_tag formats { form with value := .string n.text } htag htype).trans ?_
  simp only [DataFormats.decodeAs, decodeDouble_string n.ofText?_text_toDouble]
  rfl

end Double

end Tagged

/-- A value comes out where something was found. -/
theorem elim_eq_ok_iff {ε α β : Type} {o : Option α} {e : ε} {f : α → β} {b : β} :
    (o.elim (.error e) fun a => .ok (f a) : Except ε β) = .ok b ↔ ∃ a, b = f a ∧ o = some a := by
  cases o with
  | none => simp
  | some a => simp [eq_comm]

/-- **A number means the same as its text, and an integer is only ever read exactly.**

Each type of numbers reads a number and its text to the same value, or refuses both as
malformed.  A double is read from every number.  An integer of some width is read from that
very integer and from no other number, so none is rounded or wraps around, and from the
texts that denote it and no others. -/
theorem number_as_text (formats : DataFormats) {form : WireValue} {tag : String} {type : ValueType}
    (htag : form.typeTag = some tag) (htype : ValueType.ofTag? tag = some type)
    (hnumeric : type.isNumeric) :
    (∀ n : Number,
      formats.decode { form with value := .number n }
        = formats.decode { form with value := .string n.text } ∧
      ((∃ v, formats.decode { form with value := .number n } = .ok v ∧ v.type = type ∧
          v.isNull = false) ∨
        formats.decode { form with value := .number n } = .error (.numberFormat n.text))) ∧
    (type = .double → ∀ n : Number,
      formats.decode { form with value := .number n } = .ok (.double (some n.toDouble))) ∧
    (∀ w, type = .integral w → ∀ v,
      (∀ n : Number, formats.decode { form with value := .number n } = .ok v ↔
        ∃ i : SizedInt w, v = .integral w (some i) ∧ ∃ h, n = .integer i.val h) ∧
      ∀ s : String, formats.decode { form with value := .string s } = .ok v ↔
        ∃ i : SizedInt w, v = .integral w (some i) ∧ IntegerText s.toList i.val) := by
  cases type with
  | integral w =>
    refine ⟨fun n => ?_, fun htype => ValueType.noConfusion htype, ?_⟩
    · have hnumber := decode_integral_number formats htag htype n
      have htext := decode_integral_string formats htag htype n.text
      rw [Number.ofText?_text] at htext
      refine ⟨hnumber.trans htext.symm, ?_⟩
      rw [hnumber]
      cases n.toSized? w with
      | none => exact Or.inr rfl
      | some i => exact Or.inl ⟨_, rfl, rfl, rfl⟩
    · rintro w' ⟨⟩ v
      refine ⟨fun n => ?_, fun s => ?_⟩
      · rw [decode_integral_number formats htag htype, elim_eq_ok_iff]
        simp only [toSized?_eq_some_iff]
      · rw [decode_integral_string formats htag htype, elim_eq_ok_iff]
        simp only [ofText?_eq_some_iff]
  | double =>
    refine ⟨fun n => ?_, fun _ => decode_double_number formats htag htype,
      fun _ htype => ValueType.noConfusion htype⟩
    rw [decode_double_number formats htag htype, decode_double_text formats htag htype]
    exact ⟨rfl, Or.inl ⟨_, rfl, rfl, rfl⟩⟩
  | null | string | boolean | date | bytes | object | serializable =>
    exact absurd hnumeric Bool.false_ne_true

/-- Zeros in front and a sign are allowed in a text, and a number that is too large is an error in
either form. -/
theorem number_as_text_short :
    let form : WireValue := ⟨.null, some "Short", .empty, none⟩
    let large : Number := .integer 40000 (by decide)
    form.typeTag = some "Short" ∧ ValueType.ofTag? "Short" = some (.integral .short) ∧
      (ValueType.integral .short).isNumeric ∧ large.text = "40000" ∧
      DataFormats.builtIn.decode { form with value := .number large }
        = DataFormats.builtIn.decode { form with value := .string large.text } ∧
      DataFormats.builtIn.decode { form with value := .string "-0040" }
        = .ok (.integral .short (some ⟨-40, by decide⟩)) := by
  intro form large
  have htag : form.typeTag = some "Short" := rfl
  have htype : ValueType.ofTag? "Short" = some (.integral .short) := by decide +kernel
  obtain ⟨hsame, -, hintegral⟩ := number_as_text .builtIn htag htype rfl
  refine ⟨htag, htype, rfl, by decide +kernel, (hsame large).1, ?_⟩
  refine ((hintegral .short rfl _).2 "-0040").mpr ⟨⟨-40, by decide⟩, rfl, ?_⟩
  exact @IntegerText.minus "0040".toList (by decide) (List.all_eq_true.mp (by decide))

end TypedValue

end CaseGateway
