/-
Texts that values are found by.

A value is found by the text it is shown as.  For every type but one that is an equation of
texts, since the text that is asked for is compared with the text that is shown, made once by
way of JSON and once without.  A double is found by a number instead: the text is read, in a
grammar with other words than the one values are written in, and has to give the same number.
So it is found by other texts as well, but also by its own, unless it is not a number.
-/
import CaseGateway.Proofs.Number.Layout
import CaseGateway.Proofs.Text.Case
import CaseGateway.Proofs.Value.RoundTrip
import CaseGateway.Query.Parameter
import CaseGateway.Resource.HistoricVariable

namespace CaseGateway

/-! ### Doubles in any spelling -/

namespace Double

variable {s : String} {negative : Bool} {cs : List Char} {d : Double} {decimal : Decimal}

/-- Where a decimal is read, no word begins. -/
theorem lower_ne_of_ofChars? (h : Decimal.ofChars? cs = some decimal) {word : String}
    {letter : Char} {rest : List Char} (hword : word.toList = letter :: rest)
    (hletter : 97 ≤ letter.toNat) : Text.lower (String.ofList cs) ≠ word := by
  intro heq
  have hchars : cs.map Char.toLower = letter :: rest := by
    rw [← hword, ← heq]
    simp [Text.lower]
  cases cs with
  | nil => exact nomatch hchars
  | cons c cs =>
      obtain ⟨hdigit, hpoint⟩ := Text.not_numeral_of_toLower (List.cons.inj hchars).1 hletter
      exact nomatch (Decimal.ofChars?_eq_none hdigit hpoint _).symm.trans h

/-- A decimal behind an optional sign. -/
theorem ofLooseText?_of_ofChars? (hsign : signOfChars s.toList = (negative, cs))
    (h : Decimal.ofChars? cs = some decimal) (hrank : decimal.nearestRank < 0x8000000000000000) :
    ofLooseText? s = some ⟨negative, decimal.nearestRank, hrank⟩ := by
  have hnan : Text.lower (String.ofList cs) ≠ "nan" :=
    lower_ne_of_ofChars? h rfl (by decide)
  have hinf :
      ¬(Text.lower (String.ofList cs) = "inf" ∨ Text.lower (String.ofList cs) = "infinity") :=
    not_or.mpr ⟨lower_ne_of_ofChars? h rfl (by decide), lower_ne_of_ofChars? h rfl (by decide)⟩
  simp only [ofLooseText?, hsign, if_neg hnan, if_neg hinf, h, Option.map_some, neg_ofRank hrank]

theorem ofLooseText?_text (d : Double) (h : d.isFinite) :
    ofLooseText? (Number.double d h).text = some d := by
  obtain ⟨decimal, hsign, hread, hrank⟩ := signOfChars_text d h
  have hlt : decimal.nearestRank < 0x8000000000000000 := hrank ▸ d.rank_lt
  rw [ofLooseText?_of_ofChars? hsign hread hlt]
  simp only [hrank]

theorem sameNumber_self (h : d.isNaN = false) : d.sameNumber d := by
  simp [sameNumber, h]

end Double

/-! ### What values are shown as -/

namespace TypedValue

/-- A double that is a number is shown as a text that the number is read from. -/
theorem scalarText?_doubleJson {d : Double} (hnan : d.isNaN = false) :
    ∃ text, Parameter.scalarText? (doubleJson d) = some text ∧
      Double.ofLooseText? text = some d := by
  unfold doubleJson
  by_cases hfinite : d.isFinite
  · rw [dif_pos hfinite]
    exact ⟨_, rfl, Double.ofLooseText?_text d hfinite⟩
  · rw [dif_neg hfinite, if_neg (by simp [hnan])]
    have hd := eq_infinity (by simpa using hfinite) hnan
    by_cases hneg : d.negative
    · rw [if_pos hneg] at hd ⊢
      exact ⟨"-Infinity", rfl, by rw [hd]; decide +kernel⟩
    · rw [if_neg hneg] at hd ⊢
      exact ⟨"Infinity", rfl, by rw [hd]; decide +kernel⟩

end TypedValue

/-- Whether the values of a type are found by the very text they are shown as. -/
def ValueType.isVerbatim : ValueType → Bool
  | .string | .boolean | .integral _ | .date => true
  | _ => false

/-- Whether the values of a type have no texts that they are found by. -/
def ValueType.isHidden : ValueType → Bool
  | .null | .bytes | .object | .serializable => true
  | _ => false

namespace TypedValue

variable {v : TypedValue}

theorem rendersAs_verbatim_iff (h : v.type.isVerbatim) (options : EncodeOptions) (raw : String) :
    v.rendersAs raw ↔ Parameter.scalarText? (v.encode options).value = some raw := by
  cases v with
  | string s => cases s <;> simp [rendersAs, encode, scalarJson, Parameter.scalarText?]
  | boolean b => cases b <;> simp [rendersAs, encode, scalarJson, Parameter.scalarText?]
  | integral w n =>
      cases n <;>
        simp [rendersAs, encode, scalarJson, Parameter.scalarText?, Number.ofSized, Number.text,
          SizedInt.text]
  | date t => cases t <;> simp [rendersAs, encode, scalarJson, Parameter.scalarText?]
  | object o =>
      rw [type] at h
      split at h <;> cases h
  | null | double d | bytes bs => cases h

theorem rendersAs_double {d : Double} (hnan : d.isNaN = false) (options : EncodeOptions) :
    ∃ text, Parameter.scalarText? ((TypedValue.double (some d)).encode options).value = some text ∧
      (TypedValue.double (some d)).rendersAs text := by
  obtain ⟨text, htext, hread⟩ := scalarText?_doubleJson hnan
  refine ⟨text, htext, ?_⟩
  rw [rendersAs, hread]
  exact Double.sameNumber_self hnan

theorem rendersAs_hidden (h : v.type.isHidden) (raw : String) : v.rendersAs raw = false := by
  cases v with
  | null | bytes bs | object o => rfl
  | string s | boolean b | integral w n | double d | date t => cases h

/-- Whatever scalar is shown of a value that has texts is a text of it, unless it is not a number. -/
theorem rendersAs_of_shown {options : EncodeOptions} {text : String}
    (hshown : Parameter.scalarText? (v.encode options).value = some text)
    (htype : v.type.isHidden = false) (hnan : v.type = .double → text ≠ "NaN") :
    v.rendersAs text := by
  by_cases hverbatim : v.type.isVerbatim
  · exact (rendersAs_verbatim_iff hverbatim options text).mpr hshown
  · cases v with
    | double d =>
        cases d with
        | none => cases hshown
        | some d =>
            have hd : d.isNaN = false := by
              by_contra hd
              rw [Bool.not_eq_false] at hd
              have hfinite : ¬d.isFinite := by
                simp only [Double.isNaN, Double.isFinite, decide_eq_true_eq] at hd ⊢
                omega
              have hjson : doubleJson d = .string "NaN" := by
                rw [doubleJson, dif_neg hfinite, if_pos hd]
              have htext : Parameter.scalarText? (doubleJson d) = some text := hshown
              rw [hjson] at htext
              exact hnan rfl (Option.some.inj htext).symm
            obtain ⟨text', htext', hrenders⟩ := rendersAs_double hd options
            rw [Option.some.inj (hshown.symm.trans htext')]
            exact hrenders
    | object o =>
        rw [type] at htype
        split at htype <;> cases htype
    | null | bytes bs => cases htype
    | string s | boolean b | integral w n | date t => exact absurd rfl hverbatim

end TypedValue

end CaseGateway
