/-
Numbers and their texts.

The text of an integer reads back to it, as any other digits behind an optional sign do that
denote it.  The text of a double never reads as an integer, since it has a point or an exponent.  So whether a number is taken as it is or by its text
makes no difference to who wants an integer.
-/
import CaseGateway.Json.Numeral
import CaseGateway.Proofs.Text.Digits

namespace CaseGateway

/-! ### Integers -/

/-- Integers are written as the library writes them. -/
theorem textOfInteger_eq_toString (n : Int) : textOfInteger n = toString n := by
  cases n with
  | ofNat m => rfl
  | negSucc m =>
      have hneg : Int.negSucc m < 0 := Int.negSucc_lt_zero m
      have htext : toString (Int.negSucc m) = "-" ++ (m + 1).repr := rfl
      rw [textOfInteger, if_pos hneg, htext, ← String.toList_inj, String.toList_append,
        String.toList_ofList, Nat.toList_repr]
      rfl

/-- The digits behind an optional sign, which is given apart. -/
theorem integerOfText?_eq (s : String) :
    integerOfText? s =
      let signed := Double.signOfChars s.toList
      if signed.2.isEmpty || !signed.2.all Char.isDigit then none
      else
        let n : Int := Text.naturalOfDigits signed.2
        some (if signed.1 then -n else n) := by
  unfold integerOfText?
  split
  rename_i negative ds hsign
  have hsigned : Double.signOfChars s.toList = (negative, ds) := hsign
  rw [hsigned]

/-- A sign is split off, or there is none. -/
theorem signOfChars_cases (cs : List Char) :
    (∃ ds, cs = '-' :: ds ∧ Double.signOfChars cs = (true, ds)) ∨
      (∃ ds, cs = '+' :: ds ∧ Double.signOfChars cs = (false, ds)) ∨
      Double.signOfChars cs = (false, cs) := by
  unfold Double.signOfChars
  split
  · exact Or.inl ⟨_, rfl, rfl⟩
  · exact Or.inr (Or.inl ⟨_, rfl, rfl⟩)
  · exact Or.inr (Or.inr rfl)

theorem signOfChars_of_isDigit {cs : List Char} (h : ∀ c ∈ cs, c.isDigit) :
    Double.signOfChars cs = (false, cs) := by
  rcases signOfChars_cases cs with ⟨ds, rfl, -⟩ | ⟨ds, rfl, -⟩ | hsign
  · exact absurd (h '-' List.mem_cons_self) (by decide)
  · exact absurd (h '+' List.mem_cons_self) (by decide)
  · exact hsign

/-- A run of digits behind an optional sign reads as the number it writes. -/
theorem integerOfText?_of_sign {s : String} {negative : Bool} {ds : List Char}
    (hsign : Double.signOfChars s.toList = (negative, ds)) (hne : ds ≠ [])
    (hdigits : ∀ c ∈ ds, c.isDigit) :
    integerOfText? s
      = some (if negative then -(Text.naturalOfDigits ds : Int) else Text.naturalOfDigits ds) := by
  have hrun : (ds.isEmpty || !ds.all Char.isDigit) = false := by simpa [hne] using hdigits
  rw [integerOfText?_eq, hsign]
  simp only [hrun]
  rfl

theorem signOfChars_textOfInteger (n : Int) :
    Double.signOfChars (textOfInteger n).toList
      = (decide (n < 0), Text.digitsOfNatural n.natAbs) := by
  by_cases h : n < 0
  · simp [textOfInteger, h, Double.signOfChars]
  · simp [textOfInteger, h, signOfChars_of_isDigit (Text.isDigit_of_mem_digits n.natAbs)]

/-- An integer is read back from its text. -/
theorem integerOfText?_textOfInteger (n : Int) : integerOfText? (textOfInteger n) = some n := by
  have hvalue := Text.naturalOfDigits_digitsOfNatural n.natAbs
  rw [integerOfText?_of_sign (signOfChars_textOfInteger n) (Text.digits_ne_nil n.natAbs)
    (Text.isDigit_of_mem_digits n.natAbs), hvalue]
  by_cases h : n < 0
  · rw [if_pos (decide_eq_true h)]
    exact congrArg some (by omega)
  · rw [if_neg (by simpa using h)]
    exact congrArg some (by omega)

/-- An optional sign and at least one digit, with the integer they denote. -/
inductive IntegerText : List Char → Int → Prop
  | unsigned {ds : List Char} (hne : ds ≠ []) (hdigits : ∀ c ∈ ds, c.isDigit) :
      IntegerText ds (Text.naturalOfDigits ds)
  | plus {ds : List Char} (hne : ds ≠ []) (hdigits : ∀ c ∈ ds, c.isDigit) :
      IntegerText ('+' :: ds) (Text.naturalOfDigits ds)
  | minus {ds : List Char} (hne : ds ≠ []) (hdigits : ∀ c ∈ ds, c.isDigit) :
      IntegerText ('-' :: ds) (-Text.naturalOfDigits ds)

/-- Such texts are read as integers, and no others. -/
theorem integerOfText?_eq_some_iff {s : String} {n : Int} :
    integerOfText? s = some n ↔ IntegerText s.toList n := by
  constructor
  · intro h
    rw [integerOfText?_eq] at h
    simp only at h
    split at h
    · exact nomatch h
    next hrun =>
    obtain ⟨hne, hdigits⟩ : (Double.signOfChars s.toList).2 ≠ [] ∧
        ∀ c ∈ (Double.signOfChars s.toList).2, c.isDigit := by simpa using hrun
    cases h
    rcases signOfChars_cases s.toList with ⟨ds, hs, hsign⟩ | ⟨ds, hs, hsign⟩ | hsign
    · rw [hsign] at hne hdigits ⊢
      rw [hs]
      exact .minus hne hdigits
    · rw [hsign] at hne hdigits ⊢
      rw [hs]
      exact .plus hne hdigits
    · rw [hsign] at hne hdigits ⊢
      exact .unsigned hne hdigits
  · intro h
    generalize hs : s.toList = cs at h
    cases h with
    | unsigned hne hdigits =>
      exact integerOfText?_of_sign (by rw [hs, signOfChars_of_isDigit hdigits]) hne hdigits
    | plus hne hdigits => exact integerOfText?_of_sign (by rw [hs]; rfl) hne hdigits
    | minus hne hdigits => exact integerOfText?_of_sign (by rw [hs]; rfl) hne hdigits

/-- A character that is no digit and no sign cannot stand in an integer. -/
theorem integerOfText?_eq_none {s : String} {c : Char} (hmem : c ∈ s.toList)
    (hdigit : c.isDigit = false) (hminus : c ≠ '-') (hplus : c ≠ '+') :
    integerOfText? s = none := by
  have hrest : c ∈ (Double.signOfChars s.toList).2 := by
    rcases signOfChars_cases s.toList with ⟨ds, hs, hsign⟩ | ⟨ds, hs, hsign⟩ | hsign
    · rw [hs] at hmem
      rw [hsign]
      exact (List.mem_cons.mp hmem).resolve_left hminus
    · rw [hs] at hmem
      rw [hsign]
      exact (List.mem_cons.mp hmem).resolve_left hplus
    · rw [hsign]
      exact hmem
  have hall : (Double.signOfChars s.toList).2.all Char.isDigit = false :=
    List.all_eq_false.mpr ⟨c, hrest, by simp [hdigit]⟩
  rw [integerOfText?_eq]
  simp only [hall, Bool.not_false, Bool.or_true, if_true]

/-! ### Doubles -/

theorem point_mem_pointText (ds : List Char) (e : Int) : '.' ∈ Number.pointText ds e := by
  unfold Number.pointText
  split
  · simp
  · simp

theorem e_mem_exponentText (ds : List Char) (e : Int) : 'e' ∈ Number.exponentText ds e := by
  simp [Number.exponentText]

/-- A double is written with a point or with an exponent. -/
theorem point_or_e_mem_magnitudeText (rank : Nat) :
    '.' ∈ Number.magnitudeText rank ∨ 'e' ∈ Number.magnitudeText rank := by
  unfold Number.magnitudeText
  split
  · exact Or.inl (by decide)
  · simp only
    split
    · exact Or.inl (point_mem_pointText _ _)
    · exact Or.inr (e_mem_exponentText _ _)

/-- A double never looks like an integer. -/
theorem integerOfText?_double (d : Double) (h : d.isFinite) :
    integerOfText? (Number.double d h).text = none := by
  have hmem : ∀ c ∈ Number.magnitudeText d.rank, c ∈ (Number.double d h).text.toList := by
    intro c hc
    unfold Number.text
    rw [String.toList_ofList]
    split
    · exact List.mem_cons_of_mem _ hc
    · exact hc
  rcases point_or_e_mem_magnitudeText d.rank with hpoint | he
  · exact integerOfText?_eq_none (hmem _ hpoint) (by decide) (by decide) (by decide)
  · exact integerOfText?_eq_none (hmem _ he) (by decide) (by decide) (by decide)

/-- A number is an integer of some width just if its text is. -/
theorem Number.ofText?_text (w : IntWidth) (n : Number) :
    SizedInt.ofText? w n.text = n.toSized? w := by
  cases n with
  | integer n inRange =>
      show (integerOfText? (textOfInteger n)).bind (SizedInt.ofInt? w) = _
      rw [integerOfText?_textOfInteger]
      rfl
  | double d finite =>
      show (integerOfText? (Number.double d finite).text).bind (SizedInt.ofInt? w) = _
      rw [integerOfText?_double]
      rfl

end CaseGateway
