/-
A double is read back from its text.

The text shows the digits of the shortest decimal, in one of several layouts: behind zeros,
around a point, in front of zeros, or with an exponent.  Wherever the point is, the digits
and the place of the first of them are what a reader finds, and with them the value.  A
value is all that rounding looks at.
-/
import CaseGateway.Proofs.Number.Shortest
import CaseGateway.Proofs.Number.Text

namespace CaseGateway

open Text (naturalOfDigits digitsOfNatural)

/-! ### Reading a decimal -/

namespace Decimal

section Parts

variable {whole fraction : List Char} (hne : whole ≠ []) (hwhole : ∀ c ∈ whole, c.isDigit)
  (hfraction : ∀ c ∈ fraction, c.isDigit)
include hne hwhole

theorem ofChars?_digits : ofChars? whole = some ⟨naturalOfDigits whole, 0⟩ := by
  have htake := Text.takeWhile_digits hwhole Text.noDigitAhead_nil
  have hdrop := Text.dropWhile_digits hwhole Text.noDigitAhead_nil
  rw [List.append_nil] at htake hdrop
  simp [ofChars?, htake, hdrop, hne]

include hfraction

theorem ofChars?_point :
    ofChars? (whole ++ '.' :: fraction)
      = some ⟨naturalOfDigits (whole ++ fraction), -fraction.length⟩ := by
  have hpoint := Text.noDigitAhead_cons (show '.'.isDigit = false by decide) fraction
  have htake := Text.takeWhile_digits hfraction Text.noDigitAhead_nil
  have hdrop := Text.dropWhile_digits hfraction Text.noDigitAhead_nil
  rw [List.append_nil] at htake hdrop
  simp [ofChars?, Text.takeWhile_digits hwhole hpoint, Text.dropWhile_digits hwhole hpoint,
    htake, hdrop, hne]

/-- The exponent counts from the point, which may be left out where there is no fraction. -/
theorem ofChars?_exponent {more : List Char} {n : Int} (hmore : exponentOfChars? more = some n) :
    ofChars? (whole ++ (if fraction.isEmpty then [] else '.' :: fraction) ++ 'e' :: more)
      = some ⟨naturalOfDigits (whole ++ fraction), n - fraction.length⟩ := by
  have he := Text.noDigitAhead_cons (show 'e'.isDigit = false by decide) more
  cases fraction with
  | nil =>
    simp [ofChars?, Text.takeWhile_digits hwhole he, Text.dropWhile_digits hwhole he, hne, hmore]
  | cons c ds =>
    have hpoint := Text.noDigitAhead_cons (show '.'.isDigit = false by decide) (c :: ds ++ 'e' :: more)
    have htake := Text.takeWhile_digits hfraction he
    have hdrop := Text.dropWhile_digits hfraction he
    rw [List.cons_append] at htake hdrop hpoint
    simp [ofChars?, Text.takeWhile_digits hwhole hpoint, Text.dropWhile_digits hwhole hpoint,
      htake, hdrop, hmore]

end Parts

/-- A signed exponent is read back. -/
theorem exponentOfChars?_sign (e : Int) :
    exponentOfChars? ((if e < 0 then '-' else '+') :: digitsOfNatural e.natAbs) = some e := by
  have hrun : ((digitsOfNatural e.natAbs).isEmpty
      || !(digitsOfNatural e.natAbs).all Char.isDigit) = false := by
    simpa [Text.digits_ne_nil] using Text.isDigit_of_mem_digits e.natAbs
  have hvalue := Text.naturalOfDigits_digitsOfNatural e.natAbs
  by_cases h : e < 0
  · simp only [exponentOfChars?, if_pos h, hrun, hvalue, Bool.false_eq_true, if_false, if_true]
    exact congrArg some (by omega)
  · simp only [exponentOfChars?, if_neg h, hrun, hvalue, Bool.false_eq_true, if_false]
    exact congrArg some (by omega)

/-- Neither a letter nor a sign begins a decimal. -/
theorem ofChars?_eq_none {c : Char} (hdigit : c.isDigit = false) (hpoint : c ≠ '.')
    (cs : List Char) : ofChars? (c :: cs) = none := by
  simp [ofChars?, hdigit, hpoint]

end Decimal

/-! ### The layouts -/

namespace Number

/-- The decimal of a run of digits, the first of them at a power of ten. -/
def leading (ds : List Char) (e : Int) : Decimal :=
  ⟨naturalOfDigits ds, e + 1 - ds.length⟩

/-- Only zeros at the end are missing. -/
theorem digits_eq_scientific (d : Decimal) :
    ∃ zeros, digitsOfNatural d.digits = (scientific d).1 ++ List.replicate zeros '0' := by
  set reversed := (digitsOfNatural d.digits).reverse with hreversed
  have hsplit := List.takeWhile_append_dropWhile (p := (· == '0')) (l := reversed)
  have hzeros : reversed.takeWhile (· == '0')
      = List.replicate (reversed.takeWhile (· == '0')).length '0' :=
    List.eq_replicate_of_mem fun c hc => by
      simpa using List.all_eq_true.mp List.all_takeWhile c hc
  refine ⟨(reversed.takeWhile (· == '0')).length, ?_⟩
  rw [hzeros] at hsplit
  have hfull := congrArg List.reverse hsplit
  rw [List.reverse_append, List.reverse_replicate, hreversed, List.reverse_reverse] at hfull
  exact hfull.symm

/-- The digits of a decimal and the place of the first tell its value. -/
theorem value_scientific {d : Decimal} (h : 0 < d.digits) :
    (scientific d).1 ≠ [] ∧ (∀ c ∈ (scientific d).1, c.isDigit) ∧
      (leading (scientific d).1 (scientific d).2).value = d.value := by
  obtain ⟨zeros, hzeros⟩ := digits_eq_scientific d
  have hnumber : d.digits = 10 ^ zeros * naturalOfDigits (scientific d).1 := by
    rw [← Nat.pow_eq, ← Text.naturalOfDigits_append_zeros, ← hzeros,
      Text.naturalOfDigits_digitsOfNatural]
  have hlength : ((digitsOfNatural d.digits).length : Int) = (scientific d).1.length + zeros := by
    rw [hzeros, List.length_append, List.length_replicate]
    rfl
  refine ⟨?_, ?_, ?_⟩
  · intro hnil
    rw [hnil] at hnumber
    exact absurd hnumber (by simpa [naturalOfDigits] using h.ne')
  · intro c hc
    refine Text.isDigit_of_mem_digits d.digits c ?_
    rw [hzeros]
    exact List.mem_append_left _ hc
  · have hexponent : (scientific d).2 + 1 - (scientific d).1.length = zeros + d.exponent := by
      change d.exponent + (digitsOfNatural d.digits).length - 1 + 1 - _ = _
      omega
    rw [Decimal.value, Decimal.value, leading, hexponent, hnumber, zpow_add₀ (by norm_num)]
    push_cast
    rw [zpow_natCast]
    ring

section Layouts

variable {ds : List Char} (hdigits : ∀ c ∈ ds, c.isDigit)
include hdigits

theorem ofChars?_exponentText (hne : ds ≠ []) (e : Int) :
    Decimal.ofChars? (exponentText ds e) = some (leading ds e) := by
  have hwhole : ds.take 1 ≠ [] := by simpa using hne
  have hlength : 0 < ds.length := List.length_pos_iff.mpr hne
  refine (Decimal.ofChars?_exponent hwhole (fun c hc => hdigits c (List.mem_of_mem_take hc))
    (fun c hc => hdigits c (List.mem_of_mem_drop hc)) (Decimal.exponentOfChars?_sign e)).trans ?_
  rw [List.take_append_drop, List.length_drop, leading]
  congr 2
  omega

/-- Behind zeros, the first digit comes after the point. -/
theorem ofChars?_pointText_of_neg {e : Int} (h : e < 0) :
    Decimal.ofChars? (pointText ds e) = some (leading ds e) := by
  have hfraction : ∀ c ∈ List.replicate (-e - 1).toNat '0' ++ ds, c.isDigit := fun c hc =>
    (List.mem_append.mp hc).elim (Text.isDigit_of_mem_zeros _ c) (hdigits c)
  rw [pointText, if_pos h]
  refine (Decimal.ofChars?_point (List.cons_ne_nil '0' []) (Text.isDigit_of_mem_zeros 1)
    hfraction).trans ?_
  rw [leading, ← List.replicate_one, Text.naturalOfDigits_zeros_append,
    Text.naturalOfDigits_zeros_append, List.length_append, List.length_replicate]
  congr 2
  omega

/-- Of more digits than stand in front of the point, the others come behind it. -/
theorem ofChars?_pointText_of_lt {e : Int} (h : 0 ≤ e) (hlong : e.toNat + 1 < ds.length) :
    Decimal.ofChars? (pointText ds e) = some (leading ds e) := by
  have hrest : ds.drop (e.toNat + 1) ≠ [] := by simpa using hlong
  have hwhole : ds.take (e.toNat + 1) ≠ [] := by
    simpa using List.ne_nil_of_length_pos (Nat.zero_lt_of_lt hlong)
  have htext : pointText ds e = ds.take (e.toNat + 1) ++ '.' :: ds.drop (e.toNat + 1) := by
    simp [pointText, Int.not_lt.mpr h, hrest, Nat.sub_eq_zero_of_le hlong.le]
  rw [htext]
  refine (Decimal.ofChars?_point hwhole (fun c hc => hdigits c (List.mem_of_mem_take hc))
    (fun c hc => hdigits c (List.mem_of_mem_drop hc))).trans ?_
  rw [List.take_append_drop, List.length_drop, leading]
  congr 2
  omega

/-- Of fewer digits zeros make up for the others, and one more stands behind the point. -/
theorem ofChars?_pointText_of_le {e : Int} (h : 0 ≤ e) (hshort : ds.length ≤ e.toNat + 1) :
    Decimal.ofChars? (pointText ds e)
      = some ⟨Nat.pow 10 (e.toNat + 2 - ds.length) * naturalOfDigits ds, -1⟩ := by
  have hwhole : ∀ c ∈ ds ++ List.replicate (e.toNat + 1 - ds.length) '0', c.isDigit := fun c hc =>
    (List.mem_append.mp hc).elim (hdigits c) (Text.isDigit_of_mem_zeros _ c)
  have hne : ds ++ List.replicate (e.toNat + 1 - ds.length) '0' ≠ [] := by
    refine List.ne_nil_of_length_pos ?_
    rw [List.length_append, List.length_replicate]
    omega
  have htext : pointText ds e
      = ds ++ List.replicate (e.toNat + 1 - ds.length) '0' ++ '.' :: ['0'] := by
    simp [pointText, Int.not_lt.mpr h, List.drop_of_length_le hshort, List.take_of_length_le hshort]
  rw [htext]
  refine (Decimal.ofChars?_point hne hwhole (Text.isDigit_of_mem_zeros 1)).trans ?_
  rw [List.append_assoc, List.replicate_append_replicate,
    Text.naturalOfDigits_append_zeros]
  congr 4
  omega

/-- Around a point, the digits are read to their value. -/
theorem ofChars?_pointText (e : Int) :
    ∃ d, Decimal.ofChars? (pointText ds e) = some d ∧ d.value = (leading ds e).value := by
  by_cases hneg : e < 0
  · exact ⟨_, ofChars?_pointText_of_neg hdigits hneg, rfl⟩
  have hpos : 0 ≤ e := Int.not_lt.mp hneg
  by_cases hlong : e.toNat + 1 < ds.length
  · exact ⟨_, ofChars?_pointText_of_lt hdigits hpos hlong, rfl⟩
  have hshort : ds.length ≤ e.toNat + 1 := Nat.not_lt.mp hlong
  refine ⟨_, ofChars?_pointText_of_le hdigits hpos hshort, ?_⟩
  have hexponent : e + 1 - ds.length = (e.toNat + 2 - ds.length : Nat) + (-1 : Int) := by omega
  rw [Decimal.value, Decimal.value, leading, hexponent, zpow_add₀ (by norm_num), zpow_natCast,
    Nat.pow_eq]
  push_cast
  ring

end Layouts

/-! ### Doubles -/

/-- The text of a magnitude is read to the double it was written for. -/
theorem ofChars?_magnitudeText {rank : Nat} (hfinite : rank < Double.infinityRank) :
    ∃ d, Decimal.ofChars? (magnitudeText rank) = some d ∧ d.nearestRank = rank := by
  by_cases hzero : rank = 0
  · subst hzero
    exact ⟨⟨0, -1⟩, by decide +kernel, rfl⟩
  have hpos : 0 < rank := Nat.pos_of_ne_zero hzero
  have hcontains := Double.contains_shortest hpos hfinite
  obtain ⟨hne, hdigits, hvalue⟩ := value_scientific
    (Decimal.digits_pos_of_contains hpos hfinite hcontains)
  have hread {d : Decimal} (hd : d.value = (leading (scientific (Double.shortest rank)).1
      (scientific (Double.shortest rank)).2).value) : d.nearestRank = rank := by
    refine Decimal.nearestRank_of_contains hpos hfinite ?_
    rwa [hd, hvalue]
  unfold magnitudeText
  rw [if_neg hzero]
  simp only
  split
  · obtain ⟨d, htext, hd⟩ := ofChars?_pointText hdigits (scientific (Double.shortest rank)).2
    exact ⟨d, htext, hread hd⟩
  · exact ⟨_, ofChars?_exponentText hdigits hne _, hread rfl⟩

end Number

namespace Double

theorem neg_ofRank {rank : Nat} (h : rank < 0x8000000000000000) (negative : Bool) :
    (if negative then (ofRank false rank).neg else ofRank false rank) = ⟨negative, rank, h⟩ := by
  cases negative <;> simp [ofRank, h, neg]

/-- A decimal behind an optional sign. -/
theorem ofText?_of_ofChars? {s : String} {negative : Bool} {cs : List Char} {d : Decimal}
    (hsign : signOfChars s.toList = (negative, cs)) (h : Decimal.ofChars? cs = some d)
    (hrank : d.nearestRank < 0x8000000000000000) :
    ofText? s = some ⟨negative, d.nearestRank, hrank⟩ := by
  have hnan : cs ≠ "NaN".toList := by
    rintro rfl
    exact nomatch (Decimal.ofChars?_eq_none (c := 'N') (by decide) (by decide) _).symm.trans h
  have hinfinity : cs ≠ "Infinity".toList := by
    rintro rfl
    exact nomatch (Decimal.ofChars?_eq_none (c := 'I') (by decide) (by decide) _).symm.trans h
  simp only [ofText?, hsign, if_neg hnan, if_neg hinfinity, h, Option.map_some, neg_ofRank hrank]

/-- No sign is read where a decimal begins. -/
theorem signOfChars_of_ofChars? {cs : List Char} {d : Decimal} (h : Decimal.ofChars? cs = some d) :
    signOfChars cs = (false, cs) := by
  rcases signOfChars_cases cs with ⟨ds, rfl, -⟩ | ⟨ds, rfl, -⟩ | hsign
  · exact nomatch (Decimal.ofChars?_eq_none (by decide) (by decide) _).symm.trans h
  · exact nomatch (Decimal.ofChars?_eq_none (by decide) (by decide) _).symm.trans h
  · exact hsign

/-- The text of a finite double is a decimal behind an optional sign, nearest to the double. -/
theorem signOfChars_text (d : Double) (h : d.isFinite) :
    ∃ decimal, signOfChars (Number.double d h).text.toList
        = (d.negative, Number.magnitudeText d.rank) ∧
      Decimal.ofChars? (Number.magnitudeText d.rank) = some decimal ∧
      decimal.nearestRank = d.rank := by
  obtain ⟨decimal, hread, hrank⟩ := Number.ofChars?_magnitudeText (of_decide_eq_true h)
  refine ⟨decimal, ?_, hread, hrank⟩
  unfold Number.text
  rw [String.toList_ofList]
  cases hneg : d.negative with
  | true => rfl
  | false => exact signOfChars_of_ofChars? hread

/-- **A finite double is read back from its text.** -/
theorem ofText?_text (d : Double) (h : d.isFinite) : ofText? (Number.double d h).text = some d := by
  obtain ⟨decimal, hsign, hread, hrank⟩ := signOfChars_text d h
  have hlt : decimal.nearestRank < 0x8000000000000000 := hrank ▸ d.rank_lt
  rw [ofText?_of_ofChars? hsign hread hlt]
  simp only [hrank]

/-- The digits of a number of a common size are rounded like the number. -/
theorem nearestRank_natural {n : Nat} (h : n < 10 ^ 20) :
    (⟨n, 0⟩ : Decimal).nearestRank = nearestRank n 1 := by
  have hlength : (digitsOfNatural n).length ≤ 20 :=
    (Nat.length_toDigits_le_iff (by decide) (by decide)).mpr h
  unfold Decimal.nearestRank
  by_cases hzero : n = 0
  · subst hzero
    rfl
  · simp only [if_neg hzero]
    rw [if_neg (by omega), if_neg (by omega)]
    simp

theorem nearestRank_lt (num den : Nat) : nearestRank num den < 0x8000000000000000 := by
  unfold nearestRank infinityRank
  split
  · decide
  · simp only
    omega

end Double

/-- **The text of a number is read as the double that the number stands for.** -/
theorem Number.ofText?_text_toDouble (n : Number) : Double.ofText? n.text = some n.toDouble := by
  cases n with
  | double d h => exact Double.ofText?_text d h
  | integer n inRange =>
    have hread := Decimal.ofChars?_digits (Text.digits_ne_nil n.natAbs)
      (Text.isDigit_of_mem_digits n.natAbs)
    rw [Text.naturalOfDigits_digitsOfNatural] at hread
    have hrank := Double.nearestRank_natural (n := n.natAbs) (by omega)
    have hlt := Double.nearestRank_lt n.natAbs 1
    refine (Double.ofText?_of_ofChars? (signOfChars_textOfInteger n) hread
      (hrank ▸ hlt)).trans ?_
    simp only [toDouble, Double.ofRank, hlt, hrank, dif_pos]

end CaseGateway
