/-
What is written of a timestamp is read back as that timestamp.

Every number of the text is followed by a mark that is no digit, and a reader of digits
takes the longest run it may.  So each reader stops where the writer did: for the years
because a sign lifts the limit of four digits and without a sign there are no more than
four, for all other numbers because they have two.
-/
import CaseGateway.Proofs.Text.Digits
import CaseGateway.Timestamp.Text

namespace CaseGateway.Timestamp

open Text (padded isBlank naturalOfDigits NoDigitAhead noDigitAhead_nil noDigitAhead_cons
  takeWhile_digits)

theorem readDigits_padded {width n most : Nat} {rest : List Char}
    (hmost : (padded width n).length ≤ most) (hrest : NoDigitAhead rest) :
    readDigits most (padded width n ++ rest) = some (n, rest) := by
  unfold readDigits
  rw [takeWhile_digits (fun _ => Text.isDigit_of_mem_padded) hrest, List.take_of_length_le hmost]
  simp [Text.padded_ne_nil, Text.naturalOfDigits_padded]

@[simp] theorem readOne_self (c : Char) (cs : List Char) :
    readOne [c] (c :: cs) = some (c, cs) := by
  simp [readOne]

theorem padded_eq_cons (width n : Nat) : ∃ c ds, padded width n = c :: ds ∧ c.isDigit := by
  obtain ⟨c, ds, hds⟩ := List.exists_cons_of_ne_nil (Text.padded_ne_nil width n)
  exact ⟨c, ds, hds, Text.isDigit_of_mem_padded (by rw [hds]; exact List.mem_cons_self)⟩

theorem dropWhile_isBlank_padded (width n : Nat) (rest : List Char) :
    (padded width n ++ rest).dropWhile isBlank = padded width n ++ rest := by
  obtain ⟨c, ds, hds, hc⟩ := padded_eq_cons width n
  rw [hds, List.cons_append, List.dropWhile_cons_of_neg]
  rw [Text.isBlank_of_isDigit hc]
  decide

theorem readPair_padded {n : Nat} (h : n < 100) {rest : List Char} (hrest : NoDigitAhead rest) :
    readPair (padded 2 n ++ rest) = some (n, rest) := by
  unfold readPair
  rw [dropWhile_isBlank_padded]
  exact readDigits_padded (Nat.le_of_eq (Text.length_padded (by decide) h)) hrest

theorem readPair_mark {n : Nat} (h : n < 100) {mark : Char} (hmark : mark.isDigit = false)
    (cs : List Char) : readPair (padded 2 n ++ mark :: cs) = some (n, mark :: cs) :=
  readPair_padded h (noDigitAhead_cons hmark cs)

theorem readYear_yearText (year : Int) {rest : List Char} (hrest : NoDigitAhead rest) :
    readYear (yearText year ++ rest) = some (year, rest) := by
  have hsigned : readDigits (padded 4 year.natAbs ++ rest).length (padded 4 year.natAbs ++ rest)
      = some (year.natAbs, rest) := by
    refine readDigits_padded ?_ hrest
    rw [List.length_append]
    omega
  unfold yearText
  by_cases hfour : 0 ≤ year ∧ year ≤ 9999
  · have hfixed : readDigits 4 (padded 4 year.natAbs ++ rest) = some (year.natAbs, rest) := by
      refine readDigits_padded (Nat.le_of_eq (Text.length_padded (by decide) ?_)) hrest
      show year.natAbs < 10000
      omega
    obtain ⟨c, ds, hds, hc⟩ := padded_eq_cons 4 year.natAbs
    rw [if_pos hfour, readYear, dropWhile_isBlank_padded]
    split
    · rename_i heq
      rw [hds] at heq
      exact absurd hc (by rw [(List.cons.inj heq).1]; decide)
    · rename_i heq
      rw [hds] at heq
      exact absurd hc (by rw [(List.cons.inj heq).1]; decide)
    · rw [hfixed, Option.map_some]
      show some ((year.natAbs : Int), rest) = some (year, rest)
      rw [Int.natAbs_of_nonneg hfour.1]
  · rw [if_neg hfour]
    by_cases hneg : year < 0
    · rw [if_pos hneg, List.cons_append, readYear, List.dropWhile_cons_of_neg (by decide)]
      simp only [hsigned, Option.map_some]
      congr 2
      omega
    · rw [if_neg hneg, List.cons_append, readYear, List.dropWhile_cons_of_neg (by decide)]
      simp only [hsigned, Option.map_some]
      congr 2
      omega

/-- Only twelve months have days, and none has more than 31. -/
theorem daysInMonth_bounds {year : Int} {month : Nat} (h : 1 ≤ daysInMonth year month) :
    month ≤ 12 ∧ daysInMonth year month ≤ 31 := by
  have hlengths : ∀ l ∈ monthLengths year, l ≤ 31 := by
    cases hleap : isLeapYear year <;> simp [monthLengths, hleap]
  unfold daysInMonth at h ⊢
  by_cases hzero : month = 0
  · simp [hzero] at h
  · rw [if_neg hzero, List.getD_eq_getElem?_getD] at h ⊢
    cases hl : (monthLengths year)[month - 1]? with
    | none => simp [hl] at h
    | some l =>
        obtain ⟨hlt, -⟩ := List.getElem?_eq_some_iff.mp hl
        have htwelve : month - 1 < 12 := hlt
        exact ⟨by omega, hlengths l (List.mem_of_getElem? hl)⟩

/-- Behind the text of a timestamp anything may follow that does not begin with a digit. -/
theorem readPlain_text_append (t : Timestamp) {rest : List Char} (hrest : NoDigitAhead rest) :
    readPlain (t.text.toList ++ rest)
      = (ofNumbers? t.year t.month t.day t.hour t.minute
          (t.second + t.nanosecond / 1000000000)).map fun u => (u, rest) := by
  obtain ⟨-, -, hday, hdays, hhour, hminute, hsecond, hnanosecond⟩ := t.valid
  obtain ⟨hmonth, hlength⟩ := daysInMonth_bounds (Nat.le_trans hday hdays)
  have hshown : t.second + t.nanosecond / 1000000000 < 100 := by omega
  have hdash : ('-').isDigit = false := by decide
  have hcolon : (':').isDigit = false := by decide
  unfold text readPlain
  simp only [String.toList_ofList, List.append_assoc, List.cons_append]
  rw [readYear_yearText _ (noDigitAhead_cons hdash _)]
  simp only [Option.bind_eq_bind, Option.bind_some, readOne_self,
    readPair_mark (show t.month < 100 by omega) hdash,
    readPair_mark (show t.day < 100 by omega) (show ('T').isDigit = false by decide),
    readPair_mark (show t.hour < 100 by omega) hcolon,
    readPair_mark (show t.minute < 100 by omega) hcolon, readPair_padded hshown hrest]
  rw [Option.map_eq_bind]
  rfl

theorem make?_of_valid {year : Int} {month day hour minute second nanosecond : Nat}
    (h : Valid year month day hour minute second nanosecond) :
    make? year month day hour minute second nanosecond
      = some ⟨year, month, day, hour, minute, second, nanosecond, h⟩ :=
  dif_pos h

theorem ofNumbers?_wholeSecond (t : Timestamp) :
    ofNumbers? t.year t.month t.day t.hour t.minute t.second = some t.wholeSecond := by
  have hsecond : t.second ≠ 60 := Nat.ne_of_lt t.valid.2.2.2.2.2.2.1
  rw [ofNumbers?, if_neg hsecond]
  exact make?_of_valid t.wholeSecond.valid

theorem wholeSecond_eq_self {t : Timestamp} (h : t.nanosecond = 0) : t.wholeSecond = t := by
  cases t
  cases h
  rfl

theorem readPlain_text {t : Timestamp} (h : t.nanosecond < 1000000000) {rest : List Char}
    (hrest : NoDigitAhead rest) :
    readPlain (t.text.toList ++ rest) = some (t.wholeSecond, rest) := by
  rw [readPlain_text_append t hrest, Nat.div_eq_of_lt h, Nat.add_zero, ofNumbers?_wholeSecond]
  rfl

/-- What stands behind the plain form does not matter if it is nothing. -/
theorem parse?_of_readPlain {s : String} {t : Timestamp} (h : readPlain s.toList = some (t, [])) :
    parse? s = some t := by
  simp only [parse?, h]

/-- **What is written of a timestamp is read back as the timestamp at the start of its second.**
A leap second is the exception. -/
theorem parse?_text_of_lt {t : Timestamp} (h : t.nanosecond < 1000000000) :
    parse? t.text = some t.wholeSecond := by
  refine parse?_of_readPlain ?_
  rw [← List.append_nil t.text.toList]
  exact readPlain_text h noDigitAhead_nil

theorem parse?_text (t : Timestamp) (h : t.nanosecond = 0) : parse? t.text = some t := by
  rw [parse?_text_of_lt (by omega), wholeSecond_eq_self h]

end CaseGateway.Timestamp
