/-
Timestamps with a zone.

A text with a zone is tried as a timestamp without one, then with a loose offset behind
it, then in the strict form.  The texts of interest agree up to the zone, so all three
attempts read the same timestamp and stop at the same place; which of the two offset
readers succeeds there is decided by the character that comes next.  Either way the
offset's seconds are taken off, and what they lead to is the timestamp that much earlier.
-/
import CaseGateway.Proofs.Timestamp.Calendar

namespace CaseGateway.Timestamp

open Text (padded isBlank naturalOfDigits NoDigitAhead noDigitAhead_nil noDigitAhead_cons)

/-! ### Texts of offsets -/

/-- The text of an offset, with the given text between the hours and the minutes. -/
def offsetText (sign : Char) (between : List Char) (hours minutes : Nat) : List Char :=
  sign :: (padded 2 hours ++ (between ++ padded 2 minutes))

/-- An offset in seconds, counted to the east. -/
def offsetSeconds (sign : Char) (hours minutes : Nat) : Int :=
  let seconds : Int := ((hours * 60 + minutes) * 60 : Nat)
  if sign = '+' then seconds else -seconds

theorem readFixed_padded {width n : Nat} (hwidth : 0 < width) (h : n < Nat.pow 10 width)
    (rest : List Char) : readFixed width (padded width n ++ rest) = some (n, rest) := by
  have hlength := Text.length_padded hwidth h
  have hdigits : (padded width n).all Char.isDigit :=
    List.all_eq_true.mpr fun _ => Text.isDigit_of_mem_padded
  unfold readFixed
  rw [List.take_left' hlength, List.drop_left' hlength]
  simp [hlength, hdigits, Text.naturalOfDigits_padded]

theorem readFixed_two {n : Nat} (h : n < 100) (rest : List Char) :
    readFixed 2 (padded 2 n ++ rest) = some (n, rest) :=
  readFixed_padded (by decide) h rest

section Offset

variable {sign : Char} {separator : List Char} {hours minutes : Nat}
  (hsign : sign = '+' ∨ sign = '-') (hhours : hours < 24) (hminutes : minutes < 60)
include hsign hhours hminutes

/-- An offset is read if what stands between the hours and the minutes is taken off. -/
theorem offset?_offsetText {between : List Char → Option (List Char)}
    (hbetween : between (separator ++ padded 2 minutes) = some (padded 2 minutes)) :
    offset? between (offsetText sign separator hours minutes)
      = some (offsetSeconds sign hours minutes) := by
  have hone : readOne ['+', '-', Char.ofNat 0x2212] (offsetText sign separator hours minutes)
      = some (sign, padded 2 hours ++ (separator ++ padded 2 minutes)) := by
    rcases hsign with rfl | rfl
    · rfl
    · rfl
  have hminutesRead : readFixed 2 (padded 2 minutes) = some (minutes, []) := by
    rw [← List.append_nil (padded 2 minutes)]
    exact readFixed_two (by omega) []
  unfold offset?
  simp only [hone, readFixed_two (show hours < 100 by omega), hbetween, hminutesRead,
    Option.bind_eq_bind, Option.bind_some]
  simp [hhours, hminutes, offsetSeconds]

/-- A loose offset may have a colon inside or not. -/
theorem looseOffset?_offsetText (hseparator : separator = [] ∨ separator = [':']) :
    looseOffset? (offsetText sign separator hours minutes)
      = some (offsetSeconds sign hours minutes) := by
  have hstart : (offsetText sign separator hours minutes).dropWhile isBlank
      = offsetText sign separator hours minutes := by
    rcases hsign with rfl | rfl
    · exact List.dropWhile_cons_of_neg (by decide)
    · exact List.dropWhile_cons_of_neg (by decide)
  have hdigits : (padded 2 minutes).dropWhile (fun c => c == ':' || isBlank c)
      = padded 2 minutes := by
    obtain ⟨c, ds, hds, hc⟩ := padded_eq_cons 2 minutes
    have hcolon : c ≠ ':' := by
      rintro rfl
      exact absurd hc (by decide)
    rw [hds, List.dropWhile_cons_of_neg (by simp [hcolon, Text.isBlank_of_isDigit hc])]
  unfold looseOffset?
  rw [hstart]
  refine offset?_offsetText hsign hhours hminutes ?_
  rcases hseparator with rfl | rfl
  · rw [List.nil_append, hdigits]
  · rw [List.singleton_append, List.dropWhile_cons_of_pos (by decide), hdigits]

/-- A strict offset has a colon inside. -/
theorem strictOffset?_offsetText :
    strictOffset? (offsetText sign [':'] hours minutes)
      = some (offsetSeconds sign hours minutes) := by
  have hletter : ¬(offsetText sign [':'] hours minutes = ['Z']
      ∨ offsetText sign [':'] hours minutes = ['z']) := by
    simp [offsetText]
  unfold strictOffset?
  rw [if_neg hletter]
  exact offset?_offsetText hsign hhours hminutes (by rw [List.singleton_append, readOne_self]; rfl)

end Offset

/-! ### The strict form -/

theorem readStrict_text {t : Timestamp} (hyear : 0 ≤ t.year ∧ t.year ≤ 9999)
    (h : t.nanosecond < 1000000000) (rest : List Char) :
    readStrict (t.text.toList ++ rest) = some (t.wholeSecond, rest) := by
  obtain ⟨-, -, hday, hdays, hhour, hminute, hsecond, -⟩ := t.valid
  obtain ⟨hmonth, hlength⟩ := daysInMonth_bounds (Nat.le_trans hday hdays)
  have hfour (rest : List Char) : readFixed 4 (padded 4 t.year.natAbs ++ rest)
      = some (t.year.natAbs, rest) :=
    readFixed_padded (by decide) (show t.year.natAbs < 10000 by omega) rest
  have habs : (t.year.natAbs : Int) = t.year := Int.natAbs_of_nonneg hyear.1
  have hmark (cs : List Char) : readOne ['T', 't', ' '] ('T' :: cs) = some ('T', cs) := rfl
  unfold text readStrict
  simp only [String.toList_ofList, List.append_assoc, List.cons_append, yearText, if_pos hyear,
    Nat.div_eq_of_lt h, Nat.add_zero]
  simp only [Option.bind_eq_bind, Option.bind_some, readOne_self, hmark, hfour,
    readFixed_two (show t.month < 100 by omega), readFixed_two (show t.day < 100 by omega),
    readFixed_two (show t.hour < 100 by omega), readFixed_two (show t.minute < 100 by omega),
    readFixed_two (show t.second < 100 by omega), habs, ofNumbers?_wholeSecond]
  rfl

theorem skipFraction_digits {fraction rest : List Char} (hne : fraction ≠ [])
    (hdigits : ∀ c ∈ fraction, c.isDigit) (hrest : NoDigitAhead rest) :
    skipFraction ('.' :: (fraction ++ rest)) = some rest := by
  rw [skipFraction, Text.takeWhile_digits hdigits hrest, Text.dropWhile_digits hdigits hrest,
    if_neg (by simpa using hne)]

/-! ### Whole texts -/

/-- Neither a sign nor a blank: no loose offset begins so. -/
theorem looseOffset?_eq_none {c : Char} (hblank : isBlank c = false)
    (hsign : c ∉ ['+', '-', Char.ofNat 0x2212]) (cs : List Char) : looseOffset? (c :: cs) = none := by
  unfold looseOffset? offset?
  rw [List.dropWhile_cons_of_neg (by simp [hblank]), readOne, if_neg hsign]
  rfl

section Zone

variable {t : Timestamp} {rest : List Char} {seconds : Int}
  (hwhole : t.nanosecond = 0) (hahead : NoDigitAhead rest)
include hwhole hahead

theorem readPlain_of_whole : readPlain (t.text ++ String.ofList rest).toList = some (t, rest) := by
  rw [String.toList_append, String.toList_ofList, readPlain_text (by omega) hahead,
    wholeSecond_eq_self hwhole]

theorem parse?_of_looseOffset? (hne : rest ≠ []) (hloose : looseOffset? rest = some seconds) :
    parse? (t.text ++ String.ofList rest) = t.shift? (-seconds) := by
  simp only [parse?, readPlain_of_whole hwhole hahead]
  simp [hne, hloose]

theorem parse?_of_strictOffset? (hyear : 0 ≤ t.year ∧ t.year ≤ 9999) (hne : rest ≠ [])
    (hloose : looseOffset? rest = none) {zone : List Char} (hfraction : skipFraction rest = some zone)
    (hstrict : strictOffset? zone = some seconds) :
    parse? (t.text ++ String.ofList rest) = t.shift? (-seconds) := by
  have hread : readStrict (t.text ++ String.ofList rest).toList = some (t, rest) := by
    rw [String.toList_append, String.toList_ofList, readStrict_text hyear (by omega),
      wholeSecond_eq_self hwhole]
  simp only [parse?, readPlain_of_whole hwhole hahead, hread]
  simp [hne, hloose, hfraction, hstrict]

end Zone

/-- Three ways to write an offset behind a timestamp. -/
theorem parse?_offsetText {t : Timestamp} (hyear : 0 ≤ t.year ∧ t.year ≤ 9999)
    (hwhole : t.nanosecond = 0) {sign : Char} (hsign : sign = '+' ∨ sign = '-')
    {hours minutes : Nat} (hhours : hours < 24) (hminutes : minutes < 60) {fraction : List Char}
    (hne : fraction ≠ []) (hdigits : ∀ c ∈ fraction, c.isDigit) :
    parse? (t.text ++ String.ofList (offsetText sign [] hours minutes))
        = t.shift? (-offsetSeconds sign hours minutes) ∧
      parse? (t.text ++ String.ofList (offsetText sign [':'] hours minutes))
        = t.shift? (-offsetSeconds sign hours minutes) ∧
      parse? (t.text ++ String.ofList ('.' :: (fraction ++ offsetText sign [':'] hours minutes)))
        = t.shift? (-offsetSeconds sign hours minutes) := by
  have hahead (separator : List Char) : NoDigitAhead (offsetText sign separator hours minutes) := by
    rcases hsign with rfl | rfl
    · exact noDigitAhead_cons (by decide) _
    · exact noDigitAhead_cons (by decide) _
  refine ⟨?_, ?_, ?_⟩
  · exact parse?_of_looseOffset? hwhole (hahead []) (List.cons_ne_nil _ _)
      (looseOffset?_offsetText hsign hhours hminutes (.inl rfl))
  · exact parse?_of_looseOffset? hwhole (hahead [':']) (List.cons_ne_nil _ _)
      (looseOffset?_offsetText hsign hhours hminutes (.inr rfl))
  · exact parse?_of_strictOffset? hwhole (noDigitAhead_cons (by decide) _) hyear
      (List.cons_ne_nil _ _) (looseOffset?_eq_none (by decide) (by decide) _)
      (skipFraction_digits hne hdigits (hahead [':']))
      (strictOffset?_offsetText hsign hhours hminutes)

/-- **Timestamps with a zone are read in universal time.**

For a timestamp of a four-digit year, without a leap second, an offset from universal time
means the same in each way of writing it, with or without a fraction of the second: to the
east, the timestamp that much earlier, and to the west, that much later, even if it is on
another day, in another month or in another year.  The letter of universal time changes
nothing, and neither does a fraction in front of it. -/
theorem parse?_zoned {t : Timestamp} (hyear : 0 ≤ t.year ∧ t.year ≤ 9999)
    (hwhole : t.nanosecond = 0) {hours minutes : Nat} (hhours : hours < 24)
    (hminutes : minutes < 60) {fraction : List Char} (hne : fraction ≠ [])
    (hdigits : ∀ c ∈ fraction, c.isDigit) :
    let parseWith (rest : List Char) := parse? (t.text ++ String.ofList rest)
    let seconds := (hours * 60 + minutes) * 60
    (∃ s, s.nanosecond = 0 ∧ Later seconds s t ∧
      parseWith (offsetText '+' [] hours minutes) = some s ∧
      parseWith (offsetText '+' [':'] hours minutes) = some s ∧
      parseWith ('.' :: (fraction ++ offsetText '+' [':'] hours minutes)) = some s) ∧
    (∃ u, u.nanosecond = 0 ∧ Later seconds t u ∧
      parseWith (offsetText '-' [] hours minutes) = some u ∧
      parseWith (offsetText '-' [':'] hours minutes) = some u ∧
      parseWith ('.' :: (fraction ++ offsetText '-' [':'] hours minutes)) = some u) ∧
    parseWith [] = some t ∧ parseWith ['Z'] = some t ∧
      parseWith ('.' :: (fraction ++ ['Z'])) = some t := by
  intro parseWith seconds
  have hseconds : seconds < 86400 := by omega
  have hself : t.shift? (-0) = some t := shift?_eq_some hwhole (by omega)
  have hletter : strictOffset? ['Z'] = some 0 := rfl
  refine ⟨?_, ?_, ?_, ?_, ?_⟩
  · obtain ⟨s, hs, hlater⟩ := exists_earlier (show firstYear < t.year by unfold firstYear; omega)
      hseconds
    have hshift : t.shift? (-offsetSeconds '+' hours minutes) = some s := hlater.shift?_neg_eq hs
    have hparse := parse?_offsetText hyear hwhole (.inl rfl) hhours hminutes hne hdigits
    rw [hshift] at hparse
    exact ⟨s, hs, hlater, hparse⟩
  · obtain ⟨u, hu, hlater⟩ := exists_later (show t.year < lastYear by unfold lastYear; omega) hseconds
    have hshift : t.shift? (-offsetSeconds '-' hours minutes) = some u := by
      rw [show -offsetSeconds '-' hours minutes = seconds from Int.neg_neg _]
      exact hlater.shift?_eq hu
    have hparse := parse?_offsetText hyear hwhole (.inr rfl) hhours hminutes hne hdigits
    rw [hshift] at hparse
    exact ⟨u, hu, hlater, hparse⟩
  · exact parse?_of_readPlain (readPlain_of_whole hwhole noDigitAhead_nil)
  · have hskip : skipFraction ['Z'] = some ['Z'] := rfl
    exact (parse?_of_strictOffset? hwhole (noDigitAhead_cons (by decide) _) hyear
      (List.cons_ne_nil _ _) (looseOffset?_eq_none (by decide) (by decide) _) hskip hletter).trans
        hself
  · exact (parse?_of_strictOffset? hwhole (noDigitAhead_cons (by decide) _) hyear
      (List.cons_ne_nil _ _) (looseOffset?_eq_none (by decide) (by decide) _)
      (skipFraction_digits hne hdigits (noDigitAhead_cons (by decide) _)) hletter).trans hself

/-- East of Greenwich the first of March can still be the leap day. -/
theorem parse?_zoned_leapDay :
    parse? "2024-03-01T00:30:00+0100" = some ⟨2024, 2, 29, 23, 30, 0, 0, by decide⟩ ∧
      parse? "2024-03-01T00:30:00.999+01:00" = some ⟨2024, 2, 29, 23, 30, 0, 0, by decide⟩ := by
  let t : Timestamp := ⟨2024, 3, 1, 0, 30, 0, 0, by decide⟩
  have hnines : ∀ c ∈ ['9', '9', '9'], c.isDigit := List.all_eq_true.mp (by decide)
  obtain ⟨⟨s, hs, hlater, hshort, -, hfraction⟩, -⟩ := parse?_zoned (t := t) (by decide) rfl
    (show 1 < 24 by decide) (show 0 < 60 by decide) (List.cons_ne_nil _ _) hnines
  have hleapDay : t.shift? (-3600) = some ⟨2024, 2, 29, 23, 30, 0, 0, by decide⟩ := by
    decide +kernel
  have htext : t.text ++ String.ofList (offsetText '+' [] 1 0) = "2024-03-01T00:30:00+0100" := by
    decide +kernel
  have htext' : t.text ++ String.ofList ('.' :: (['9', '9', '9'] ++ offsetText '+' [':'] 1 0))
      = "2024-03-01T00:30:00.999+01:00" := by
    decide +kernel
  rw [← htext, ← htext', ← hleapDay]
  have hshift := hlater.shift?_neg_eq hs
  exact ⟨hshort.trans hshift.symm, hfraction.trans hshift.symm⟩

end CaseGateway.Timestamp
