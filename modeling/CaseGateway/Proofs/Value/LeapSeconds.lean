/-
Dates in leap seconds.

A timestamp of a leap second lies behind the last instant of an ordinary second, and its
text shows the number of the next one.  So the text does not tell the second to which the
timestamp belongs: the 60th is read as the leap second itself, and any other number as an
ordinary second, one too late.  Outside leap seconds the text shows the second, and a date
is read back as the start of it, which is the precision in which values travel.
-/
import CaseGateway.Proofs.Value.RoundTrip

namespace CaseGateway

namespace Timestamp

/-- The timestamp that the text of a timestamp shows. -/
def shown (t : Timestamp) : Timestamp :=
  if t.nanosecond < 1000000000 then t.wholeSecond
  else if h : t.second = 59 then
    { t with
      nanosecond := 1000000000
      valid := by
        obtain ⟨h₁, h₂, h₃, h₄, h₅, h₆, h₇, _⟩ := t.valid
        exact ⟨h₁, h₂, h₃, h₄, h₅, h₆, h₇, by decide⟩ }
  else
    { t with
      second := t.second + 1
      nanosecond := 0
      valid := by
        obtain ⟨h₁, h₂, h₃, h₄, h₅, h₆, h₇, _⟩ := t.valid
        exact ⟨h₁, h₂, h₃, h₄, h₅, h₆, by omega, by decide⟩ }

theorem shown_of_lt {t : Timestamp} (h : t.nanosecond < 1000000000) : t.shown = t.wholeSecond :=
  if_pos h

/-- A leap second is never shown as the start of the second to which it belongs. -/
theorem shown_eq_wholeSecond_iff (t : Timestamp) :
    t.shown = t.wholeSecond ↔ t.nanosecond < 1000000000 := by
  refine ⟨fun heq => Decidable.byContradiction fun h => ?_, shown_of_lt⟩
  unfold shown at heq
  rw [if_neg h] at heq
  split at heq
  · exact absurd (congrArg nanosecond heq) (by simp [wholeSecond])
  · exact absurd (congrArg second heq) (by simp [wholeSecond])

/-- The numbers in the text are those of what it shows. -/
theorem ofNumbers?_shown (t : Timestamp) :
    ofNumbers? t.year t.month t.day t.hour t.minute (t.second + t.nanosecond / 1000000000)
      = some t.shown := by
  by_cases h : t.nanosecond < 1000000000
  · rw [shown_of_lt h, Nat.div_eq_of_lt h, Nat.add_zero, ofNumbers?_wholeSecond]
  · have hleap : t.nanosecond / 1000000000 = 1 := by
      have hbound : t.nanosecond < 2000000000 := t.valid.2.2.2.2.2.2.2
      omega
    have hsecond : t.second < 60 := t.valid.2.2.2.2.2.2.1
    rw [hleap, shown, if_neg h, ofNumbers?]
    by_cases hlast : t.second = 59
    · rw [dif_pos hlast, if_pos (by omega), ← hlast]
      exact make?_of_valid _
    · rw [dif_neg hlast, if_neg (by omega)]
      exact make?_of_valid _

theorem parse?_text_shown (t : Timestamp) : parse? t.text = some t.shown := by
  refine parse?_of_readPlain ?_
  rw [← List.append_nil t.text.toList, readPlain_text_append t Text.noDigitAhead_nil,
    ofNumbers?_shown]
  rfl

end Timestamp

namespace TypedValue

theorem decode_encode_date (formats : DataFormats) (options : EncodeOptions) (t : Timestamp) :
    formats.decode ((TypedValue.date (some t)).encode options) = .ok (.date (some t.shown)) := by
  refine (decode_tagged formats _ .date).trans ?_
  simp only [DataFormats.decodeAs, scalarJson, decodeDate, Timestamp.parse?_text_shown]
  rfl

/-- **A date is read back in the precision in which values travel, unless it is in a leap second.**

Every date is read back as what its text shows, whatever the options and the data formats.
That is the start of its second for all dates outside leap seconds, and for no other date. -/
theorem date_read_back_iff (formats : DataFormats) (options : EncodeOptions) (t : Timestamp) :
    Timestamp.parse? t.text = some t.shown ∧
      formats.decode ((TypedValue.date (some t)).encode options) = .ok (.date (some t.shown)) ∧
      (Timestamp.parse? t.text = some t.wholeSecond ↔ t.nanosecond < 1000000000) ∧
      (formats.decode ((TypedValue.date (some t)).encode options)
        = .ok (TypedValue.date (some t)).normalized ↔ t.nanosecond < 1000000000) := by
  have hparse := t.parse?_text_shown
  have hdecode := decode_encode_date formats options t
  refine ⟨hparse, hdecode, ?_, ?_⟩
  · rw [hparse, Option.some_inj, t.shown_eq_wholeSecond_iff]
  · rw [hdecode, ← t.shown_eq_wholeSecond_iff]
    simp [normalized]

/-- The leap second at the end of 2016 is read back as itself, which is not the precision in which
values travel. -/
theorem leap_second_not_normalized :
    let t : Timestamp := ⟨2016, 12, 31, 23, 59, 59, 1000000000, by decide⟩
    t.text = "2016-12-31T23:59:60" ∧
      Timestamp.parse? t.text = some t ∧ t ≠ t.wholeSecond ∧
      DataFormats.builtIn.decode ((TypedValue.date (some t)).encode .full)
        ≠ .ok (TypedValue.date (some t)).normalized := by
  intro t
  have hne : t ≠ t.wholeSecond := by decide
  refine ⟨by decide +kernel, t.parse?_text_shown, hne, ?_⟩
  rw [decode_encode_date]
  intro h
  injection h with h
  injection h with h
  injection h with h
  exact hne h

end TypedValue

end CaseGateway
