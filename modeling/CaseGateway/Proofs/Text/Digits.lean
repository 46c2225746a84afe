/-
Numbers written with digits.

A reader of digits stops at the first character that is none.  A padded number consists of
digits, has the width that was asked for unless it needs more, and is read back to the same
number, since zeros in front do not count.
-/
import CaseGateway.Text.Ascii
import CaseGateway.Text.Blank

namespace CaseGateway.Text

/-! ### Runs of digits -/

/-- No digit follows. -/
def NoDigitAhead (cs : List Char) : Prop :=
  ∀ c ∈ cs.head?, c.isDigit = false

theorem noDigitAhead_nil : NoDigitAhead [] := nofun

theorem noDigitAhead_cons {c : Char} (h : c.isDigit = false) (cs : List Char) :
    NoDigitAhead (c :: cs) := by
  intro d hd
  rw [← Option.mem_some.mp hd]
  exact h

theorem takeWhile_digits {ds rest : List Char} (hds : ∀ c ∈ ds, c.isDigit)
    (hrest : NoDigitAhead rest) : (ds ++ rest).takeWhile Char.isDigit = ds := by
  rw [List.takeWhile_append_of_pos hds]
  cases rest with
  | nil => simp
  | cons c rest => simp [hrest c (by simp)]

theorem dropWhile_digits {ds rest : List Char} (hds : ∀ c ∈ ds, c.isDigit)
    (hrest : NoDigitAhead rest) : (ds ++ rest).dropWhile Char.isDigit = rest := by
  rw [List.dropWhile_append_of_pos hds]
  cases rest with
  | nil => rfl
  | cons c rest => simp [hrest c (by simp)]

/-- A run of digits ends where it ended before if no digit is put behind it. -/
theorem digits_append (cs : List Char) {rest : List Char} (hrest : NoDigitAhead rest) :
    (cs ++ rest).takeWhile Char.isDigit = cs.takeWhile Char.isDigit ∧
      (cs ++ rest).dropWhile Char.isDigit = cs.dropWhile Char.isDigit ++ rest := by
  induction cs with
  | nil =>
      have hnone : ∀ c ∈ ([] : List Char), c.isDigit := nofun
      exact ⟨takeWhile_digits hnone hrest, dropWhile_digits hnone hrest⟩
  | cons c cs ih =>
      by_cases hc : c.isDigit
      · simp [hc, ih.1, ih.2]
      · simp [hc]

theorem digits_ne_nil (n : Nat) : digitsOfNatural n ≠ [] :=
  Nat.toDigits_ne_nil

theorem isDigit_of_mem_digits (n : Nat) : ∀ c ∈ digitsOfNatural n, c.isDigit := fun _ hc =>
  Nat.isDigit_of_mem_toDigits (by decide) (by decide) hc

theorem isDigit_of_mem_zeros (n : Nat) : ∀ c ∈ List.replicate n '0', c.isDigit := by
  intro c hc
  rw [List.eq_of_mem_replicate hc]
  decide

/-- A number is written without zeros in front. -/
theorem head?_digitsOfNatural {n : Nat} (h : n ≠ 0) : (digitsOfNatural n).head? ≠ some '0' := by
  have hdigit : ∀ n, n < 10 → n ≠ 0 → Nat.digitChar n ≠ '0' := by decide
  unfold digitsOfNatural
  induction n using Nat.strongRecOn with
  | ind n ih =>
      by_cases hone : n < 10
      · rw [Nat.toDigits_of_lt_base hone]
        simpa using hdigit n hone h
      · rw [Nat.toDigits_of_base_le (by decide) (by omega), List.head?_append,
          List.head?_eq_some_head Nat.toDigits_ne_nil, Option.some_or, ← List.head?_eq_some_head]
        exact ih (n / 10) (by omega) (by omega)

/-- Zeros in front do not count. -/
theorem naturalOfDigits_zeros_append (n : Nat) (ds : List Char) :
    naturalOfDigits (List.replicate n '0' ++ ds) = naturalOfDigits ds := by
  unfold naturalOfDigits
  rw [Nat.ofDigitChars_append, Nat.ofDigitChars_replicate_zero, Nat.mul_zero]

/-- A zero behind multiplies by ten. -/
theorem naturalOfDigits_append_zeros (ds : List Char) (n : Nat) :
    naturalOfDigits (ds ++ List.replicate n '0') = Nat.pow 10 n * naturalOfDigits ds := by
  unfold naturalOfDigits
  rw [Nat.ofDigitChars_append, Nat.ofDigitChars_replicate_zero, Nat.pow_eq]

/-! ### Padded numbers -/

theorem isDigit_of_mem_padded {width n : Nat} {c : Char} (h : c ∈ padded width n) : c.isDigit := by
  unfold padded at h
  rcases List.mem_append.mp h with h | h
  · exact isDigit_of_mem_zeros _ c h
  · exact isDigit_of_mem_digits n c h

theorem padded_ne_nil (width n : Nat) : padded width n ≠ [] := by
  unfold padded
  intro h
  exact digits_ne_nil n (List.append_eq_nil_iff.mp h).2

theorem naturalOfDigits_padded (width n : Nat) : naturalOfDigits (padded width n) = n :=
  (naturalOfDigits_zeros_append _ _).trans (naturalOfDigits_digitsOfNatural n)

/-- A number that fits its width has exactly that width. -/
theorem length_padded {width n : Nat} (hwidth : 0 < width) (h : n < Nat.pow 10 width) :
    (padded width n).length = width := by
  have hdigits : (digitsOfNatural n).length ≤ width :=
    (Nat.length_toDigits_le_iff (by decide) hwidth).mpr h
  unfold padded
  rw [List.length_append, List.length_replicate]
  omega

theorem isBlank_of_isDigit {c : Char} (h : c.isDigit) : isBlank c = false := by
  have hrange : 48 ≤ c.toNat ∧ c.toNat ≤ 57 := by
    simpa [Char.isDigit, UInt32.le_iff_toNat_le] using h
  simp only [isBlank, blankRanges, List.any_cons, List.any_nil, Bool.or_false, Bool.or_eq_false_iff,
    Bool.and_eq_false_iff, decide_eq_false_iff_not]
  omega

end CaseGateway.Text
