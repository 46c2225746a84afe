/-
Blank ends and capitals.

Taking blanks off the ends of a text leaves an end that is not blank, or nothing.  Only the
letters `A` to `Z` have another lower case, and what they become is neither a blank, nor a
separator, nor part of a numeral, so blanks can be taken off before or after.
-/
import CaseGateway.Text.Ascii
import CaseGateway.Text.Blank
import Mathlib.Data.List.DropRight

namespace CaseGateway.Text

variable {p : Char → Bool} {cs : List Char} {c : Char}

/-! ### Ends -/

theorem stripEnds_eq_rdropWhile (p : Char → Bool) (cs : List Char) :
    stripEnds p cs = (cs.dropWhile p).rdropWhile p := rfl

theorem mem_of_mem_stripEnds (h : c ∈ stripEnds p cs) : c ∈ cs := by
  rw [stripEnds_eq_rdropWhile] at h
  exact (List.dropWhile_sublist p).mem ((List.rdropWhile_prefix p _).mem h)

theorem head?_stripEnds (h : c ∈ (stripEnds p cs).head?) : p c = false := by
  have hprefix : stripEnds p cs <+: cs.dropWhile p := List.rdropWhile_prefix p _
  have hfirst : c ∈ (cs.dropWhile p).head? := by
    obtain ⟨rest, hrest⟩ := hprefix
    rw [← hrest, List.head?_append, Option.mem_def.mp h]
    rfl
  have hnot := List.head?_dropWhile_not p cs
  rwa [Option.mem_def.mp hfirst] at hnot

theorem getLast?_stripEnds (h : c ∈ (stripEnds p cs).getLast?) : p c = false := by
  have hfirst : c ∈ ((cs.dropWhile p).reverse.dropWhile p).head? := by
    rwa [stripEnds, List.getLast?_reverse] at h
  have hnot := List.head?_dropWhile_not p (cs.dropWhile p).reverse
  rwa [Option.mem_def.mp hfirst] at hnot

/-- Nothing is taken off where nothing is to be taken off. -/
theorem stripEnds_eq_self (hfirst : ∀ c ∈ cs.head?, p c = false)
    (hlast : ∀ c ∈ cs.getLast?, p c = false) : stripEnds p cs = cs := by
  have hkept : cs.dropWhile p = cs := by
    cases cs with
    | nil => rfl
    | cons c cs => exact List.dropWhile_cons_of_neg (by simpa using hfirst c)
  rw [stripEnds_eq_rdropWhile, hkept, List.rdropWhile_eq_self_iff]
  intro hne
  simpa using hlast _ (List.getLast?_eq_some_getLast hne)

/-! ### Capitals -/

theorem toLower_eq_or (c : Char) :
    c.toLower = c ∨ (65 ≤ c.toNat ∧ c.toNat ≤ 90 ∧ c.toLower.toNat = c.toNat + 32) := by
  unfold Char.toLower
  split
  · next h =>
    refine Or.inr ⟨h.1, h.2, ?_⟩
    have hbound : c.val.toNat ≤ 90 := h.2
    have hdistance : (32 : UInt32).toNat = 32 := rfl
    show (c.val + 32).toNat = c.val.toNat + 32
    rw [UInt32.toNat_add, hdistance]
    exact Nat.mod_eq_of_lt (by omega)
  · exact Or.inl rfl

theorem toLower_toLower (c : Char) : c.toLower.toLower = c.toLower := by
  rcases toLower_eq_or c with h | ⟨hlow, hhigh, hsum⟩
  · rw [h, h]
  · rcases toLower_eq_or c.toLower with h | ⟨-, hhigh', -⟩
    · exact h
    · omega

theorem isBlank_toLower (c : Char) : isBlank c.toLower = isBlank c := by
  rcases toLower_eq_or c with h | ⟨hlow, hhigh, hsum⟩
  · rw [h]
  · simp only [isBlank, blankRanges, List.any_cons, List.any_nil, hsum]
    rw [Bool.eq_iff_iff]
    simp
    omega

theorem toLower_eq_semicolon (h : c.toLower = ';') : c = ';' := by
  rcases toLower_eq_or c with hsame | ⟨hlow, hhigh, hsum⟩
  · rw [← hsame, h]
  · rw [h] at hsum
    have : (';').toNat = 59 := rfl
    omega

/-- A letter in any case is not part of a numeral. -/
theorem not_numeral_of_toLower {letter : Char} (h : c.toLower = letter) (hletter : 97 ≤ letter.toNat) :
    c.isDigit = false ∧ c ≠ '.' := by
  have hlow : 65 ≤ c.toNat := by
    rcases toLower_eq_or c with hsame | ⟨hlow, -, -⟩
    · rw [← hsame, h]
      omega
    · exact hlow
  constructor
  · have hdigit : ¬c.toNat ≤ 57 := by omega
    simp only [Char.isDigit, Bool.and_eq_false_iff, decide_eq_false_iff_not]
    exact Or.inr hdigit
  · rintro rfl
    have hpoint : ('.').toNat = 46 := rfl
    omega

end CaseGateway.Text
