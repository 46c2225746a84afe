/-
Number literals in documents.

A literal is read as far as it goes, so what is behind it must not go on with it: no digit, no
point and no exponent.  In a document that is never the case, since a comma, a closing
bracket or the end of the text follows.

An integer is the value of the literal that is its text.  A double need not be: its text
has the fewest digits that are nearest to it, but up to seventeen of them, and the literal is
rounded once to a double of the digits and once more when that is scaled by a power of ten.
The doubles that are missed by this are said not to be legible.
-/
import CaseGateway.Json.Reader
import CaseGateway.Proofs.Number.Text

namespace CaseGateway

namespace Double

theorem signOfChars_append {cs : List Char} (h : cs ≠ []) (rest : List Char) :
    signOfChars (cs ++ rest) = ((signOfChars cs).1, (signOfChars cs).2 ++ rest) := by
  cases cs with
  | nil => exact absurd rfl h
  | cons c cs =>
      rw [List.cons_append]
      unfold signOfChars
      split
      · next heq => cases heq; rfl
      · next heq => cases heq; rfl
      · next hminus hplus =>
        split
        · next heq => cases heq; exact absurd rfl (hminus _)
        · next heq => cases heq; exact absurd rfl (hplus _)
        · rfl

end Double

namespace Json

/-! ### The end of a literal -/

/-- Nothing follows that goes on with a number literal. -/
def EndsLiteral (rest : List Char) : Prop :=
  ∀ c ∈ rest.head?, c.isDigit = false ∧ c ≠ '.' ∧ c ≠ 'e' ∧ c ≠ 'E'

theorem endsLiteral_nil : EndsLiteral [] := nofun

theorem endsLiteral_cons {c : Char} (h : c.isDigit = false ∧ c ≠ '.' ∧ c ≠ 'e' ∧ c ≠ 'E')
    (rest : List Char) : EndsLiteral (c :: rest) := by
  intro d hd
  rwa [← Option.mem_some.mp hd]

theorem readFraction_of_ne {cs : List Char} (h : ∀ c ∈ cs.head?, c ≠ '.') :
    readFraction cs = some ([], cs) := by
  unfold readFraction
  split
  · exact absurd rfl (h '.' rfl)
  · rfl

theorem readExponent_of_ne {cs : List Char} (h : ∀ c ∈ cs.head?, c ≠ 'e' ∧ c ≠ 'E') :
    readExponent cs = some (none, cs) := by
  cases cs with
  | nil => rfl
  | cons c cs =>
      obtain ⟨he, hE⟩ := h c rfl
      simp [readExponent, he, hE]

/-! ### Literals by their parts -/

/-- Splits a minus sign off a text. -/
def minusOf : List Char → Bool × List Char
  | '-' :: ds => (true, ds)
  | ds => (false, ds)

theorem minusOf_of_isDigit {cs : List Char} (h : ∀ c ∈ cs, c.isDigit) :
    minusOf cs = (false, cs) := by
  unfold minusOf
  split
  · exact absurd (h '-' List.mem_cons_self) (by decide)
  · rfl

theorem minusOf_textOfInteger (n : Int) :
    minusOf (textOfInteger n).toList = (decide (n < 0), Text.digitsOfNatural n.natAbs) := by
  by_cases h : n < 0
  · simp [textOfInteger, h, minusOf]
  · simp [textOfInteger, h, minusOf_of_isDigit (Text.isDigit_of_mem_digits n.natAbs)]

theorem minusOf_append {cs : List Char} (h : cs ≠ []) (rest : List Char) :
    minusOf (cs ++ rest) = ((minusOf cs).1, (minusOf cs).2 ++ rest) := by
  cases cs with
  | nil => exact absurd rfl h
  | cons c cs =>
      rw [List.cons_append]
      unfold minusOf
      split
      · next heq => cases heq; rfl
      · next hminus =>
        split
        · next heq => cases heq; exact absurd rfl (hminus _)
        · rfl

/-- A literal is read just if its parts stand one behind the other. -/
theorem readLiteral_eq_some_iff {cs more : List Char} {l : Number.Literal} :
    readLiteral cs = some (l, more) ↔
      l.whole ≠ [] ∧ (l.whole.head? = some '0' → l.whole.length ≤ 1) ∧
        ∃ ds after, minusOf cs = (l.negative, ds) ∧ ds.takeWhile Char.isDigit = l.whole ∧
          readFraction (ds.dropWhile Char.isDigit) = some (l.fraction, after) ∧
          readExponent after = some (l.exponent, more) := by
  obtain ⟨negative, whole, fraction, exponent⟩ := l
  have hread : readLiteral cs =
      let signed := minusOf cs
      let whole := signed.2.takeWhile Char.isDigit
      if whole.isEmpty || (whole.head? == some '0' && 1 < whole.length) then none
      else
        (readFraction (signed.2.dropWhile Char.isDigit)).bind fun r =>
          (readExponent r.2).bind fun r' => some (⟨signed.1, whole, r.1, r'.1⟩, r'.2) := rfl
  rw [hread]
  generalize minusOf cs = signed
  obtain ⟨sign, ds⟩ := signed
  simp only [Option.ite_none_left_eq_some, Option.bind_eq_some_iff, Bool.or_eq_true,
    Bool.and_eq_true, beq_iff_eq, decide_eq_true_eq, not_or, not_and, Nat.not_lt, List.isEmpty_iff]
  constructor
  · rintro ⟨⟨hne, hzero⟩, ⟨fraction, after⟩, hfraction, ⟨exponent, more⟩, hexponent, heq⟩
    cases heq
    exact ⟨hne, hzero, ds, after, rfl, rfl, hfraction, hexponent⟩
  · rintro ⟨hne, hzero, ds', after, ⟨⟩, ⟨⟩, hfraction, hexponent⟩
    exact ⟨⟨hne, hzero⟩, ⟨fraction, after⟩, hfraction, ⟨exponent, more⟩, hexponent, rfl⟩

/-- A literal begins with a minus sign or with a digit. -/
theorem begins_of_readLiteral {cs more : List Char} {l : Number.Literal}
    (h : readLiteral cs = some (l, more)) : ∃ c ds, cs = c :: ds ∧ (c = '-' ∨ c.isDigit) := by
  obtain ⟨hne, -, ds, -, hminus, hwhole, -⟩ := readLiteral_eq_some_iff.mp h
  unfold minusOf at hminus
  split at hminus
  · exact ⟨_, _, rfl, Or.inl rfl⟩
  · have hds : cs = ds := congrArg Prod.snd hminus
    subst hds
    cases cs with
    | nil => exact absurd hwhole.symm hne
    | cons c cs =>
        refine ⟨c, cs, rfl, Or.inr (Decidable.byContradiction fun hc => hne ?_)⟩
        rw [← hwhole, List.takeWhile_cons_of_neg hc]

section Append

variable {rest : List Char} (hrest : EndsLiteral rest)
include hrest

theorem EndsLiteral.noDigitAhead : Text.NoDigitAhead rest := fun c hc => (hrest c hc).1

theorem readFraction_append {cs fraction more : List Char}
    (h : readFraction cs = some (fraction, more)) :
    readFraction (cs ++ rest) = some (fraction, more ++ rest) := by
  unfold readFraction at h
  split at h
  · next cs =>
    obtain ⟨htake, hdrop⟩ := Text.digits_append cs hrest.noDigitAhead
    simp only [List.cons_append, readFraction, htake, hdrop]
    simp only at h
    split at h
    · exact nomatch h
    · next hne =>
      cases h
      rw [if_neg hne]
  · next hpoint =>
    cases h
    refine readFraction_of_ne fun c hc => ?_
    cases cs with
    | nil => exact (hrest c hc).2.1
    | cons d cs =>
        rintro rfl
        exact hpoint cs (by rw [Option.mem_some.mp hc])

theorem readExponent_append {cs more : List Char} {e : Option Int}
    (h : readExponent cs = some (e, more)) :
    readExponent (cs ++ rest) = some (e, more ++ rest) := by
  cases cs with
  | nil =>
      cases h
      exact readExponent_of_ne fun c hc => (hrest c hc).2.2
  | cons c cs =>
      simp only [List.cons_append, readExponent] at h ⊢
      split at h
      · next hc =>
        split at h
        · exact nomatch h
        · next hne =>
          have hcs : cs ≠ [] := by
            rintro rfl
            exact hne rfl
          cases h
          obtain ⟨htake, hdrop⟩ :=
            Text.digits_append (Double.signOfChars cs).2 hrest.noDigitAhead
          simp only [if_pos hc, Double.signOfChars_append hcs, htake, hdrop, if_neg hne]
      · next hc =>
        cases h
        rw [if_neg hc]
        rfl

/-- A literal ends where it ended before if nothing is put behind it that goes on with it. -/
theorem readLiteral_append {cs more : List Char} {l : Number.Literal}
    (h : readLiteral cs = some (l, more)) : readLiteral (cs ++ rest) = some (l, more ++ rest) := by
  obtain ⟨hne, hzero, ds, after, hminus, hwhole, hfraction, hexponent⟩ :=
    readLiteral_eq_some_iff.mp h
  have hcs : cs ≠ [] := by
    rintro rfl
    have hds : [] = ds := congrArg Prod.snd hminus
    subst hds
    exact hne hwhole.symm
  obtain ⟨htake, hdrop⟩ := Text.digits_append ds hrest.noDigitAhead
  refine readLiteral_eq_some_iff.mpr ⟨hne, hzero, ds ++ rest, after ++ rest, ?_, ?_, ?_, ?_⟩
  · rw [minusOf_append hcs, hminus]
  · rw [htake, hwhole]
  · rw [hdrop]
    exact readFraction_append hrest hfraction
  · exact readExponent_append hrest hexponent

end Append

end Json

/-! ### Legible numbers -/

namespace Number

/-- A number is legible if its text is a literal that stands for it. -/
def Legible (n : Number) : Prop :=
  ∃ l, Json.readLiteral n.text.toList = some (l, []) ∧ l.value? = some n

/-- **Every integer is legible.** -/
theorem legible_integer (n : Int) (h : -0x8000000000000000 ≤ n ∧ n < 0x10000000000000000) :
    (Number.integer n h).Legible := by
  have hdigits := Text.isDigit_of_mem_digits n.natAbs
  have htake := Text.takeWhile_digits hdigits Text.noDigitAhead_nil
  have hdrop := Text.dropWhile_digits hdigits Text.noDigitAhead_nil
  rw [List.append_nil] at htake hdrop
  refine ⟨⟨decide (n < 0), Text.digitsOfNatural n.natAbs, [], none⟩, ?_, ?_⟩
  · refine Json.readLiteral_eq_some_iff.mpr ⟨Text.digits_ne_nil n.natAbs, fun hzero => ?_,
      Text.digitsOfNatural n.natAbs, [], Json.minusOf_textOfInteger n, htake, ?_, rfl⟩
    · by_cases hn : n.natAbs = 0
      · simp only [hn]
        decide
      · exact absurd hzero (Text.head?_digitsOfNatural hn)
    · rw [hdrop]
      rfl
  · have hvalue := Text.naturalOfDigits_digitsOfNatural n.natAbs
    have hsigned : (if decide (n < 0) then -(n.natAbs : Int) else n.natAbs) = n := by
      by_cases hneg : n < 0
      · rw [if_pos (decide_eq_true hneg)]
        omega
      · rw [if_neg (by simpa using hneg)]
        omega
    simp only [Literal.value?, hvalue, hsigned, dif_pos h]
    rw [if_pos]
    -- only a negative zero would not be taken for an integer
    simp
    omega

end Number

end CaseGateway
