/-
Letter case and digits within ASCII.

Tags, format names and truth values are compared without regard to the case of the
letters `A` to `Z`; every other character, accented letters included, stands for
itself.
-/

namespace CaseGateway.Text

/-- The text with the letters `A` to `Z` in lower case. -/
def lower (s : String) : String :=
  s.map Char.toLower

/-- Equality of texts up to the case of the letters `A` to `Z`. -/
def sameLetters (s t : String) : Bool :=
  lower s == lower t

/-- The number written by a run of decimal digits, most significant first. -/
def naturalOfDigits (ds : List Char) : Nat :=
  Nat.ofDigitChars 10 ds 0

/-- The decimal digits of a number, most significant first. -/
def digitsOfNatural (n : Nat) : List Char :=
  Nat.toDigits 10 n

theorem naturalOfDigits_digitsOfNatural (n : Nat) : naturalOfDigits (digitsOfNatural n) = n :=
  Nat.ofDigitChars_ten_toDigits

/-- A number written with at least `width` digits, zeros in front. -/
def padded (width n : Nat) : List Char :=
  let ds := digitsOfNatural n
  List.replicate (width - ds.length) '0' ++ ds

end CaseGateway.Text
