/-
Doubles written in decimal.

A decimal is read to the double nearest to it, however many digits it has.  Powers of
ten far outside the range of a double are settled by the number of digits alone, so a
text such as `1e99999999999` costs nothing.
-/
import CaseGateway.Number.Rounding
import CaseGateway.Text.Ascii

namespace CaseGateway

/-- The number `digits · 10 ^ exponent`. -/
structure Decimal where
  digits : Nat
  exponent : Int
  deriving DecidableEq, Repr

namespace Decimal

/-- The rank of the double nearest to a decimal. -/
def nearestRank (d : Decimal) : Nat :=
  if d.digits = 0 then 0
  else
    let size : Int := (Text.digitsOfNatural d.digits).length + d.exponent
    if 310 < size then Double.infinityRank
    else if size < -330 then 0
    else Double.nearestRank (d.digits * Nat.pow 10 d.exponent.toNat) (Nat.pow 10 (-d.exponent).toNat)

/-- The exponent after its `e`: an optional sign and at least one digit. -/
def exponentOfChars? (cs : List Char) : Option Int :=
  let (negative, ds) :=
    match cs with
    | '-' :: ds => (true, ds)
    | '+' :: ds => (false, ds)
    | ds => (false, ds)
  if ds.isEmpty || !ds.all Char.isDigit then none
  else
    let n : Int := Text.naturalOfDigits ds
    some (if negative then -n else n)

/-- A decimal without a sign: digits around an optional point, at least one of them, and
an optional exponent. -/
def ofChars? (cs : List Char) : Option Decimal :=
  let whole := cs.takeWhile Char.isDigit
  let afterWhole := cs.dropWhile Char.isDigit
  let (fraction, rest) :=
    match afterWhole with
    | '.' :: more => (more.takeWhile Char.isDigit, more.dropWhile Char.isDigit)
    | more => ([], more)
  if whole.isEmpty && fraction.isEmpty then none
  else
    let digits := Text.naturalOfDigits (whole ++ fraction)
    let places : Int := fraction.length
    match rest with
    | [] => some ⟨digits, -places⟩
    | e :: more =>
      if e = 'e' ∨ e = 'E' then (exponentOfChars? more).map fun n => ⟨digits, n - places⟩
      else none

end Decimal

namespace Double

/-- Splits an optional sign off a text. -/
def signOfChars : List Char → Bool × List Char
  | '-' :: cs => (true, cs)
  | '+' :: cs => (false, cs)
  | cs => (false, cs)

/-- A double as values spell it: an optional sign before a decimal, `Infinity` or `NaN`. -/
def ofText? (s : String) : Option Double :=
  let (negative, cs) := signOfChars s.toList
  let magnitude? :=
    if cs = "NaN".toList then some nan
    else if cs = "Infinity".toList then some infinity
    else (Decimal.ofChars? cs).map fun d => ofRank false d.nearestRank
  magnitude?.map fun d => if negative then d.neg else d

/-- A double as filters spell it: like `ofText?`, but the words are `inf`, `infinity` and
`nan` in any letter case. -/
def ofLooseText? (s : String) : Option Double :=
  let (negative, cs) := signOfChars s.toList
  let word := Text.lower (String.ofList cs)
  let magnitude? :=
    if word = "nan" then some nan
    else if word = "inf" ∨ word = "infinity" then some infinity
    else (Decimal.ofChars? cs).map fun d => ofRank false d.nearestRank
  magnitude?.map fun d => if negative then d.neg else d

end Double

end CaseGateway
