/-
Numbers in JSON texts.

Written, a double has the fewest digits that read back to it and always a fraction or an
exponent, so it never looks like an integer.

Read, a literal without fraction and exponent is an integer as long as it is in range.
Any other literal is a double, found in two steps of rounding: the leading digits that
fit into 64 bits make a double, which is then multiplied or divided by the double of a
power of ten.  The result is the nearest double for all but long literals, and can be
one rank off for those.
-/
import CaseGateway.Json.Basic
import CaseGateway.Number.Shortest

namespace CaseGateway.Number

/-! ### Writing -/

/-- The exponents of ten for which a double is written without an exponent. -/
def positional (e : Int) : Bool :=
  -5 ≤ e && e ≤ 15

/-- The digits of a positive decimal without zeros at the end, and the exponent of ten of
its first digit. -/
def scientific (d : Decimal) : List Char × Int :=
  let ds := Text.digitsOfNatural d.digits
  ((ds.reverse.dropWhile (· == '0')).reverse, d.exponent + ds.length - 1)

/-- Digits around a point, zeros filled in on either side of it. -/
def pointText (ds : List Char) (e : Int) : List Char :=
  if e < 0 then '0' :: '.' :: (List.replicate (-e - 1).toNat '0' ++ ds)
  else
    let places := e.toNat + 1
    let whole := ds.take places ++ List.replicate (places - ds.length) '0'
    let fraction := ds.drop places
    whole ++ '.' :: (if fraction.isEmpty then ['0'] else fraction)

/-- One digit, the others behind a point if there are any, and a signed exponent. -/
def exponentText (ds : List Char) (e : Int) : List Char :=
  let fraction := ds.drop 1
  ds.take 1 ++ (if fraction.isEmpty then [] else '.' :: fraction) ++
    'e' :: (if e < 0 then '-' else '+') :: Text.digitsOfNatural e.natAbs

/-- The text of a finite double's magnitude. -/
def magnitudeText (rank : Nat) : List Char :=
  if rank = 0 then "0.0".toList
  else
    let (ds, e) := scientific (Double.shortest rank)
    if positional e then pointText ds e else exponentText ds e

/-- The text of a number. -/
def text : Number → String
  | .integer n _ => textOfInteger n
  | .double d _ =>
    String.ofList (if d.negative then '-' :: magnitudeText d.rank else magnitudeText d.rank)

/-! ### Reading -/

/-- The parts of a number literal. -/
structure Literal where
  negative : Bool
  whole : List Char
  /-- Empty when there is no point. -/
  fraction : List Char
  exponent : Option Int
  deriving DecidableEq

/-- Takes further digits into a number while it fits into 64 bits; yields the number and how
many digits it took. -/
def absorb (n : Nat) : List Char → Nat × Nat
  | [] => (n, 0)
  | d :: ds =>
    let more := 10 * n + (d.toNat - '0'.toNat)
    if more < 0x10000000000000000 then
      let (m, taken) := absorb more ds
      (m, taken + 1)
    else (n, 0)

/-- The rank of the double that stands for ten to the given power. -/
def powerRank (n : Nat) : Nat :=
  Double.nearestRank (Nat.pow 10 n) 1

/-- A rank multiplied by a power of ten, unless the result is not finite. Powers beyond
those of a double are divided out in steps. -/
def scaleRank (rank : Nat) (e : Int) : Option Nat :=
  if e.natAbs ≤ 308 then
    if 0 ≤ e then
      let scaled := Double.productRank rank (powerRank e.natAbs)
      if scaled < Double.infinityRank then some scaled else none
    else some (Double.quotientRank rank (powerRank e.natAbs))
  else if rank = 0 then some 0
  else if 0 ≤ e then none
  else scaleRank (Double.quotientRank rank (powerRank 308)) (e + 308)
termination_by e.natAbs

/-- The double of a sign and a rank, unless it is not finite. -/
def ofFiniteRank? (negative : Bool) (rank : Nat) : Option Number :=
  let d := Double.ofRank negative rank
  if h : d.isFinite then some (.double d h) else none

namespace Literal

/-- The double a literal stands for, unless it is too large. -/
def double? (l : Literal) : Option Number :=
  let (wholePart, wholeTaken) := absorb 0 l.whole
  let (significand, fractionTaken) := absorb wholePart l.fraction
  let e : Int := (l.whole.length - wholeTaken : Nat) - fractionTaken + l.exponent.getD 0
  (scaleRank (Double.nearestRank significand 1) e).bind (ofFiniteRank? l.negative)

/-- The number a literal stands for: an integer if it can be one, where `-0` cannot. -/
def value? (l : Literal) : Option Number :=
  let n : Int := Text.naturalOfDigits l.whole
  let signed := if l.negative then -n else n
  if h : -0x8000000000000000 ≤ signed ∧ signed < 0x10000000000000000 then
    if l.fraction.isEmpty && l.exponent.isNone && !(l.negative && n == 0) then
      some (.integer signed h)
    else l.double?
  else l.double?

end Literal

end CaseGateway.Number
