/-
Rounding of quotients to the nearest double.

A quotient is first cut to as many binary places as a double has at its size, with
halves going to the even neighbour.  Adding the result to the ranks below that size
gives the rank directly, a carry into the next size included.
-/
import CaseGateway.Number.Double

namespace CaseGateway.Double

/-- The integer nearest to a quotient, the even one of two equally near. -/
def nearestInteger (num den : Nat) : Nat :=
  let whole := num / den
  let twice := 2 * (num % den)
  if twice < den then whole
  else if den < twice then whole + 1
  else whole + whole % 2

/-- The exponent of the largest power of two that a positive quotient reaches. -/
def binaryExponent (num den : Nat) : Int :=
  let guess : Int := (Nat.log2 num : Int) - Nat.log2 den
  if den <<< guess.toNat ≤ num <<< (-guess).toNat then guess else guess - 1

/-- The rank nearest to a quotient, infinity's when that is too large for a finite one. -/
def nearestRank (num den : Nat) : Nat :=
  if num = 0 then 0
  else
    let place := max (binaryExponent num den - 52) (-1074)
    let kept := nearestInteger (num <<< (-place).toNat) (den <<< place.toNat)
    min ((place + 1074).toNat * binade + kept) infinityRank

/-- The rank nearest to the product of two finite ranks' values. -/
def productRank (a b : Nat) : Nat :=
  let (na, da) := quotient a
  let (nb, db) := quotient b
  nearestRank (na * nb) (da * db)

/-- The rank nearest to the quotient of two finite ranks' values. -/
def quotientRank (a b : Nat) : Nat :=
  let (na, da) := quotient a
  let (nb, db) := quotient b
  nearestRank (na * db) (da * nb)

end CaseGateway.Double
