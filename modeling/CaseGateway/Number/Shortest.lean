/-
The shortest decimal that reads back to a double.

The reals that round to a finite double form an interval around it, ends included when
its significand is even.  Of the decimals in that interval those with the fewest digits
are wanted, and of these the one nearest to the double.  On the grid of multiples of a
power of ten only the two neighbours of the double need to be looked at, and the grids
are tried from the coarsest on.

All comparisons are between integers: with `m · 2 ^ q` the double, its neighbours'
midpoints lie at `4 · m + 2` and `4 · m - 2` quarter units, or at `4 · m - 1` where the
doubles below are twice as dense.
-/
import CaseGateway.Number.Decimal

namespace CaseGateway.Double

/-- A positive finite double with the interval of reals that round to it, in quarters of
its unit. -/
structure Basin where
  below : Nat
  value : Nat
  above : Nat
  /-- Whether the two ends round to the double as well. -/
  closed : Bool
  /-- The exponent of two of a quarter unit. -/
  quarter : Int

/-- The basin of a rank. -/
def basin (rank : Nat) : Basin :=
  let m := significand rank
  let q := exponent rank
  { below := if m = binade ∧ q ≠ -1074 then 4 * m - 1 else 4 * m - 2
    value := 4 * m
    above := 4 * m + 2
    closed := m % 2 = 0
    quarter := q - 2 }

/-- The height of `n` quarter units, on the scale where the grid of `10 ^ place` has integer
lines. -/
def Basin.scaled (b : Basin) (place : Int) (n : Nat) : Nat :=
  (n <<< b.quarter.toNat) * Nat.pow 10 (-place).toNat

/-- The distance of the grid's lines on that scale. -/
def Basin.step (b : Basin) (place : Int) : Nat :=
  Nat.pow 10 place.toNat <<< (-b.quarter).toNat

/-- Whether line `n` of the grid rounds to the double. -/
def Basin.holds (b : Basin) (place : Int) (n : Nat) : Bool :=
  let line := n * b.step place
  if b.closed then b.scaled place b.below ≤ line && line ≤ b.scaled place b.above
  else b.scaled place b.below < line && line < b.scaled place b.above

/-- The line of the grid of `10 ^ place` that stands for the double, if there is one: the
nearer of its two neighbours that round to it, the even one of two equally near. -/
def Basin.line? (b : Basin) (place : Int) : Option Nat :=
  let value := b.scaled place b.value
  let step := b.step place
  let low := value / step
  if low = 0 then none
  else
    match b.holds place low, b.holds place (low + 1) with
    | false, false => none
    | true, false => some low
    | false, true => some (low + 1)
    | true, true => some (nearestInteger value step)

/-- The first line found on the grids from `10 ^ place` down. -/
def Basin.search (b : Basin) : (grids : Nat) → (place : Int) → Decimal
  | 0, place => ⟨b.scaled place b.value / b.step place, place⟩
  | grids + 1, place =>
    match b.line? place with
    | some n => ⟨n, place⟩
    | none => b.search grids (place - 1)

/-- An exponent of ten that is not below the double's own. -/
def Basin.highestPlace (b : Basin) : Int :=
  (Nat.log2 b.value + 1 + b.quarter) * 30103 / 100000 + 1

/-- The shortest decimal of a positive finite rank.  Seventeen digits always suffice, and
the first grid is at most four places too coarse. -/
def shortest (rank : Nat) : Decimal :=
  let b := basin rank
  b.search 24 b.highestPlace

end CaseGateway.Double
