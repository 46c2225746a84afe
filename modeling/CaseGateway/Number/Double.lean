/-
Doubles of IEEE 754, as signed ranks.

The non-negative doubles in ascending order are numbered from zero: that number, the
rank, is also the binary form without its sign bit.  Infinity has rank 2047 · 2⁵²
and the NaNs come after it.  Every question about a double's value is then one about
natural numbers: a finite rank stands for `significand · 2 ^ exponent`, and the double
after it for one more rank.
-/

namespace CaseGateway

/-- A double: its sign, and the rank of its magnitude. -/
structure Double where
  negative : Bool
  rank : Nat
  rank_lt : rank < 0x8000000000000000
  deriving DecidableEq

namespace Double

/-- How many ranks there are from one power of two to the next, 2⁵². -/
def binade : Nat := 0x10000000000000

/-- The rank of infinity, the first that is not finite. -/
def infinityRank : Nat := 0x7FF0000000000000

/-- The double of a rank; one that is too large counts as infinity. -/
def ofRank (negative : Bool) (rank : Nat) : Double :=
  if h : rank < 0x8000000000000000 then ⟨negative, rank, h⟩ else ⟨negative, infinityRank, by decide⟩

/-- The double with the given binary form. -/
def ofBits (bits : UInt64) : Double :=
  ⟨0x8000000000000000 ≤ bits.toNat, bits.toNat % 0x8000000000000000, Nat.mod_lt _ (by decide)⟩

/-- The binary form. -/
def toBits (d : Double) : UInt64 :=
  UInt64.ofNat ((if d.negative then 0x8000000000000000 else 0) + d.rank)

/-- The quiet NaN without a sign. -/
def nan : Double := ⟨false, 0x7FF8000000000000, by decide⟩

/-- Infinity without a sign. -/
def infinity : Double := ⟨false, infinityRank, by decide⟩

/-- Whether the double stands for a real number. -/
def isFinite (d : Double) : Bool :=
  d.rank < infinityRank

/-- Whether the double is not a number. -/
def isNaN (d : Double) : Bool :=
  infinityRank < d.rank

/-- The double of the other sign. -/
def neg (d : Double) : Double :=
  { d with negative := !d.negative }

/-- The comparison of IEEE 754: the zeros are equal, and a NaN equals nothing. -/
def sameNumber (d e : Double) : Bool :=
  !d.isNaN && !e.isNaN && d.rank == e.rank && (d.negative == e.negative || d.rank == 0)

/-- The integer factor of a finite rank's value. -/
def significand (rank : Nat) : Nat :=
  if rank < binade then rank else binade + rank % binade

/-- The exponent of two in a finite rank's value. -/
def exponent (rank : Nat) : Int :=
  if rank < binade then -1074 else (rank / binade : Nat) - 1075

/-- The value of a finite rank as a numerator over a denominator. -/
def quotient (rank : Nat) : Nat × Nat :=
  (significand rank <<< (exponent rank).toNat, 1 <<< (-exponent rank).toNat)

end Double

end CaseGateway
