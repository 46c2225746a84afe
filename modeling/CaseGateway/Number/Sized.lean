/-
Integers of a fixed width, and integers in decimal.

Variables hold integers of 16, 32 and 64 bits.  A value that does not fit its width does
not exist, so nothing ever wraps around.
-/
import CaseGateway.Text.Ascii

namespace CaseGateway

/-- The widths of integer variables. -/
inductive IntWidth
  | short
  | integer
  | long
  deriving DecidableEq, Repr

/-- The number of negative integers of a width, which is also that of all others. -/
def IntWidth.half : IntWidth → Int
  | .short => 0x8000
  | .integer => 0x80000000
  | .long => 0x8000000000000000

/-- Whether an integer fits a width, in two's complement. -/
def IntWidth.Fits (w : IntWidth) (n : Int) : Prop :=
  -w.half ≤ n ∧ n < w.half

instance (w : IntWidth) (n : Int) : Decidable (w.Fits n) :=
  inferInstanceAs (Decidable (_ ∧ _))

/-- An integer of the given width. -/
structure SizedInt (w : IntWidth) where
  val : Int
  fits : w.Fits val
  deriving DecidableEq

/-- The integer, if it fits the width. -/
def SizedInt.ofInt? (w : IntWidth) (n : Int) : Option (SizedInt w) :=
  if h : w.Fits n then some ⟨n, h⟩ else none

/-- The number written by an optional sign and at least one digit. -/
def integerOfText? (s : String) : Option Int :=
  let (negative, ds) :=
    match s.toList with
    | '-' :: ds => (true, ds)
    | '+' :: ds => (false, ds)
    | ds => (false, ds)
  if ds.isEmpty || !ds.all Char.isDigit then none
  else
    let n : Int := Text.naturalOfDigits ds
    some (if negative then -n else n)

/-- The decimal text of an integer. -/
def textOfInteger (n : Int) : String :=
  let digits := Text.digitsOfNatural n.natAbs
  String.ofList (if n < 0 then '-' :: digits else digits)

/-- The integer of the given width that a text writes. -/
def SizedInt.ofText? (w : IntWidth) (s : String) : Option (SizedInt w) :=
  (integerOfText? s).bind (SizedInt.ofInt? w)

/-- The decimal text of an integer. -/
def SizedInt.text {w : IntWidth} (n : SizedInt w) : String :=
  textOfInteger n.val

end CaseGateway
