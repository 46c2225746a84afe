/-
Timestamps as texts.

A timestamp is written to the second.  Read, the same form is accepted with some
freedom, and two forms with a zone offset, which are turned into universal time and cut
to whole seconds.  A second numbered 60 is a leap second; only the form without a zone
keeps it.
-/
import CaseGateway.Text.Ascii
import CaseGateway.Text.Blank
import CaseGateway.Timestamp.Basic

namespace CaseGateway.Timestamp

open Text (padded isBlank naturalOfDigits)

/-! ### Writing -/

/-- A year: four digits, or a sign and at least four digits outside 0 to 9999. -/
def yearText (year : Int) : List Char :=
  if 0 ≤ year ∧ year ≤ 9999 then padded 4 year.natAbs
  else (if year < 0 then '-' else '+') :: padded 4 year.natAbs

/-- The text of a timestamp, such as `2014-02-03T10:11:12`; a leap second is the next one. -/
def text (t : Timestamp) : String :=
  String.ofList <|
    yearText t.year ++ '-' :: padded 2 t.month ++ '-' :: padded 2 t.day ++
      'T' :: padded 2 t.hour ++ ':' :: padded 2 t.minute ++
        ':' :: padded 2 (t.second + t.nanosecond / 1000000000)

/-! ### Reading -/

/-- One to `most` digits. -/
def readDigits (most : Nat) : List Char → Option (Nat × List Char) := fun cs =>
  let ds := (cs.takeWhile Char.isDigit).take most
  if ds.isEmpty then none else some (naturalOfDigits ds, cs.drop ds.length)

/-- Exactly `count` digits. -/
def readFixed (count : Nat) : List Char → Option (Nat × List Char) := fun cs =>
  let ds := cs.take count
  if ds.length = count ∧ ds.all Char.isDigit then some (naturalOfDigits ds, cs.drop count)
  else none

/-- One character out of several. -/
def readOne (allowed : List Char) : List Char → Option (Char × List Char)
  | [] => none
  | c :: cs => if c ∈ allowed then some (c, cs) else none

/-- A year behind blanks: a sign and any number of digits, or up to four digits. -/
def readYear (cs : List Char) : Option (Int × List Char) :=
  match cs.dropWhile isBlank with
  | '-' :: ds => (readDigits ds.length ds).map fun (n, rest) => (-(n : Int), rest)
  | '+' :: ds => (readDigits ds.length ds).map fun (n, rest) => ((n : Int), rest)
  | ds => (readDigits 4 ds).map fun (n, rest) => ((n : Int), rest)

/-- One or two digits behind blanks. -/
def readPair (cs : List Char) : Option (Nat × List Char) :=
  readDigits 2 (cs.dropWhile isBlank)

/-- The timestamp of numbers of which the second may be 60. -/
def ofNumbers? (year : Int) (month day hour minute second : Nat) : Option Timestamp :=
  if second = 60 then make? year month day hour minute 59 1000000000
  else make? year month day hour minute second 0

/-- A timestamp without a zone, in the form in which they are written but with blanks allowed
in front of each number and leading zeros optional. -/
def readPlain (cs : List Char) : Option (Timestamp × List Char) := do
  let (year, cs) ← readYear cs
  let (_, cs) ← readOne ['-'] cs
  let (month, cs) ← readPair cs
  let (_, cs) ← readOne ['-'] cs
  let (day, cs) ← readPair cs
  let (_, cs) ← readOne ['T'] cs
  let (hour, cs) ← readPair cs
  let (_, cs) ← readOne [':'] cs
  let (minute, cs) ← readPair cs
  let (_, cs) ← readOne [':'] cs
  let (second, cs) ← readPair cs
  return (← ofNumbers? year month day hour minute second, cs)

/-- A timestamp without a zone whose numbers have all their digits, a blank or either case
of the letter between date and time. -/
def readStrict (cs : List Char) : Option (Timestamp × List Char) := do
  let (year, cs) ← readFixed 4 cs
  let (_, cs) ← readOne ['-'] cs
  let (month, cs) ← readFixed 2 cs
  let (_, cs) ← readOne ['-'] cs
  let (day, cs) ← readFixed 2 cs
  let (_, cs) ← readOne ['T', 't', ' '] cs
  let (hour, cs) ← readFixed 2 cs
  let (_, cs) ← readOne [':'] cs
  let (minute, cs) ← readFixed 2 cs
  let (_, cs) ← readOne [':'] cs
  let (second, cs) ← readFixed 2 cs
  return (← ofNumbers? year month day hour minute second, cs)

/-- The point and the digits of a fraction, if there is one; its value does not matter. -/
def skipFraction : List Char → Option (List Char)
  | '.' :: cs => if (cs.takeWhile Char.isDigit).isEmpty then none else some (cs.dropWhile Char.isDigit)
  | cs => some cs

/-- An offset from universal time in seconds: a sign, hours, a separator that `between` takes
off, and minutes, below a whole day and up to the end of the text. -/
def offset? (between : List Char → Option (List Char)) (cs : List Char) : Option Int := do
  let (sign, cs) ← readOne ['+', '-', Char.ofNat 0x2212] cs
  let (hours, cs) ← readFixed 2 cs
  let (minutes, cs) ← readFixed 2 (← between cs)
  if cs.isEmpty && minutes < 60 && hours < 24 then
    let seconds : Int := ((hours * 60 + minutes) * 60 : Nat)
    some (if sign = '+' then seconds else -seconds)
  else none

/-- An offset behind blanks, with any colons and blanks inside. -/
def looseOffset? (cs : List Char) : Option Int :=
  offset? (fun more => some (more.dropWhile fun c => c == ':' || isBlank c)) (cs.dropWhile isBlank)

/-- An offset with a colon inside, or the letter of universal time. -/
def strictOffset? (cs : List Char) : Option Int :=
  if cs = ['Z'] ∨ cs = ['z'] then some 0
  else offset? (fun more => (readOne [':'] more).map (·.2)) cs

/-- The timestamp a text stands for: without a zone as it is, with one in universal time. -/
def parse? (s : String) : Option Timestamp :=
  let cs := s.toList
  let plain? := readPlain cs
  match plain? with
  | some (t, []) => some t
  | _ =>
    match plain?.bind fun (t, rest) => (looseOffset? rest).map fun seconds => (t, seconds) with
    | some (t, seconds) => t.shift? (-seconds)
    | none => do
      let (t, rest) ← readStrict cs
      let seconds ← strictOffset? (← skipFraction rest)
      t.shift? (-seconds)

end CaseGateway.Timestamp
