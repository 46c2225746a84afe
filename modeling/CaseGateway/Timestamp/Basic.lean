/-
Points of civil time.

A timestamp is a date of the proleptic Gregorian calendar, which has a year zero, and a
time of day in some zone that is understood.  A leap second is written as a nanosecond
of a thousand million or more, so that it comes after every other instant of its
second.

Days are counted from the first of January of year 1: the number of the days before a
year is linear up to three floor divisions, and finding the year of a day inverts that
by a guess that is off by at most one.
-/

namespace CaseGateway

namespace Timestamp

/-- The first and the last year a timestamp can be in. -/
def firstYear : Int := -262143

@[inherit_doc firstYear]
def lastYear : Int := 262142

/-- Whether a year has a leap day. -/
def isLeapYear (year : Int) : Bool :=
  year % 4 == 0 && (year % 100 != 0 || year % 400 == 0)

/-- The lengths of a year's months. -/
def monthLengths (year : Int) : List Nat :=
  [31, if isLeapYear year then 29 else 28, 31, 30, 31, 30, 31, 31, 30, 31, 30, 31]

/-- The number of days of a month, counted from 1; none outside the year. -/
def daysInMonth (year : Int) (month : Nat) : Nat :=
  if month = 0 then 0 else (monthLengths year).getD (month - 1) 0

/-- Whether the numbers make up a date and a time of day. -/
def Valid (year : Int) (month day hour minute second nanosecond : Nat) : Prop :=
  firstYear ≤ year ∧ year ≤ lastYear ∧ 1 ≤ day ∧ day ≤ daysInMonth year month ∧
    hour < 24 ∧ minute < 60 ∧ second < 60 ∧ nanosecond < 2000000000

instance (year : Int) (month day hour minute second nanosecond : Nat) :
    Decidable (Valid year month day hour minute second nanosecond) :=
  inferInstanceAs (Decidable (_ ∧ _))

end Timestamp

/-- A date and a time of day. -/
structure Timestamp where
  year : Int
  month : Nat
  day : Nat
  hour : Nat
  minute : Nat
  second : Nat
  nanosecond : Nat
  valid : Timestamp.Valid year month day hour minute second nanosecond
  deriving DecidableEq

namespace Timestamp

/-- The timestamp of seven numbers, if they make one up. -/
def make? (year : Int) (month day hour minute second nanosecond : Nat) : Option Timestamp :=
  if h : Valid year month day hour minute second nanosecond then
    some ⟨year, month, day, hour, minute, second, nanosecond, h⟩
  else none

/-- The timestamp at the start of its second. -/
def wholeSecond (t : Timestamp) : Timestamp :=
  { t with
    nanosecond := 0
    valid := by
      obtain ⟨h₁, h₂, h₃, h₄, h₅, h₆, h₇, _⟩ := t.valid
      exact ⟨h₁, h₂, h₃, h₄, h₅, h₆, h₇, by decide⟩ }

/-- Earlier timestamps are smaller: the numbers are compared from the year on. -/
instance : Ord Timestamp where
  compare s t :=
    (compare s.year t.year).then <| (compare s.month t.month).then <|
      (compare s.day t.day).then <| (compare s.hour t.hour).then <|
        (compare s.minute t.minute).then <| (compare s.second t.second).then
          (compare s.nanosecond t.nanosecond)

/-! ### Counting days -/

/-- The number of days from the first of January of year 1 to that of `year`. -/
def daysBeforeYear (year : Int) : Int :=
  let y := year - 1
  365 * y + y / 4 - y / 100 + y / 400

/-- The number of days of a year before a month. -/
def daysBeforeMonth (year : Int) (month : Nat) : Nat :=
  ((monthLengths year).take (month - 1)).foldl (· + ·) 0

/-- The number of days from the first of January of year 1 to a date. -/
def dayNumber (year : Int) (month day : Nat) : Int :=
  daysBeforeYear year + daysBeforeMonth year month + day - 1

/-- The year a day is in. -/
def yearOfDay (n : Int) : Int :=
  let guess := n * 400 / 146097 + 1
  if n < daysBeforeYear guess then guess - 1
  else if daysBeforeYear (guess + 1) ≤ n then guess + 1
  else guess

/-- The month and the day in it of the day with the given index, counting both from the
start of month number `month`. -/
def monthAndDay (month : Nat) : (lengths : List Nat) → (index : Nat) → Nat × Nat
  | [], index => (month, index + 1)
  | l :: ls, index => if index < l then (month, index + 1) else monthAndDay (month + 1) ls (index - l)

/-- The timestamp a number of seconds later, at the start of its second. -/
def shift? (t : Timestamp) (seconds : Int) : Option Timestamp :=
  let instant := dayNumber t.year t.month t.day * 86400 +
    ((t.hour * 60 + t.minute) * 60 + t.second : Nat) + seconds
  let day := instant / 86400
  let rest := (instant % 86400).toNat
  let year := yearOfDay day
  let (month, dayOfMonth) := monthAndDay 1 (monthLengths year) (day - daysBeforeYear year).toNat
  make? year month dayOfMonth (rest / 3600) (rest / 60 % 60) (rest % 60) 0

end Timestamp

end CaseGateway
