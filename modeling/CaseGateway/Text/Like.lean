/-
Matching of texts against SQL patterns.

In a pattern `%` stands for any run of characters and `_` for exactly one; every other
character stands for itself.  The matcher keeps one row of truth values per pattern
character read: entry `j` says whether the pattern so far matches the first `j`
characters of the value.  A row is computed from the row before it, so the work is the
product of the two lengths whatever the pattern.
-/

namespace CaseGateway.Like

/-- The running disjunction of a row. -/
def spread (seen : Bool) : List Bool → List Bool
  | [] => []
  | b :: bs => (seen || b) :: spread (seen || b) bs

/-- The row after one more pattern character. -/
def advance (value : List Char) (row : List Bool) (c : Char) : List Bool :=
  if c = '%' then spread false row
  else false :: List.zipWith (fun matched v => matched && (c == '_' || c == v)) row value

/-- The row of the empty pattern, which matches nothing but the empty beginning. -/
def firstRow (value : List Char) : List Bool :=
  true :: value.map fun _ => false

/-- Whether a pattern matches a whole value. -/
def matchesChars (pattern value : List Char) : Bool :=
  (pattern.foldl (advance value) (firstRow value)).getLastD false

end CaseGateway.Like

namespace CaseGateway

/-- Whether the SQL pattern matches the text. -/
def like (pattern text : String) : Bool :=
  Like.matchesChars pattern.toList text.toList

end CaseGateway
