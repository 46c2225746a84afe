/-
Cutting a text at a separator.

`pieces` never drops a piece: a text with `n` separators has `n + 1` pieces, and
joining them with the separator gives the text back.
-/

namespace CaseGateway.Text

variable {α : Type} [DecidableEq α]

/-- The runs between the occurrences of `sep`, empty ones included. -/
def pieces (sep : α) : List α → List (List α)
  | [] => [[]]
  | c :: cs =>
    if c = sep then [] :: pieces sep cs
    else
      match pieces sep cs with
      | [] => [[c]]
      | p :: ps => (c :: p) :: ps

/-- What stands before the first `sep`, and what follows it. -/
def cutAt (sep : α) (cs : List α) : List α × List α :=
  (cs.takeWhile (· ≠ sep), (cs.dropWhile (· ≠ sep)).drop 1)

/-- The texts between the occurrences of `sep`. -/
def split (sep : Char) (s : String) : List String :=
  (pieces sep s.toList).map String.ofList

theorem pieces_ne_nil (sep : α) (cs : List α) : pieces sep cs ≠ [] := by
  cases cs with
  | nil => simp [pieces]
  | cons c cs =>
    by_cases h : c = sep
    · simp [pieces, h]
    · simp only [pieces, h, if_false]
      split <;> simp

end CaseGateway.Text
