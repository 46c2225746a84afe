/-
Calls in words.

Each call is written as a name with its arguments in brackets.  The names follow from
those of the columns, so that a resource states only how its columns are called.
-/
import CaseGateway.Query.Call
import CaseGateway.Query.Spec

namespace CaseGateway

/-- Things with a name: columns, sort keys, and conditions with their arguments. -/
class Worded (α : Type) where
  wording : α → String

instance : Worded Empty := ⟨Empty.elim⟩

/-- A text with its first letter in upper case. -/
def capitalized (s : String) : String :=
  match s.toList with
  | [] => ""
  | c :: cs => String.ofList (c.toUpper :: cs)

/-- Texts with commas between them. -/
def commaJoined (texts : List String) : String :=
  ",".intercalate texts

/-- A call by name and arguments. -/
def callText (name : String) (arguments : List String) : String :=
  name ++ "(" ++ commaJoined arguments ++ ")"

variable {χ ε κ : Type} [Worded χ] [Worded ε] [Worded κ]

/-- A condition in words. -/
def Condition.wording : Condition χ ε → String
  | .equals c text => callText (Worded.wording c) [text]
  | .oneOf c texts => callText (Worded.wording c ++ "In") texts
  | .like c pattern => callText (Worded.wording c ++ "Like") [pattern]
  | .special e => Worded.wording e

/-- The name of a sort key. -/
def SortKey.name : SortKey χ κ → String
  | .column c => Worded.wording c
  | .special k => Worded.wording k

/-- A call in words. -/
def QueryCall.wording : QueryCall χ ε κ → String
  | .condition c => c.wording
  | .orderBy key => callText ("orderBy" ++ capitalized key.name) []
  | .direction order => callText order.name []
  | .disableBinaryFetching => callText "disableBinaryFetching" []
  | .disableObjectDeserialization => callText "disableCustomObjectDeserialization" []

/-- The running of a query in words. -/
def Execution.wording {ρ α : Type} : Execution ρ α → String
  | .list => callText "list" []
  | .page first max => callText "listPage" [textOfInteger first, textOfInteger max]
  | .count => callText "count" []
  | .single => callText "singleResult" []

end CaseGateway
