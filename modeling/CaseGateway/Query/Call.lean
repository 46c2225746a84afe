/-
Calls on a query, and what they say about rows.

A resource has text columns, each of which a row may lack, and can have conditions and
sort keys of its own besides.  A call adds a condition, names a sort key, gives the last
named sort key its direction, or withholds a part of the values.
-/
import CaseGateway.Query.Sorting
import CaseGateway.Text.Like

namespace CaseGateway

/-- A condition on rows with columns `χ`, those peculiar to the resource being `ε`. -/
inductive Condition (χ ε : Type)
  /-- The column is there and holds this text. -/
  | equals (column : χ) (text : String)
  /-- The column is there and holds one of these texts. -/
  | oneOf (column : χ) (texts : List String)
  /-- The column is there and matches this SQL pattern. -/
  | like (column : χ) (pattern : String)
  | special (e : ε)
  deriving DecidableEq

/-- A sort key over columns `χ`, those peculiar to the resource being `κ`. -/
inductive SortKey (χ κ : Type)
  | column (c : χ)
  | special (k : κ)
  deriving DecidableEq

/-- A call on a query. -/
inductive QueryCall (χ ε κ : Type)
  | condition (c : Condition χ ε)
  | orderBy (key : SortKey χ κ)
  | direction (order : SortOrder)
  /-- Byte arrays are not to be fetched. -/
  | disableBinaryFetching
  /-- Objects are not to be deserialized. -/
  | disableObjectDeserialization
  deriving DecidableEq

/-- A kind of row that can be queried: how it answers conditions and sort keys. -/
class Queryable (ρ : Type) (χ ε κ : outParam Type) where
  column : ρ → χ → Option String
  satisfies : ρ → ε → Bool
  compareBy : κ → ρ → ρ → Ordering
  /-- The row without the content of byte arrays. -/
  withoutBytes : ρ → ρ

/-- Texts by their bytes, a missing one before all others. -/
def compareColumns : Option String → Option String → Ordering
  | none, none => .eq
  | none, some _ => .lt
  | some _, none => .gt
  | some s, some t => compare s t

variable {ρ χ ε κ : Type} [Queryable ρ χ ε κ]

/-- Whether a row meets a condition. -/
def Condition.holds (row : ρ) : Condition χ ε → Bool
  | .equals c text => Queryable.column row c == some text
  | .oneOf c texts => (Queryable.column row c).any texts.contains
  | .like c pattern => (Queryable.column row c).any (CaseGateway.like pattern)
  | .special e => Queryable.satisfies row e

/-- The order of two rows under a sort key. -/
def SortKey.compare (key : SortKey χ κ) (a b : ρ) : Ordering :=
  match key with
  | .column c => compareColumns (Queryable.column a c) (Queryable.column b c)
  | .special k => Queryable.compareBy k a b

/-- The order of two rows under a sort key and a direction. -/
def SortKey.compareIn (key : SortKey χ κ) (order : SortOrder) (a b : ρ) : Ordering :=
  match order with
  | .asc => key.compare a b
  | .desc => (key.compare a b).swap

end CaseGateway
