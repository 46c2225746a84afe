/-
The order in which a query yields its rows.

A sort key finds a value in a row, and `Below` is the order of these values.  `Precedes` is
what a sequence of orderings says of two rows, and `Arranged` says of a list that it is
sorted in this sense and has kept the order of rows that nothing tells apart.  There is
only one such list.  Neither speaks of comparators or of a way of sorting; those are left
behind in `arranged_mergeSort`.

The calls of a query may come in any order as long as each sort key is given its direction
before the next one is named.  Conditions and orderings are gathered apart from each other,
so each can be read off the calls of its kind.
-/
import CaseGateway.Proofs.Store.Selection
import CaseGateway.Proofs.Text.Utf8
import CaseGateway.Proofs.Timestamp.Order
import Mathlib.Data.List.Permutation

namespace CaseGateway

/-! ### What sort keys find -/

/-- The value that a sort key finds in a row. -/
inductive SortValue
  | absent
  | text (s : String)
  | time (t : Timestamp)
  deriving DecidableEq

namespace SortValue

/-- What is absent is below all else, texts are in the order of their bytes, and times in that of
their numbers.  No key finds texts in some rows and times in others. -/
inductive Below : SortValue → SortValue → Prop
  | absentText (s : String) : Below .absent (.text s)
  | absentTime (t : Timestamp) : Below .absent (.time t)
  | text {s t : String} (h : Text.BytesBelow (Text.toUtf8 s) (Text.toUtf8 t)) :
    Below (.text s) (.text t)
  | time {t u : Timestamp} (h : t.NotAfter u) (hne : t ≠ u) : Below (.time t) (.time u)
  | textTime (s : String) (t : Timestamp) : Below (.text s) (.time t)

/-- The place of the kind of a value among the kinds. -/
def kind : SortValue → Nat
  | .absent => 0
  | .text _ => 1
  | .time _ => 2

/-- The text that a value is. -/
def text? : SortValue → Option String
  | .text s => some s
  | _ => none

/-- The time that a value is. -/
def time? : SortValue → Option Timestamp
  | .time t => some t
  | _ => none

/-- Values are compared by their kinds first. -/
instance : Ord SortValue where
  compare := compareLex (compareOn kind) (compareLex (compareOn text?) (compareOn time?))

instance : Std.TransOrd SortValue :=
  inferInstanceAs (Std.TransCmp (compareLex (compareOn kind) <|
    compareLex (compareOn text?) (compareOn time?)))

@[simp] theorem compare_text (s t : String) : compare (text s) (text t) = compare s t := by
  show (compare s t).then .eq = _
  cases compare s t <;> rfl

@[simp] theorem compare_time (t u : Timestamp) : compare (time t) (time u) = compare t u := rfl

instance : Std.LawfulEqOrd SortValue where
  compare_self := Std.ReflOrd.compare_self
  eq_of_compare {v w} h := by
    cases v <;> cases w <;> first | rfl | cases h | skip
    · rw [compare_text] at h
      rw [Std.LawfulEqOrd.eq_of_compare h]
    · rw [compare_time] at h
      rw [Std.LawfulEqOrd.eq_of_compare h]

theorem compare_eq_lt_iff {v w : SortValue} : compare v w = .lt ↔ v.Below w := by
  constructor
  · intro h
    cases v with
    | absent =>
        cases w with
        | absent => cases h
        | text s => exact .absentText s
        | time t => exact .absentTime t
    | text s =>
        cases w with
        | absent => cases h
        | text t => exact .text (Text.compare_eq_lt_iff.mp (compare_text s t ▸ h))
        | time t => exact .textTime s t
    | time t =>
        cases w with
        | absent | text s => cases h
        | time u =>
            obtain ⟨h, hne⟩ := (Timestamp.compare_eq_lt_iff t u).mp h
            exact .time h hne
  · intro h
    cases h with
    | absentText _ | absentTime _ | textTime _ _ => rfl
    | text h => exact (compare_text _ _).trans (Text.compare_eq_lt_iff.mpr h)
    | time h hne => exact (Timestamp.compare_eq_lt_iff _ _).mpr ⟨h, hne⟩

end SortValue

/-! ### The fields of rows -/

/-- What sorting and the fetching of byte arrays have to do with the fields of a row. -/
class RowFields (ρ : Type) {χ ε κ : outParam Type} [Queryable ρ χ ε κ] where
  /-- What a key peculiar to the resource finds. -/
  found : κ → ρ → SortValue
  /-- The row with another value, if it has one. -/
  mapValue : (TypedValue → TypedValue) → ρ → ρ
  compareBy_eq : ∀ (k : κ) (a b : ρ),
    Queryable.compareBy k a b = compare (found k a) (found k b)
  withoutBytes_eq : ∀ row : ρ, Queryable.withoutBytes row = mapValue TypedValue.withoutBytes row

instance : RowFields VariableInstance where
  found | .variableType, v => .text v.value.type.tag
  mapValue f v := { v with value := f v.value }
  compareBy_eq k v w := by
    cases k
    exact (SortValue.compare_text _ _).symm
  withoutBytes_eq _ := rfl

instance : RowFields HistoricVariable where
  found k _ := k.elim
  mapValue f v := { v with value := f v.value }
  compareBy_eq k _ _ := k.elim
  withoutBytes_eq _ := rfl

instance : RowFields IdentityLink where
  found | .time, l => .time l.time
  mapValue _ l := l
  compareBy_eq k l m := by
    cases k
    exact (SortValue.compare_time _ _).symm
  withoutBytes_eq _ := rfl

instance : RowFields CleanableReport where
  found k _ := k.elim
  mapValue _ r := r
  compareBy_eq k _ _ := k.elim
  withoutBytes_eq _ := rfl

section Queryable

variable {ρ χ ε κ : Type} [Queryable ρ χ ε κ]

/-! ### Calls in any order -/

namespace QueryCall

/-- Whether a call is about the order of the rows. -/
def isOrdering : QueryCall χ ε κ → Bool
  | .orderBy _ | .direction _ => true
  | _ => false

/-- Whether a call leaves byte arrays alone. -/
def fetchesBytes : QueryCall χ ε κ → Bool
  | .disableBinaryFetching => false
  | _ => true

/-- The condition of a call. -/
def condition? : QueryCall χ ε κ → Option (Condition χ ε)
  | .condition c => some c
  | _ => none

instance (row : ρ) : (call : QueryCall χ ε κ) → Decidable (call.Admits row)
  | .condition c => inferInstanceAs (Decidable (c.holds row = true))
  | .orderBy _ | .direction _ | .disableBinaryFetching | .disableObjectDeserialization =>
    isTrue trivial

variable {calls : List (QueryCall χ ε κ)}

theorem mem_filterMap_condition {c : Condition χ ε} :
    c ∈ calls.filterMap condition? ↔ .condition c ∈ calls := by
  rw [List.mem_filterMap]
  constructor
  · rintro ⟨call, hcall, hc⟩
    cases call <;> cases hc
    exact hcall
  · intro h
    exact ⟨_, h, rfl⟩

theorem admits_iff {row : ρ} :
    (∀ call ∈ calls, call.Admits row) ↔ ∀ c, .condition c ∈ calls → c.holds row = true := by
  constructor
  · intro h c hc
    exact h _ hc
  · intro h call hcall
    cases call with
    | condition c => exact h c hcall
    | _ => trivial

end QueryCall

namespace Selection

/-- Calls about the order can be made last. -/
theorem foldl_call_eq (calls : List (QueryCall χ ε κ)) :
    ∀ s : Selection χ ε κ, calls.foldl call s = (calls.filter QueryCall.isOrdering).foldl call
      { s with
        conditions := s.conditions ++ calls.filterMap QueryCall.condition?
        binaryFetching := s.binaryFetching && calls.all QueryCall.fetchesBytes } := by
  induction calls with
  | nil => intro s; simp
  | cons call calls ih =>
      intro s
      rw [List.foldl_cons, ih]
      cases call with
      | condition c | disableBinaryFetching | disableObjectDeserialization =>
          simp [Selection.call, QueryCall.isOrdering, QueryCall.condition?, QueryCall.fetchesBytes,
            List.filterMap_cons]
      | orderBy key => rfl
      | direction order =>
          obtain ⟨conditions, orderings, pending, misuse, binaryFetching⟩ := s
          cases pending <;> rfl

theorem ofCalls_eq {calls : List (QueryCall χ ε κ)} {os : List (SortKey χ κ × SortOrder)}
    (h : calls.filter QueryCall.isOrdering = os.flatMap orderingCalls) :
    ofCalls calls = ⟨calls.filterMap QueryCall.condition?, os, none, none,
      calls.all QueryCall.fetchesBytes⟩ := by
  unfold ofCalls
  rw [foldl_call_eq, h, foldl_orderings]
  · simp [all]
  · rfl

end Selection

/-- If every sort key is given its direction, the query is run on the rows that are selected. -/
theorem Store.query_ofCalls {α : Type} {calls : List (QueryCall χ ε κ)}
    {os : List (SortKey χ κ × SortOrder)}
    (hos : calls.filter QueryCall.isOrdering = os.flatMap Selection.orderingCalls)
    (stored : List ρ) (execution : Execution ρ α) :
    Store.query stored calls execution
      = execution.result ((Selection.ofCalls calls).rows stored) := by
  unfold Store.query
  rw [Selection.ofCalls_eq hos]
  rfl

/-! ### The order of rows -/

variable [RowFields ρ]

/-- What a sort key finds in a row. -/
def SortKey.value (row : ρ) : SortKey χ κ → SortValue
  | .column c => (Queryable.column row c).elim .absent .text
  | .special k => RowFields.found k row

theorem SortKey.compare_eq (key : SortKey χ κ) (a b : ρ) :
    key.compare a b = Ord.compare (key.value a) (key.value b) := by
  cases key with
  | special k => exact RowFields.compareBy_eq k a b
  | column c =>
      simp only [compare, value]
      cases Queryable.column a c with
      | none => cases Queryable.column b c <;> rfl
      | some s =>
          cases Queryable.column b c with
          | none => rfl
          | some t => exact (SortValue.compare_text s t).symm

/-- Of two rows the first one comes first: by the first ordering, or else by the others if the key
of the first finds the same in both rows. -/
inductive Precedes : List (SortKey χ κ × SortOrder) → ρ → ρ → Prop
  | asc {key : SortKey χ κ} {a b : ρ} (os : List (SortKey χ κ × SortOrder))
    (h : (key.value a).Below (key.value b)) : Precedes ((key, .asc) :: os) a b
  | desc {key : SortKey χ κ} {a b : ρ} (os : List (SortKey χ κ × SortOrder))
    (h : (key.value b).Below (key.value a)) : Precedes ((key, .desc) :: os) a b
  | tied {key : SortKey χ κ} {order : SortOrder} {os : List (SortKey χ κ × SortOrder)} {a b : ρ}
    (h : key.value a = key.value b) (hrest : Precedes os a b) : Precedes ((key, order) :: os) a b

/-- The keys find the same in both rows. -/
def Tied (os : List (SortKey χ κ × SortOrder)) (a b : ρ) : Prop :=
  ∀ o ∈ os, o.1.value a = o.1.value b

theorem Tied.refl (os : List (SortKey χ κ × SortOrder)) (a : ρ) : Tied os a a := fun _ _ => rfl

instance (os : List (SortKey χ κ × SortOrder)) (a b : ρ) : Decidable (Tied os a b) :=
  inferInstanceAs (Decidable (∀ o ∈ os, _ = _))

/-- The rows are in the order of their keys, and rows that no key tells apart are in the order in
which they were. -/
structure Arranged (os : List (SortKey χ κ × SortOrder)) (rows arranged : List ρ) : Prop where
  perm : arranged.Perm rows
  ordered : arranged.Pairwise fun a b => Precedes os a b ∨ Tied os a b
  stable : ∀ row, (arranged.filter fun other => Tied os row other)
    = rows.filter fun other => Tied os row other

namespace Selection

variable {os : List (SortKey χ κ × SortOrder)} {a b : ρ}

instance (key : SortKey χ κ) (order : SortOrder) :
    Std.TransCmp fun a b : ρ => key.compareIn order a b := by
  have hkey : Std.TransCmp fun a b : ρ => key.compare a b := by
    simp only [key.compare_eq]
    exact inferInstanceAs (Std.TransCmp (compareOn fun row : ρ => key.value row))
  cases order with
  | asc => exact hkey
  | desc =>
      have hswap : (fun a b : ρ => key.compareIn .desc a b) = fun a b => key.compare b a :=
        funext₂ fun _ _ => hkey.eq_swap.symm
      rw [hswap]
      exact .opposite

instance (os : List (SortKey χ κ × SortOrder)) :
    Std.TransCmp fun a b : ρ => compareRows os a b := by
  induction os with
  | nil => exact inferInstanceAs (Std.TransCmp (compareOn fun _ : ρ => ()))
  | cons o os ih =>
      exact inferInstanceAs (Std.TransCmp (compareLex (fun a b : ρ => o.1.compareIn o.2 a b)
        fun a b => compareRows os a b))

theorem compareIn_eq_eq_iff {key : SortKey χ κ} {order : SortOrder} :
    key.compareIn order a b = .eq ↔ key.value a = key.value b := by
  cases order with
  | asc => rw [SortKey.compareIn, key.compare_eq, Std.LawfulEqOrd.compare_eq_iff_eq]
  | desc =>
      rw [SortKey.compareIn, key.compare_eq, Ordering.swap_eq_eq, Std.LawfulEqOrd.compare_eq_iff_eq]

theorem compareRows_eq_eq_iff : compareRows os a b = .eq ↔ Tied os a b := by
  induction os with
  | nil => simp [compareRows, Tied]
  | cons o os ih =>
      show Ordering.then _ (compareRows os a b) = .eq ↔ _
      rw [Ordering.then_eq_eq, compareIn_eq_eq_iff, ih]
      simp only [Tied, List.forall_mem_cons]

theorem compareIn_asc_eq_lt_iff {key : SortKey χ κ} :
    key.compareIn .asc a b = .lt ↔ (key.value a).Below (key.value b) := by
  rw [SortKey.compareIn, key.compare_eq, SortValue.compare_eq_lt_iff]

theorem compareIn_desc_eq_lt_iff {key : SortKey χ κ} :
    key.compareIn .desc a b = .lt ↔ (key.value b).Below (key.value a) := by
  rw [SortKey.compareIn, key.compare_eq, Ordering.swap_eq_lt, Std.OrientedCmp.gt_iff_lt,
    SortValue.compare_eq_lt_iff]

theorem compareRows_eq_lt_iff : compareRows os a b = .lt ↔ Precedes os a b := by
  induction os with
  | nil =>
      constructor
      · intro h
        cases h
      · intro h
        cases h
  | cons o os ih =>
      obtain ⟨key, order⟩ := o
      show Ordering.then (key.compareIn order a b) (compareRows os a b) = .lt ↔ _
      rw [Ordering.then_eq_lt, compareIn_eq_eq_iff, ih]
      constructor
      · rintro (h | ⟨h, hrest⟩)
        · cases order with
          | asc => exact .asc os (compareIn_asc_eq_lt_iff.mp h)
          | desc => exact .desc os (compareIn_desc_eq_lt_iff.mp h)
        · exact .tied h hrest
      · intro h
        cases h with
        | asc _ h => exact .inl (compareIn_asc_eq_lt_iff.mpr h)
        | desc _ h => exact .inl (compareIn_desc_eq_lt_iff.mpr h)
        | tied h hrest => exact .inr ⟨h, hrest⟩

/-- A row that comes before another one has no place behind it. -/
theorem not_behind_of_precedes (h : Precedes os a b) : ¬(Precedes os b a ∨ Tied os b a) := by
  have horiented : Std.OrientedCmp fun a b : ρ => compareRows os a b := inferInstance
  have hlt : compareRows os a b = .lt := compareRows_eq_lt_iff.mpr h
  rw [horiented.eq_swap, Ordering.swap_eq_lt] at hlt
  rw [← compareRows_eq_lt_iff, ← compareRows_eq_eq_iff, hlt]
  simp

/-- Sorting arranges the rows. -/
theorem arranged_mergeSort (os : List (SortKey χ κ × SortOrder)) (rows : List ρ) :
    Arranged os rows (rows.mergeSort fun a b => (compareRows os a b).isLE) := by
  have htrans : ∀ a b c : ρ, (compareRows os a b).isLE → (compareRows os b c).isLE →
      (compareRows os a c).isLE := fun _ _ _ hab hbc => Std.TransCmp.isLE_trans hab hbc
  have htotal : ∀ a b : ρ, ((compareRows os a b).isLE || (compareRows os b a).isLE) := by
    intro a b
    have horiented : Std.OrientedCmp fun a b : ρ => compareRows os a b := inferInstance
    rw [horiented.eq_swap (a := b)]
    cases compareRows os a b <;> rfl
  have hperm := List.mergeSort_perm rows fun a b => (compareRows os a b).isLE
  refine ⟨hperm, ?_, fun row => ?_⟩
  · refine (List.pairwise_mergeSort htrans htotal rows).imp fun h => ?_
    rw [Ordering.isLE_iff_eq_lt_or_eq_eq, compareRows_eq_lt_iff, compareRows_eq_eq_iff] at h
    exact h
  · -- Rows that are tied are sorted already, and sorting leaves what is sorted in its order.
    have hties : (rows.filter fun other => Tied os row other).Pairwise
        fun a b => (compareRows os a b).isLE := by
      refine List.pairwise_of_forall_mem_list fun a ha b hb => ?_
      have ha : Tied os row a := of_decide_eq_true (List.mem_filter.mp ha).2
      have hb : Tied os row b := of_decide_eq_true (List.mem_filter.mp hb).2
      have hab : compareRows os a b = .eq :=
        compareRows_eq_eq_iff.mpr fun o ho => (ha o ho).symm.trans (hb o ho)
      rw [hab]
      rfl
    have hsub := (List.sublist_mergeSort htrans htotal hties List.filter_sublist).filter
      fun other => decide (Tied os row other)
    rw [List.filter_filter] at hsub
    simp only [Bool.and_self] at hsub
    exact (hsub.eq_of_length (hperm.filter _).length_eq.symm).symm

end Selection

/-- Lists in the same order are equal if they hold the same rows, and tied rows in the same order. -/
theorem eq_of_ordered {os : List (SortKey χ κ × SortOrder)} {l l' : List ρ} (hperm : l.Perm l')
    (hl : l.Pairwise fun a b => Precedes os a b ∨ Tied os a b)
    (hl' : l'.Pairwise fun a b => Precedes os a b ∨ Tied os a b)
    (hstable : ∀ row, (l.filter fun other => Tied os row other)
      = l'.filter fun other => Tied os row other) : l = l' := by
  induction l generalizing l' with
  | nil => exact (List.nil_perm.mp hperm).symm
  | cons a l ih =>
      cases l' with
      | nil => cases List.perm_nil.mp hperm
      | cons b l' =>
          obtain ⟨ha, htail⟩ := List.pairwise_cons.mp hl
          obtain ⟨hb, htail'⟩ := List.pairwise_cons.mp hl'
          have htied : Tied os a b := by
            obtain rfl | hmem := List.mem_cons.mp (hperm.mem_iff.mpr List.mem_cons_self)
            · exact .refl os _
            obtain hab | htied := ha b hmem
            · refine absurd ?_ (Selection.not_behind_of_precedes hab)
              obtain rfl | hmem := List.mem_cons.mp (hperm.mem_iff.mp List.mem_cons_self)
              · exact .inr (.refl os _)
              · exact hb a hmem
            · exact htied
          have hhead := hstable a
          simp only [List.filter_cons, Tied.refl, htied, decide_true, if_true] at hhead
          obtain rfl : a = b := (List.cons.inj hhead).1
          refine congrArg (a :: ·) (ih hperm.cons_inv htail htail' fun row => ?_)
          have hrow := hstable row
          by_cases hrowtied : Tied os row a
          · simpa [List.filter_cons, hrowtied] using hrow
          · simpa [List.filter_cons, hrowtied] using hrow

/-- Rows can be arranged in one way only. -/
theorem Arranged.unique {os : List (SortKey χ κ × SortOrder)} {rows l l' : List ρ}
    (h : Arranged os rows l) (h' : Arranged os rows l') : l = l' :=
  eq_of_ordered (h.perm.trans h'.perm.symm) h.ordered h'.ordered fun row =>
    (h.stable row).trans (h'.stable row).symm

/-- The rows that some calls select, if every sort key is given its direction. -/
theorem Selection.rows_ofCalls {calls : List (QueryCall χ ε κ)}
    {os : List (SortKey χ κ × SortOrder)}
    (hos : calls.filter QueryCall.isOrdering = os.flatMap orderingCalls) (stored : List ρ) :
    (ofCalls calls).rows stored =
      let sorted := (stored.filter fun row => ∀ call ∈ calls, call.Admits row).mergeSort
        fun a b => (compareRows os a b).isLE
      if calls.all QueryCall.fetchesBytes then sorted
      else sorted.map (RowFields.mapValue TypedValue.withoutBytes) := by
  have hmatching : (stored.filter fun row =>
      (calls.filterMap QueryCall.condition?).all fun c => c.holds row)
        = stored.filter fun row => ∀ call ∈ calls, call.Admits row := by
    refine List.filter_congr fun row _ => ?_
    rw [Bool.eq_iff_iff, List.all_eq_true, decide_eq_true_iff, QueryCall.admits_iff]
    simp only [QueryCall.mem_filterMap_condition]
  rw [ofCalls_eq hos, rows, hmatching]
  simp only [funext RowFields.withoutBytes_eq]

end Queryable

end CaseGateway
