/-
The order of timestamps.

Timestamps are compared by their numbers from the year on: the first number that differs
decides.  `NotAfter` says that of two lists of numbers, with nothing said of calendars,
and the comparison is it in both directions.  Different timestamps are never equal in it.
-/
import CaseGateway.Timestamp.Basic

namespace CaseGateway.Timestamp

/-- The numbers of a timestamp in the order in which they count. -/
def numbers (t : Timestamp) : List Int :=
  [t.year, t.month, t.day, t.hour, t.minute, t.second, t.nanosecond]

/-- Equal, or smaller at the first place where there is a difference. -/
def AtMost : List Int → List Int → Prop
  | [], _ => True
  | _ :: _, [] => False
  | m :: ms, n :: ns => m < n ∨ m = n ∧ AtMost ms ns

instance decidableAtMost : (ms ns : List Int) → Decidable (AtMost ms ns)
  | [], _ => isTrue trivial
  | _ :: _, [] => isFalse id
  | m :: ms, n :: ns =>
    have := decidableAtMost ms ns
    inferInstanceAs (Decidable (m < n ∨ m = n ∧ AtMost ms ns))

/-- Whether a time is no later than another one, which may be itself. -/
def NotAfter (s t : Timestamp) : Prop := AtMost s.numbers t.numbers

instance (s t : Timestamp) : Decidable (s.NotAfter t) :=
  inferInstanceAs (Decidable (AtMost s.numbers t.numbers))

theorem isLE_compare_iff (s t : Timestamp) : (compare s t).isLE = true ↔ s.NotAfter t := by
  show (Ordering.then _ _).isLE = true ↔ AtMost s.numbers t.numbers
  simp only [numbers, AtMost, Ordering.isLE_then_iff_or, Int.compare_eq_lt, Int.compare_eq_eq,
    Nat.compare_eq_lt, Nat.compare_eq_eq, Nat.isLE_compare, Int.ofNat_lt, Int.ofNat_inj, and_true,
    Nat.le_iff_lt_or_eq]

theorem compare_swap (s t : Timestamp) : (compare s t).swap = compare t s := by
  show (Ordering.then _ _).swap = Ordering.then _ _
  simp only [Ordering.swap_then, Int.compare_swap, Nat.compare_swap]

theorem isGE_compare_iff (s t : Timestamp) : (compare s t).isGE = true ↔ t.NotAfter s := by
  rw [← isLE_compare_iff, ← compare_swap s t, Ordering.isLE_swap]

instance : Std.TransOrd Timestamp :=
  inferInstanceAs (Std.TransCmp (compareLex (compareOn year) <|
    compareLex (compareOn month) <| compareLex (compareOn day) <| compareLex (compareOn hour) <|
      compareLex (compareOn minute) <| compareLex (compareOn second) (compareOn nanosecond)))

instance : Std.LawfulEqOrd Timestamp where
  compare_self := Std.ReflOrd.compare_self
  eq_of_compare {s t} h := by
    change Ordering.then _ _ = .eq at h
    simp only [Ordering.then_eq_eq, Int.compare_eq_eq, Nat.compare_eq_eq] at h
    obtain ⟨hyear, hmonth, hday, hhour, hminute, hsecond, hnanosecond⟩ := h
    cases s
    cases t
    simp_all

theorem compare_eq_lt_iff (s t : Timestamp) : compare s t = .lt ↔ s.NotAfter t ∧ s ≠ t := by
  rw [← isLE_compare_iff, Ordering.isLE_iff_eq_lt_or_eq_eq, Std.LawfulEqOrd.compare_eq_iff_eq]
  constructor
  · intro h
    refine ⟨.inl h, fun heq => ?_⟩
    rw [heq, Std.ReflOrd.compare_self] at h
    cases h
  · rintro ⟨h | h, hne⟩
    · exact h
    · exact absurd h hne

end CaseGateway.Timestamp
