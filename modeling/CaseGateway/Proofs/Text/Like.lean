/-
The matcher of SQL patterns matches what the patterns say.

`Matches` is what a pattern means: its characters take one piece of the value each, from
left to right, and nothing is left over.  The matcher never looks at pieces.  It keeps,
for the pattern read so far, which beginnings of the value that much of the pattern
matches, which is `RowOf`, and each further character turns one such row into the next.

The induction is therefore over the pattern from its end, and what it needs of the
meaning is how one more character at the end changes it: `matches_concat_iff`.

In the end the pieces are laid out side by side, one for each character of the pattern.
-/
import CaseGateway.Text.Like
import Mathlib.Data.List.Forall2

namespace CaseGateway.Like

/-! ### What patterns mean -/

/-- The pieces of a value that a pattern character can take. -/
inductive Fits : Char → List Char → Prop
  | run (piece : List Char) : Fits '%' piece
  | any (c : Char) : Fits '_' [c]
  | self {c : Char} (hc : c ≠ '%') : Fits c [c]

/-- The values that a pattern matches. -/
inductive Matches : List Char → List Char → Prop
  | nil : Matches [] []
  | cons {c : Char} {piece pattern value : List Char} (hc : Fits c piece)
    (rest : Matches pattern value) : Matches (c :: pattern) (piece ++ value)

/-- A character other than the percent sign takes exactly one, which is itself unless it is the
underscore. -/
theorem fits_iff {c : Char} (h : c ≠ '%') {piece : List Char} :
    Fits c piece ↔ ∃ x, piece = [x] ∧ (c = '_' ∨ c = x) := by
  constructor
  · intro hfits
    cases hfits with
    | run => exact absurd rfl h
    | any x => exact ⟨x, rfl, Or.inl rfl⟩
    | self hc => exact ⟨c, rfl, Or.inr rfl⟩
  · rintro ⟨x, rfl, rfl | rfl⟩
    · exact .any x
    · exact .self h

theorem Matches.append {p q v w : List Char} (hp : Matches p v) (hq : Matches q w) :
    Matches (p ++ q) (v ++ w) := by
  induction hp with
  | nil => exact hq
  | cons hc _ ih =>
      rw [List.cons_append, List.append_assoc]
      exact .cons hc ih

theorem Matches.split {p q v : List Char} (h : Matches (p ++ q) v) :
    ∃ v₁ v₂, v = v₁ ++ v₂ ∧ Matches p v₁ ∧ Matches q v₂ := by
  induction p generalizing v with
  | nil => exact ⟨[], v, rfl, .nil, h⟩
  | cons c p ih =>
      cases h with
      | @cons _ piece _ value hc rest =>
          obtain ⟨v₁, v₂, rfl, hp, hq⟩ := ih rest
          exact ⟨piece ++ v₁, v₂, (List.append_assoc ..).symm, .cons hc hp, hq⟩

theorem matches_singleton_iff {c : Char} {v : List Char} : Matches [c] v ↔ Fits c v := by
  constructor
  · intro h
    cases h with
    | cons hc rest =>
        cases rest
        rwa [List.append_nil]
  · intro h
    simpa using Matches.cons h .nil

/-- One more character at the end of a pattern takes a piece at the end of the value. -/
theorem matches_concat_iff {p v : List Char} {c : Char} :
    Matches (p ++ [c]) v ↔ ∃ v₁ v₂, v = v₁ ++ v₂ ∧ Matches p v₁ ∧ Fits c v₂ := by
  constructor
  · intro h
    obtain ⟨v₁, v₂, hv, hp, hc⟩ := h.split
    exact ⟨v₁, v₂, hv, hp, matches_singleton_iff.mp hc⟩
  · rintro ⟨v₁, v₂, rfl, hp, hc⟩
    exact hp.append (matches_singleton_iff.mpr hc)

/-- The pieces stand for the characters one by one, and together they are the whole value. -/
theorem matches_iff_pieces {pattern value : List Char} :
    Matches pattern value ↔
      ∃ pieces : List (List Char), pieces.flatten = value ∧ List.Forall₂ Fits pattern pieces := by
  constructor
  · intro h
    induction h with
    | nil => exact ⟨[], rfl, .nil⟩
    | @cons c piece _ _ hc _ ih =>
        obtain ⟨pieces, rfl, hpieces⟩ := ih
        exact ⟨piece :: pieces, rfl, .cons hc hpieces⟩
  · rintro ⟨pieces, rfl, hpieces⟩
    induction hpieces with
    | nil => exact .nil
    | cons hc _ ih => exact .cons hc ih

/-! ### Rows -/

/-- Entry `j` of a row says whether the pattern matches the first `j` characters of the value. -/
structure RowOf (pattern value : List Char) (row : List Bool) : Prop where
  length : row.length = value.length + 1
  entry : ∀ j, row[j]? = some true ↔ j ≤ value.length ∧ Matches pattern (value.take j)

theorem rowOf_firstRow (value : List Char) : RowOf [] value (firstRow value) where
  length := by simp [firstRow]
  entry j := by
    cases j with
    | zero => simpa [firstRow] using Matches.nil
    | succ j =>
        simp only [firstRow, List.getElem?_cons_succ, List.getElem?_map]
        constructor
        · intro h
          cases hj : value[j]? <;> simp [hj] at h
        · rintro ⟨hj, h⟩
          cases value with
          | nil => simp at hj
          | cons c value => cases h

theorem length_spread (seen : Bool) (row : List Bool) : (spread seen row).length = row.length := by
  induction row generalizing seen with
  | nil => rfl
  | cons b row ih => simp [spread, ih]

theorem getElem?_spread (seen : Bool) (row : List Bool) (j : Nat) :
    (spread seen row)[j]? = some true ↔
      j < row.length ∧ (seen = true ∨ ∃ i ≤ j, row[i]? = some true) := by
  induction row generalizing seen j with
  | nil => simp [spread]
  | cons b row ih =>
      cases j with
      | zero => simp [spread]
      | succ j =>
          rw [spread, List.getElem?_cons_succ, ih, List.length_cons, Nat.add_lt_add_iff_right,
            Bool.or_eq_true, or_assoc]
          refine and_congr_right fun _ => or_congr_right ⟨?_, ?_⟩
          · rintro (hb | ⟨i, hi, h⟩)
            · exact ⟨0, Nat.zero_le _, by simp [hb]⟩
            · exact ⟨i + 1, Nat.succ_le_succ hi, by simpa using h⟩
          · rintro ⟨i, hi, h⟩
            cases i with
            | zero => exact Or.inl (by simpa using h)
            | succ i => exact Or.inr ⟨i, Nat.le_of_succ_le_succ hi, by simpa using h⟩

/-- A percent sign lets every beginning pass that has a matching beginning. -/
theorem RowOf.spread {p value : List Char} {row : List Bool} (h : RowOf p value row) :
    RowOf (p ++ ['%']) value (spread false row) where
  length := by rw [length_spread, h.length]
  entry j := by
    rw [getElem?_spread, h.length, Nat.lt_succ_iff, matches_concat_iff]
    refine and_congr_right fun hj => ?_
    simp only [Bool.false_eq_true, false_or]
    constructor
    · rintro ⟨i, hi, hrow⟩
      have hbeginning : value.take i = (value.take j).take i := by
        rw [List.take_take, Nat.min_eq_left hi]
      refine ⟨value.take i, (value.take j).drop i, ?_, ((h.entry i).mp hrow).2, .run _⟩
      rw [hbeginning, List.take_append_drop]
    · rintro ⟨v₁, v₂, hv, hp, -⟩
      have hlen : v₁.length ≤ j := by
        have := congrArg List.length hv
        rw [List.length_take, List.length_append] at this
        omega
      refine ⟨v₁.length, hlen, (h.entry _).mpr ⟨Nat.le_trans hlen hj, ?_⟩⟩
      rwa [← Nat.min_eq_left hlen, ← List.take_take, hv, List.take_left]

/-- Any other character makes a beginning one longer. -/
theorem RowOf.shift {p value : List Char} {row : List Bool} (h : RowOf p value row) {c : Char}
    (hc : c ≠ '%') :
    RowOf (p ++ [c]) value
      (false :: List.zipWith (fun matched v => matched && (c == '_' || c == v)) row value) where
  length := by simp [h.length]
  entry j := by
    rw [matches_concat_iff]
    cases j with
    | zero =>
        simp only [List.getElem?_cons_zero, Option.some.injEq, Bool.false_eq_true, false_iff,
          not_and]
        rintro - ⟨v₁, v₂, hv, -, hfits⟩
        obtain ⟨x, rfl, -⟩ := (fits_iff hc).mp hfits
        simp at hv
    | succ j =>
        rw [List.getElem?_cons_succ, List.getElem?_zipWith]
        constructor
        · intro hentry
          cases hrow : row[j]? with
          | none => simp [hrow] at hentry
          | some matched =>
              cases hx : value[j]? with
              | none => simp [hrow, hx] at hentry
              | some x =>
                  simp only [hrow, hx, Option.some.injEq, Bool.and_eq_true, Bool.or_eq_true,
                    beq_iff_eq] at hentry
                  obtain ⟨hj, rfl⟩ := List.getElem?_eq_some_iff.mp hx
                  have hp := ((h.entry j).mp (by rw [hrow, hentry.1])).2
                  refine ⟨hj, value.take j, [value[j]], ?_, hp,
                    (fits_iff hc).mpr ⟨_, rfl, hentry.2⟩⟩
                  rw [List.take_append_getElem]
        · rintro ⟨hj, v₁, v₂, hv, hp, hfits⟩
          obtain ⟨x, rfl, hx⟩ := (fits_iff hc).mp hfits
          rw [List.take_succ_eq_append_getElem hj] at hv
          obtain ⟨rfl, hlast⟩ := List.append_inj' hv rfl
          have hrow : row[j]? = some true := (h.entry j).mpr ⟨Nat.le_of_lt hj, hp⟩
          rw [hrow, List.getElem?_eq_getElem hj, List.singleton_inj.mp hlast]
          simpa using hx

theorem RowOf.advance {p value : List Char} {row : List Bool} (h : RowOf p value row) (c : Char) :
    RowOf (p ++ [c]) value (advance value row c) := by
  unfold Like.advance
  split
  · rename_i hc
    rw [hc]
    exact h.spread
  · rename_i hc
    exact h.shift hc

theorem RowOf.foldl_advance {value : List Char} (q : List Char) :
    ∀ {p : List Char} {row : List Bool}, RowOf p value row →
      RowOf (p ++ q) value (q.foldl (Like.advance value) row) := by
  induction q with
  | nil => intro p row h; simpa using h
  | cons c q ih =>
      intro p row h
      simpa using ih (h.advance c)

/-- The last entry is about the whole value. -/
theorem matchesChars_iff {pattern value : List Char} :
    matchesChars pattern value = true ↔ Matches pattern value := by
  have h := (rowOf_firstRow value).foldl_advance pattern
  rw [List.nil_append] at h
  have hlast := h.entry value.length
  rw [List.take_length] at hlast
  unfold matchesChars
  rw [List.getLastD_eq_getLast?, List.getLast?_eq_getElem?, h.length, Nat.add_sub_cancel]
  rw [iff_true_intro (Nat.le_refl value.length), true_and] at hlast
  rw [← hlast]
  cases (pattern.foldl (Like.advance value) (firstRow value))[value.length]? <;> simp

end CaseGateway.Like

namespace CaseGateway

theorem like_iff {pattern text : String} :
    like pattern text = true ↔ Like.Matches pattern.toList text.toList :=
  Like.matchesChars_iff

instance (pattern value : List Char) : Decidable (Like.Matches pattern value) :=
  decidable_of_iff _ Like.matchesChars_iff

/-- **A text is like a pattern if it can be cut into pieces for the pattern's characters.**

There is one piece for each character, in order, and nothing is left over.  The piece of a percent
sign is any run of characters, that of an underscore is any one character, and every other
character has itself for its piece. -/
theorem like_iff_pieces (pattern text : String) :
    like pattern text = true ↔
      ∃ pieces : List (List Char), pieces.flatten = text.toList ∧
        List.Forall₂ Like.Fits pattern.toList pieces := by
  rw [like_iff, Like.matches_iff_pieces]

/-- A percent sign may stand for nothing, and an underscore may not. -/
example : like "%b_%" "bä" = true ∧ like "%b_%" "äb" = false := by decide +kernel

end CaseGateway
