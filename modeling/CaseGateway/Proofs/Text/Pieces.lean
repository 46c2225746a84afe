/-
Texts put together with a separator, cut apart again.

Cutting at a character is what the library calls splitting a list on it, so its lemmas
apply.  Only the join of no texts at all has to be looked at by itself: it is the empty
text, which has one piece.
-/
import CaseGateway.Query.Parameter
import CaseGateway.Query.Wording

namespace CaseGateway

namespace Text

variable {α : Type} [DecidableEq α]

theorem pieces_eq_splitOn (sep : α) (cs : List α) : pieces sep cs = cs.splitOn sep := by
  induction cs with
  | nil => rfl
  | cons c cs ih =>
      rw [List.splitOn_cons_eq_if_modifyHead]
      unfold pieces
      by_cases h : c = sep
      · simp [h, ih]
      · have hne := pieces_ne_nil sep cs
        rw [if_neg h, if_neg (by simpa using h), ← ih]
        cases hp : pieces sep cs with
        | nil => exact absurd hp hne
        | cons p ps => rfl

/-- Texts without the separator come back from their join. -/
theorem split_intercalate {sep : Char} {texts : List String} (h : ∀ t ∈ texts, sep ∉ t.toList)
    (hne : texts ≠ []) : split sep ((String.singleton sep).intercalate texts) = texts := by
  unfold split
  rw [pieces_eq_splitOn, String.toList_intercalate, String.toList_singleton,
    List.splitOn_intercalate sep (by simpa using h) (by simpa using hne), List.map_map]
  simp

/-- A text is the join of what it is cut into. -/
theorem intercalate_split (sep : Char) (s : String) :
    (String.singleton sep).intercalate (split sep s) = s := by
  have hpieces : (split sep s).map String.toList = s.toList.splitOn sep := by
    rw [split, pieces_eq_splitOn, List.map_map]
    exact (List.map_congr_left fun cs _ => String.toList_ofList).trans (List.map_id _)
  rw [← String.toList_inj, String.toList_intercalate, String.toList_singleton, hpieces,
    List.intercalate_splitOn]

theorem not_mem_of_mem_pieces {sep : α} {cs p : List α} (h : p ∈ pieces sep cs) : sep ∉ p := by
  induction cs generalizing p with
  | nil =>
      rw [List.mem_singleton.mp h]
      exact List.not_mem_nil
  | cons c cs ih =>
      unfold pieces at h
      by_cases hc : c = sep
      · rw [if_pos hc] at h
        rcases List.mem_cons.mp h with rfl | h
        · exact List.not_mem_nil
        · exact ih h
      · rw [if_neg hc] at h
        cases hp : pieces sep cs with
        | nil => exact absurd hp (pieces_ne_nil sep cs)
        | cons q qs =>
            rw [hp] at h ih
            rcases List.mem_cons.mp h with rfl | h
            · exact List.not_mem_cons_of_ne_of_not_mem (Ne.symm hc) (ih List.mem_cons_self)
            · exact ih (List.mem_cons_of_mem q h)

/-- What a text is cut into is free of the separator. -/
theorem not_mem_of_mem_split {sep : Char} {s t : String} (h : t ∈ split sep s) :
    sep ∉ t.toList := by
  obtain ⟨cs, hcs, rfl⟩ := List.mem_map.mp h
  rw [String.toList_ofList]
  exact not_mem_of_mem_pieces hcs

end Text

/-- The items of a list of texts with commas between them are the texts that are not empty. -/
theorem Parameter.splitItems_commaJoined {texts : List String} (h : ∀ t ∈ texts, ',' ∉ t.toList) :
    splitItems (commaJoined texts) = texts.filter (!·.isEmpty) := by
  cases texts with
  | nil => decide +kernel
  | cons t ts =>
      have hsplit : Text.split ',' (commaJoined (t :: ts)) = t :: ts :=
        Text.split_intercalate h (List.cons_ne_nil t ts)
      unfold splitItems
      rw [hsplit]

end CaseGateway
