/-
What parameters mean.

A filter asks for one of four things: a text, a list of texts, a truth value or a time.  What a
parameter stands for in each of these ways is a relation here, with a case for every form in which it
can be given, and the same goes for the texts that a value is found by.

The readers of parameters are then shown to find what the relations allow and nothing else.  Only
the proofs about filters go through the readers; what is stated of rows is stated by way of the
relations.
-/
import CaseGateway.Proofs.Number.Text
import CaseGateway.Proofs.Outcome
import CaseGateway.Proofs.Text.Pieces
import CaseGateway.Resource.HistoricVariable

namespace CaseGateway

namespace Parameter

/-! ### Single parameters -/

/-- A parameter spells a text: it is given as that text, or as a scalar document of it. -/
inductive Spells : Parameter → String → Prop
  | text (s : String) : Spells (.text s) s
  | string (s : String) : Spells (.json (.string s)) s
  | integer (n : Int) (inRange : -0x8000000000000000 ≤ n ∧ n < 0x10000000000000000) :
    Spells (.json (.number (.integer n inRange))) (toString n)
  | double (d : Double) (finite : d.isFinite) :
    Spells (.json (.number (.double d finite))) (Number.double d finite).text
  | yes : Spells (.json (.bool true)) "true"
  | no : Spells (.json (.bool false)) "false"

/-- A parameter lists texts: those that are joined with commas in what it spells, or those that the
items of an array spell.  Empty texts are not listed. -/
inductive Lists : Parameter → List String → Prop
  | joined {p : Parameter} {texts : List String} (spelled : p.Spells (",".intercalate texts))
    (apart : ∀ t ∈ texts, ',' ∉ t.toList) : Lists p (texts.filter (· ≠ ""))
  | items {items : List Json} {texts : List String}
    (spelled : List.Forall₂ (fun item t => Spells (.json item) t) items texts) :
    Lists (.json (.array items)) (texts.filter (· ≠ ""))

variable {p : Parameter} {s : String}

theorem spells_iff : p.Spells s ↔ p.toText? = some s := by
  constructor
  · intro h
    cases h with
    | integer n inRange => exact congrArg some (textOfInteger_eq_toString n)
    | text | string | double | yes | no => rfl
  · intro h
    cases p with
    | text t =>
        obtain rfl := Option.some.inj h
        exact .text t
    | json j =>
        cases j with
        | string t =>
            obtain rfl := Option.some.inj h
            exact .string t
        | number n =>
            obtain rfl := Option.some.inj h
            cases n with
            | integer n inRange =>
                have hspelled := Spells.integer n inRange
                rwa [← textOfInteger_eq_toString] at hspelled
            | double d finite => exact .double d finite
        | bool b =>
            obtain rfl := Option.some.inj h
            cases b
            · exact .no
            · exact .yes
        | null | array items | object members => cases h

/-- A truth value is true if it is spelled so. -/
theorem spells_true_iff : p.Spells "true" ↔ p.toBool? = some true := by
  rw [spells_iff, toBool?]
  constructor
  · intro h
    rw [h]
    rfl
  · intro h
    split at h
    · assumption
    · cases h
    · cases h

theorem toTimestamp?_eq_some_iff {t : Timestamp} :
    p.toTimestamp? = some t ↔ ∃ s, p.Spells s ∧ Timestamp.parse? s = some t := by
  rw [toTimestamp?, Option.bind_eq_some_iff]
  exact exists_congr fun s => and_congr_left fun _ => spells_iff.symm

theorem filter_nonempty (texts : List String) :
    texts.filter (!·.isEmpty) = texts.filter (· ≠ "") := by
  refine List.filter_congr fun t _ => ?_
  rw [Bool.eq_iff_iff]
  simp

theorem toList?_of_spells (h : p.Spells s) : p.toList? = some (splitItems s) := by
  have htext := spells_iff.mp h
  cases h with
  | text | string | integer | double | yes | no => exact congrArg (Option.map splitItems) htext

theorem lists_iff {texts : List String} : p.Lists texts ↔ p.toList? = some texts := by
  constructor
  · intro h
    cases h with
    | joined spelled apart =>
        rw [toList?_of_spells spelled, ← filter_nonempty]
        exact congrArg some (splitItems_commaJoined apart)
    | items spelled =>
        have hread := mapM_eq_some.mpr (spelled.imp fun item t h => spells_iff.mp h)
        rw [← filter_nonempty]
        exact congrArg (Option.map _) hread
  · intro h
    by_cases harray : ∃ items, p = .json (.array items)
    · obtain ⟨items, rfl⟩ := harray
      obtain ⟨all, hread, rfl⟩ := Option.map_eq_some_iff.mp h
      rw [filter_nonempty]
      exact .items ((mapM_eq_some.mp hread).imp fun item t h => spells_iff.mpr h)
    · -- What is no array is a list only by way of its text.
      have hview : p.toList? = p.toText?.map splitItems := by
        unfold toList?
        split
        · rename_i items
          exact absurd ⟨items, rfl⟩ harray
        · rfl
      obtain ⟨s, hs, rfl⟩ := Option.map_eq_some_iff.mp (hview.symm.trans h)
      rw [splitItems, filter_nonempty]
      refine .joined ?_ fun t ht => Text.not_mem_of_mem_split ht
      rw [show ",".intercalate (Text.split ',' s) = s from Text.intercalate_split ',' s]
      exact spells_iff.mpr hs

end Parameter

/-! ### Parameters by name -/

namespace Parameters

/-- The parameter of a name spells a text. -/
def Spells (ps : Parameters) (name s : String) : Prop := ∃ p, ps.get? name = some p ∧ p.Spells s

/-- The parameter of a name lists texts. -/
def Lists (ps : Parameters) (name : String) (items : List String) : Prop :=
  ∃ p, ps.get? name = some p ∧ p.Lists items

/-- The parameter of a name spells a time. -/
def SpellsTime (ps : Parameters) (name : String) (t : Timestamp) : Prop :=
  ∃ s, ps.Spells name s ∧ Timestamp.parse? s = some t

/-- The text that a parameter is read as. -/
def text? (ps : Parameters) (name : String) : Option String :=
  (ps.get? name).bind Parameter.toText?

/-- The items that a parameter is read as. -/
def items? (ps : Parameters) (name : String) : Option (List String) :=
  (ps.get? name).bind Parameter.toList?

/-- The time that a parameter is read as. -/
def time? (ps : Parameters) (name : String) : Option Timestamp :=
  (ps.get? name).bind Parameter.toTimestamp?

variable {ps : Parameters} {name : String}

theorem spells_iff {s : String} : ps.Spells name s ↔ s ∈ ps.text? name := by
  rw [text?, Option.mem_def, Option.bind_eq_some_iff]
  exact exists_congr fun p => and_congr_right fun _ => Parameter.spells_iff

theorem lists_iff {items : List String} : ps.Lists name items ↔ items ∈ ps.items? name := by
  rw [items?, Option.mem_def, Option.bind_eq_some_iff]
  exact exists_congr fun p => and_congr_right fun _ => Parameter.lists_iff

theorem spellsTime_iff {t : Timestamp} : ps.SpellsTime name t ↔ t ∈ ps.time? name := by
  have htime : ps.time? name = (ps.text? name).bind Timestamp.parse? :=
    (Option.bind_assoc _ _ _).symm
  rw [htime, Option.mem_def, Option.bind_eq_some_iff]
  exact exists_congr fun s => and_congr_left fun _ => spells_iff

end Parameters

/-! ### Texts of values -/

/-- A text that a value is found by: the one that is written for it, or for a double any text of
the same number, where the two zeros are one.  Nothing else has such a text. -/
inductive TypedValue.FoundBy : TypedValue → String → Prop
  | string (s : String) : FoundBy (.string (some s)) s
  | yes : FoundBy (.boolean (some true)) "true"
  | no : FoundBy (.boolean (some false)) "false"
  | integral {w : IntWidth} (n : SizedInt w) : FoundBy (.integral w (some n)) (toString n.val)
  | double {d e : Double} {s : String} (read : Double.ofLooseText? s = some e)
    (number : d.isNaN = false) (same : e = d ∨ e.rank = 0 ∧ d.rank = 0) :
    FoundBy (.double (some d)) s
  | date (t : Timestamp) : FoundBy (.date (some t)) t.text

theorem Double.sameNumber_iff {d e : Double} :
    d.sameNumber e ↔ d.isNaN = false ∧ (e = d ∨ e.rank = 0 ∧ d.rank = 0) := by
  have hext : e = d ↔ e.negative = d.negative ∧ e.rank = d.rank := by
    cases d
    cases e
    simp
  have hnan : e.rank = d.rank → e.isNaN = d.isNaN := fun h => by rw [isNaN, isNaN, h]
  rw [hext]
  simp only [sameNumber, Bool.and_eq_true, Bool.or_eq_true, Bool.not_eq_true', beq_iff_eq]
  constructor
  · rintro ⟨⟨⟨hd, -⟩, hrank⟩, hsign | hzero⟩
    · exact ⟨hd, Or.inl ⟨hsign.symm, hrank.symm⟩⟩
    · exact ⟨hd, Or.inr ⟨hrank.symm.trans hzero, hzero⟩⟩
  · rintro ⟨hd, ⟨hsign, hrank⟩ | ⟨hzero, hzero'⟩⟩
    · exact ⟨⟨⟨hd, (hnan hrank).trans hd⟩, hrank.symm⟩, Or.inl hsign.symm⟩
    · have hrank := hzero.trans hzero'.symm
      exact ⟨⟨⟨hd, (hnan hrank).trans hd⟩, hrank.symm⟩, Or.inr hzero'⟩

theorem TypedValue.foundBy_iff {v : TypedValue} {s : String} : v.FoundBy s ↔ v.rendersAs s := by
  constructor
  · intro h
    cases h with
    | integral n => exact beq_iff_eq.mpr (textOfInteger_eq_toString n.val)
    | double read number same =>
        rw [rendersAs, read]
        exact Double.sameNumber_iff.mpr ⟨number, same⟩
    | string | yes | no | date => exact beq_self_eq_true _
  · intro h
    unfold rendersAs at h
    split at h
    · rw [← eq_of_beq h]
      exact .string _
    · rename_i b
      rw [← eq_of_beq h]
      cases b
      · exact .no
      · exact .yes
    · rename_i n
      rw [← eq_of_beq h, SizedInt.text, textOfInteger_eq_toString]
      exact .integral n
    · obtain ⟨e, read, hsame⟩ := (Option.any_eq_true _ _).mp h
      obtain ⟨number, same⟩ := Double.sameNumber_iff.mp hsame
      exact .double read number same
    · rw [← eq_of_beq h]
      exact .date _
    · cases h

end CaseGateway
