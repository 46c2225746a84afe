/-
Records in documents.

A record is an object, or an array that has the parts in the order of the fields.  A part may be
missing or null, may be a list, or may be an object with a name for each of its entries.  For each of
these forms there is a relation that says what a document stands for, given what its own parts
stand for.

A reader recognizes such a relation if it finds what a document stands for, and nothing in any other.
The readers of records do, if those of the parts do; so a relation for a whole body is put
together in the same way as its reader, and can be taken in place of it.
-/
import CaseGateway.Proofs.Outcome
import CaseGateway.Value.Wire

namespace CaseGateway.Json

/-! ### What documents stand for -/

variable {α : Type}

/-- A document is a record of some parts: an object of them, or an array of no more items than
there are fields. -/
inductive IsRecord (fields : List String) : Json → List (String × Json) → Prop
  | object (members : List (String × Json)) : IsRecord fields (.object members) members
  | array {items : List Json} (fits : items.length ≤ fields.length) :
    IsRecord fields (.array items) (fields.zip items)

/-- A part that may be missing or null stands for something, or for nothing. -/
inductive IsOptional (P : Json → α → Prop) : Option Json → Option α → Prop
  | missing : IsOptional P none none
  | null : IsOptional P (some .null) none
  | given {j : Json} {a : α} (present : j ≠ .null) (stands : P j a) :
    IsOptional P (some j) (some a)

/-- A part that may be missing stands for something, or for a default. -/
inductive IsDefaulted (P : Json → α → Prop) (default : α) : Option Json → α → Prop
  | missing : IsDefaulted P default none default
  | given {j : Json} {a : α} (stands : P j a) : IsDefaulted P default (some j) a

/-- A document is an array whose items stand for those of a list. -/
inductive IsList (P : Json → α → Prop) : Json → List α → Prop
  | array {items : List Json} {as : List α} (stand : List.Forall₂ P items as) :
    IsList P (.array items) as

/-- A document is an object whose members stand for the entries of a dictionary. -/
inductive IsMap (P : Json → α → Prop) : Json → Dictionary α → Prop
  | object {members : List (String × Json)} {entries : List (String × α)}
    (stand : List.Forall₂ (fun m e => e.1 = m.1 ∧ P m.2 e.2) members entries) :
    IsMap P (.object members) (.ofList entries)

/-! ### Readers -/

/-- A reader recognizes what documents stand for. -/
def Recognizes (read : Json → Option α) (P : Json → α → Prop) : Prop :=
  ∀ (j : Json) (a : α), read j = some a ↔ P j a

variable {read : Json → Option α} {P : Json → α → Prop}

theorem member?_eq_lookup (members : List (String × Json)) (name : String) :
    member? members name = members.lookup name := by
  induction members with
  | nil => rfl
  | cons m ms ih =>
      unfold member? at ih ⊢
      by_cases h : m.1 = name
      · rw [List.find?_cons_of_pos (by simpa using h), ← h, List.lookup_cons_self]
        rfl
      · have hne : (name == m.1) = false := by simpa using Ne.symm h
        rw [List.find?_cons_of_neg (by simpa using h), List.lookup_cons, hne, ih]

theorem recordMembers?_eq_some_iff {fields : List String} {j : Json}
    {members : List (String × Json)} :
    j.recordMembers? fields = some members ↔ IsRecord fields j members := by
  constructor
  · intro h
    cases j with
    | object ms =>
        obtain rfl := Option.some.inj h
        exact .object ms
    | array items =>
        obtain ⟨fits, h⟩ := Option.ite_none_right_eq_some.mp h
        obtain rfl := Option.some.inj h
        exact .array fits
    | null | bool b | number n | string s => cases h
  · intro h
    cases h with
    | object => rfl
    | array fits => exact if_pos fits

theorem Recognizes.optional (h : Recognizes read P) {part : Option Json} {o : Option α} :
    Json.optional read part = some o ↔ IsOptional P part o := by
  constructor
  · intro ho
    unfold Json.optional at ho
    split at ho
    · rw [← Option.some.inj ho]
      exact .missing
    · rw [← Option.some.inj ho]
      exact .null
    · rename_i j hnull
      obtain ⟨a, ha, rfl⟩ := Option.map_eq_some_iff.mp ho
      exact .given hnull ((h _ _).mp ha)
  · intro ho
    cases ho with
    | missing | null => rfl
    | @given j a present stands =>
        have hread : (read j).map some = some (some a) :=
          congrArg (Option.map some) ((h _ _).mpr stands)
        cases j with
        | null => exact absurd rfl present
        | bool | number | string | array | object => exact hread

theorem Recognizes.orDefault (h : Recognizes read P) {default a : α} {part : Option Json} :
    Json.orDefault default read part = some a ↔ IsDefaulted P default part a := by
  constructor
  · intro ha
    cases part with
    | none =>
        rw [← Option.some.inj ha]
        exact .missing
    | some j => exact .given ((h _ _).mp ha)
  · intro ha
    cases ha with
    | missing => rfl
    | given stands => exact (h _ _).mpr stands

theorem Recognizes.toList? (h : Recognizes read P) : Recognizes (Json.toList? read) (IsList P) := by
  intro j as
  constructor
  · intro has
    cases j with
    | array items => exact .array ((mapM_eq_some.mp has).imp fun _ _ => (h _ _).mp)
    | null | bool | number | string | object => cases has
  · intro has
    cases has with
    | array stand => exact mapM_eq_some.mpr (stand.imp fun _ _ => (h _ _).mpr)

theorem Recognizes.toEntries? (h : Recognizes read P) :
    Recognizes (Json.toEntries? read) (IsMap P) := by
  have hmember : ∀ (m : String × Json) (e : String × α),
      ((read m.2).map fun a => (m.1, a)) = some e ↔ e.1 = m.1 ∧ P m.2 e.2 := by
    rintro m ⟨name, a⟩
    rw [Option.map_eq_some_iff]
    constructor
    · rintro ⟨a', ha', heq⟩
      obtain ⟨rfl, rfl⟩ := Prod.mk.inj heq
      exact ⟨rfl, (h _ _).mp ha'⟩
    · rintro ⟨rfl, ha⟩
      exact ⟨a, (h _ _).mpr ha, rfl⟩
  intro j d
  constructor
  · intro hd
    cases j with
    | object members =>
        obtain ⟨entries, hentries, rfl⟩ := Option.map_eq_some_iff.mp hd
        exact .object ((mapM_eq_some.mp hentries).imp fun m e => (hmember m e).mp)
    | null | bool | number | string | array => cases hd
  · intro hd
    cases hd with
    | object stand =>
        exact Option.map_eq_some_iff.mpr
          ⟨_, mapM_eq_some.mpr (stand.imp fun m e => (hmember m e).mpr), rfl⟩

theorem recognizes_toText? : Recognizes toText? fun j s => j = .string s := by
  intro j s
  cases j <;> simp [toText?]

theorem recognizes_toBool? : Recognizes toBool? fun j b => j = .bool b := by
  intro j b
  cases j <;> simp [toBool?]

theorem recognizes_toDictionary? :
    Recognizes toDictionary? fun j d => ∃ members, j = .object members ∧ d = .ofList members := by
  intro j d
  cases j <;> simp [toDictionary?, eq_comm]

end CaseGateway.Json
