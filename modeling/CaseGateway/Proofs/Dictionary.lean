/-
Dictionaries are finite maps.

A dictionary is a list of entries, and everything the program does with one is an
`insert`, a fold of inserts, or a walk over the entries.  What the other proofs need
is the view from outside: which value `get?` finds after each of these, and that the
entries are exactly the bindings, one for each key.

Adding an entry is the only place where the order of the list matters, and it matters
only for where the entry goes.  `find?_insertEntry` holds of any list.
-/
import CaseGateway.Dictionary
import Mathlib.Data.List.Forall2

namespace CaseGateway.Dictionary

variable {α β ρ : Type}

/-! ### Single bindings -/

theorem find?_insertEntry (key k : String) (value : α) (es : List (String × α)) :
    (insertEntry key value es).find? (·.1 == k)
      = if key = k then some (key, value) else es.find? (·.1 == k) := by
  by_cases h : key = k
  · subst h
    rw [if_pos rfl]
    induction es with
    | nil => simp [insertEntry]
    | cons e es ih =>
        unfold insertEntry
        split
        · simp
        · split
          · simp
          · rename_i hne
            rw [List.find?_cons, beq_false_of_ne (Ne.symm hne)]
            exact ih
  · rw [if_neg h]
    have hkey : ((key, value).1 == k) = false := beq_false_of_ne h
    induction es with
    | nil => simp [insertEntry, h]
    | cons e es ih =>
        unfold insertEntry
        split
        · rw [List.find?_cons, hkey]
        · split
          · rename_i heq
            rw [List.find?_cons, hkey, List.find?_cons, ← heq, beq_false_of_ne h]
          · rw [List.find?_cons, List.find?_cons, ih]

@[simp] theorem get?_empty (k : String) : (empty : Dictionary α).get? k = none := rfl

theorem get?_insert (d : Dictionary α) (key k : String) (value : α) :
    (d.insert key value).get? k = if key = k then some value else d.get? k := by
  unfold get? insert
  rw [find?_insertEntry]
  split <;> rfl

@[simp] theorem get?_insert_self (d : Dictionary α) (key : String) (value : α) :
    (d.insert key value).get? key = some value := by
  rw [get?_insert, if_pos rfl]

/-! ### Many bindings

Inserting one after the other, the last one for a key counts, and the dictionary that
was there before is asked only where there is none.  Without repetitions it does not
matter from which end the bindings are read.
-/

theorem get?_foldl_insert (key : ρ → String) (value : ρ → α) (k : String) (rows : List ρ) :
    ∀ d : Dictionary α,
      (rows.foldl (fun d row => d.insert (key row) (value row)) d).get? k
        = ((rows.reverse.find? (key · == k)).map value).or (d.get? k) := by
  induction rows with
  | nil => intro d; simp
  | cons row rows ih =>
      intro d
      rw [List.foldl_cons, ih, get?_insert, List.reverse_cons, List.find?_append]
      by_cases h : key row = k <;> simp [h]

theorem find?_reverse {key : ρ → String} {rows : List ρ}
    (h : rows.Pairwise (fun a b => key a ≠ key b)) (k : String) :
    rows.reverse.find? (key · == k) = rows.find? (key · == k) := by
  induction rows with
  | nil => rfl
  | cons row rows ih =>
      obtain ⟨hrow, hrows⟩ := List.pairwise_cons.mp h
      rw [List.reverse_cons, List.find?_append, ih hrows]
      by_cases hk : key row = k
      · have hnone : rows.find? (key · == k) = none := by
          rw [List.find?_eq_none]
          intro other hother
          simpa [hk] using (hrow other hother).symm
        simp [hk, hnone]
      · simp [hk]

theorem get?_ofList {es : List (String × α)} (h : es.Pairwise (fun a b => a.1 ≠ b.1))
    (k : String) : (ofList es).get? k = (es.find? (·.1 == k)).map (·.2) := by
  unfold ofList
  rw [get?_foldl_insert (fun e : String × α => e.1) (·.2), find?_reverse h, get?_empty,
    Option.or_none]

/-! ### Entries -/

theorem entries_pairwise_ne (d : Dictionary α) : d.entries.Pairwise (fun a b => a.1 ≠ b.1) :=
  d.ascending.imp fun h => String.ne_of_lt h

/-- Without repetitions an entry is found under its key. -/
theorem mem_iff_find? {es : List (String × α)} (h : es.Pairwise (fun a b => a.1 ≠ b.1))
    {k : String} {a : α} : (k, a) ∈ es ↔ (es.find? (·.1 == k)).map (·.2) = some a := by
  induction es with
  | nil => simp
  | cons e es ih =>
      obtain ⟨he, hes⟩ := List.pairwise_cons.mp h
      by_cases hk : e.1 = k
      · have hnot : (k, a) ∉ es := fun hmem => he _ hmem hk
        simp only [List.mem_cons, hnot, or_false, List.find?_cons, hk, beq_self_eq_true,
          Option.map_some, Option.some.injEq]
        exact ⟨fun h => h ▸ rfl, fun h => by rw [← h, ← hk]⟩
      · have hhead : (k, a) ≠ e := fun h => hk (h ▸ rfl)
        simp only [List.mem_cons, hhead, false_or, List.find?_cons]
        rw [beq_false_of_ne hk]
        exact ih hes

/-- The entries of a dictionary are its bindings. -/
theorem mem_entries_iff {d : Dictionary α} {k : String} {a : α} :
    (k, a) ∈ d.entries ↔ d.get? k = some a :=
  mem_iff_find? d.entries_pairwise_ne

/-- Without repetitions the bindings of a list are its elements. -/
theorem get?_ofList_eq_some_iff {es : List (String × α)} (h : es.Pairwise (fun a b => a.1 ≠ b.1))
    {k : String} {a : α} : (ofList es).get? k = some a ↔ (k, a) ∈ es := by
  rw [get?_ofList h, mem_iff_find? h]

theorem mem_keys_iff {d : Dictionary α} {k : String} : k ∈ d.keys ↔ (d.get? k).isSome := by
  unfold keys
  rw [List.mem_map, Option.isSome_iff_exists]
  constructor
  · rintro ⟨⟨k, a⟩, hmem, rfl⟩
    exact ⟨a, mem_entries_iff.mp hmem⟩
  · rintro ⟨a, ha⟩
    exact ⟨(k, a), mem_entries_iff.mpr ha, rfl⟩

/-- Dictionaries that bind the same keys list them in the same order. -/
theorem keys_eq_of_isSome {d : Dictionary α} {d' : Dictionary β}
    (h : ∀ k, (d.get? k).isSome = (d'.get? k).isSome) : d.keys = d'.keys := by
  have hd : d.keys.Pairwise (· < ·) := List.pairwise_map.mpr d.ascending
  have hd' : d'.keys.Pairwise (· < ·) := List.pairwise_map.mpr d'.ascending
  refine List.Perm.eq_of_pairwise ?_ hd hd' ?_
  · intro k k' _ _ hlt hgt
    exact absurd (String.lt_trans hlt hgt) (String.lt_irrefl k)
  · refine (List.perm_ext_iff_of_nodup ?_ ?_).mpr fun k => ?_
    · exact hd.imp String.ne_of_lt
    · exact hd'.imp String.ne_of_lt
    · rw [mem_keys_iff, mem_keys_iff, h k]

/-- A dictionary is determined by what it binds. -/
theorem ext_get? {d d' : Dictionary α} (h : ∀ k, d.get? k = d'.get? k) : d = d' := by
  have hentries : d.entries = d'.entries := by
    have hd : d.entries.Nodup := d.entries_pairwise_ne.imp fun hne heq => hne (congrArg Prod.fst heq)
    have hd' : d'.entries.Nodup :=
      d'.entries_pairwise_ne.imp fun hne heq => hne (congrArg Prod.fst heq)
    refine List.Perm.eq_of_pairwise ?_ d.ascending d'.ascending ?_
    · intro e e' _ _ hlt hgt
      exact absurd (String.lt_trans hlt hgt) (String.lt_irrefl e.1)
    · refine (List.perm_ext_iff_of_nodup hd hd').mpr fun e => ?_
      rw [show e = (e.1, e.2) from rfl, mem_entries_iff, mem_entries_iff, h]
  cases d
  cases d'
  congr

/-- Ascending bindings are entries as they stand. -/
theorem ofList_of_ascending {es : List (String × α)} (h : es.Pairwise fun a b => a.1 < b.1) :
    ofList es = ⟨es, h⟩ := by
  refine ext_get? fun k => ?_
  rw [get?_ofList (h.imp String.ne_of_lt)]
  rfl

/-- Dictionaries related key by key are related entry by entry. -/
theorem forall₂_entries {R : String → α → β → Prop} {d : Dictionary α} {d' : Dictionary β}
    (h : ∀ k, Option.Rel (R k) (d.get? k) (d'.get? k)) :
    List.Forall₂ (fun e e' => e.1 = e'.1 ∧ R e.1 e.2 e'.2) d.entries d'.entries := by
  have hkeys : d.keys = d'.keys := by
    refine keys_eq_of_isSome fun k => ?_
    generalize d.get? k = a, d'.get? k = b, h k = hrel
    cases hrel <;> rfl
  have hsame : List.Forall₂ (fun e e' => e.1 = e'.1) d.entries d'.entries := by
    rw [← List.forall₂_map_right_iff (f := fun e : String × β => e.1),
      ← List.forall₂_map_left_iff (f := fun e : String × α => e.1)]
    exact List.forall₂_eq_eq_eq ▸ hkeys
  obtain ⟨hlength, hzip⟩ := List.forall₂_iff_zip.mp hsame
  refine List.forall₂_iff_zip.mpr ⟨hlength, ?_⟩
  rintro ⟨k, a⟩ ⟨k', b⟩ hmem
  obtain rfl : k = k' := hzip hmem
  obtain ⟨ha, hb⟩ := List.of_mem_zip hmem
  have hrel := h k
  rw [mem_entries_iff.mp ha, mem_entries_iff.mp hb] at hrel
  cases hrel with
  | some hR => exact ⟨rfl, hR⟩

theorem get?_map (f : String → α → β) (d : Dictionary α) (k : String) :
    (d.map f).get? k = (d.get? k).map (f k) := by
  show ((d.entries.map fun e => (e.1, f e.1 e.2)).find? (·.1 == k)).map (·.2) = _
  unfold get?
  induction d.entries with
  | nil => rfl
  | cons e es ih =>
      by_cases hk : e.1 = k
      · simp [hk]
      · have hek : (e.1 == k) = false := by simpa using hk
        simpa [hek] using ih

/-- To insert what is there already changes nothing. -/
theorem insert_of_get? {d : Dictionary α} {key : String} {a : α} (h : d.get? key = some a) :
    d.insert key a = d := by
  refine ext_get? fun k => ?_
  rw [get?_insert]
  by_cases hk : key = k
  · rw [if_pos hk, ← hk, h]
  · rw [if_neg hk]

/-- Different keys can be inserted in either order. -/
theorem insert_comm (d : Dictionary α) {key key' : String} (h : key ≠ key') (a a' : α) :
    (d.insert key a).insert key' a' = (d.insert key' a').insert key a := by
  refine ext_get? fun k => ?_
  rw [get?_insert, get?_insert, get?_insert, get?_insert]
  by_cases hk : key = k
  · subst hk
    simp [Ne.symm h]
  · simp [hk]

/-- To replace the value of a key is to map the values, all but one of them to themselves. -/
theorem insert_eq_map {d : Dictionary α} {key : String} {a : α} (h : d.get? key = some a)
    (f : α → α) : d.insert key (f a) = d.map fun k b => if k = key then f b else b := by
  refine ext_get? fun k => ?_
  rw [get?_insert, get?_map]
  by_cases hk : key = k
  · rw [if_pos hk, ← hk, h, Option.map_some, if_pos rfl]
  · rw [if_neg hk]
    cases hget : d.get? k with
    | none => rfl
    | some b => rw [Option.map_some, if_neg (Ne.symm hk)]

end CaseGateway.Dictionary
