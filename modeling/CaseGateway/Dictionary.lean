/-
Finite maps from texts, kept in ascending order of their keys.

The order is part of the type: two dictionaries with the same bindings are equal, and
whatever is written from one comes out in the byte order of the keys.
-/

namespace CaseGateway

/-- A finite map from texts to `α`. -/
structure Dictionary (α : Type) where
  entries : List (String × α)
  ascending : entries.Pairwise (fun a b => a.1 < b.1)

namespace Dictionary

variable {α β : Type}

/-- The map without bindings. -/
def empty : Dictionary α := ⟨[], .nil⟩

instance : Inhabited (Dictionary α) := ⟨empty⟩

/-- Adds a binding at its place among ascending entries, in place of one for the same key. -/
def insertEntry (key : String) (value : α) : List (String × α) → List (String × α)
  | [] => [(key, value)]
  | e :: es =>
    if key < e.1 then (key, value) :: e :: es
    else if key = e.1 then (key, value) :: es
    else e :: insertEntry key value es

theorem mem_insertEntry {key : String} {value : α} {es : List (String × α)} {e : String × α}
    (h : e ∈ insertEntry key value es) : e = (key, value) ∨ e ∈ es := by
  induction es with
  | nil => simpa [insertEntry] using h
  | cons f fs ih =>
    unfold insertEntry at h
    split at h
    · simpa using h
    · split at h
      · rcases List.mem_cons.1 h with h | h
        · exact .inl h
        · exact .inr (List.mem_cons_of_mem _ h)
      · rcases List.mem_cons.1 h with h | h
        · exact .inr (h ▸ List.mem_cons_self)
        · exact (ih h).imp_right (List.mem_cons_of_mem _)

theorem insertEntry_ascending (key : String) (value : α) {es : List (String × α)}
    (h : es.Pairwise (fun a b => a.1 < b.1)) :
    (insertEntry key value es).Pairwise (fun a b => a.1 < b.1) := by
  induction es with
  | nil => simp [insertEntry]
  | cons f fs ih =>
    obtain ⟨hf, hfs⟩ := List.pairwise_cons.1 h
    unfold insertEntry
    split
    · rename_i hlt
      refine List.pairwise_cons.2 ⟨fun e he => ?_, h⟩
      rcases List.mem_cons.1 he with rfl | he
      · exact hlt
      · exact String.lt_trans hlt (hf e he)
    · split
      · rename_i heq
        exact List.pairwise_cons.2 ⟨fun e he => heq ▸ hf e he, hfs⟩
      · rename_i hlt hne
        refine List.pairwise_cons.2 ⟨fun e he => ?_, ih hfs⟩
        rcases mem_insertEntry he with rfl | he
        · exact Classical.byContradiction fun hge =>
            hne (String.le_antisymm (String.not_lt.1 hge) (String.not_lt.1 hlt))
        · exact hf e he

/-- The map with one more binding, in place of an earlier one for the same key. -/
def insert (d : Dictionary α) (key : String) (value : α) : Dictionary α :=
  ⟨insertEntry key value d.entries, insertEntry_ascending key value d.ascending⟩

/-- The map of a list of bindings; of several for one key the last counts. -/
def ofList (bindings : List (String × α)) : Dictionary α :=
  bindings.foldl (fun d e => d.insert e.1 e.2) empty

/-- The value bound to a key. -/
def get? (d : Dictionary α) (key : String) : Option α :=
  (d.entries.find? (·.1 == key)).map (·.2)

/-- The keys in ascending order. -/
def keys (d : Dictionary α) : List String :=
  d.entries.map (·.1)

/-- Whether there is no binding. -/
def isEmpty (d : Dictionary α) : Bool :=
  d.entries.isEmpty

/-- The map with every value replaced by its image. -/
def map (f : String → α → β) (d : Dictionary α) : Dictionary β :=
  ⟨d.entries.map fun e => (e.1, f e.1 e.2), by
    rw [List.pairwise_map]
    exact d.ascending⟩

end Dictionary

end CaseGateway
