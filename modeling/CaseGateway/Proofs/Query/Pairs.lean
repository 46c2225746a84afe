/-
What is read of a query string.

Of several values under one name the first counts, whatever comes behind it.  Four names are set
apart, and what is given under them has to be convertible; everything else is kept as it
is for the filters.  `Reads` says this of parameters that have been read, name by name, and
it says everything: parameters are read from given values exactly when they are these.
-/
import CaseGateway.Proofs.Dictionary
import CaseGateway.Proofs.Outcome
import CaseGateway.Query.Parameters

namespace CaseGateway

/-- The value under a name that counts. -/
def firstOf? (pairs : List (String × String)) (name : String) : Option String :=
  (pairs.find? (·.1 == name)).map (·.2)

namespace Parameters

/-- The names that no filter goes by. -/
def reserved : List String := ["firstResult", "maxResults", "sortBy", "sortOrder"]

@[ext] theorem ext_get? {ps ps' : Parameters} (hfilters : ∀ name, ps.get? name = ps'.get? name)
    (hfirst : ps.firstResult = ps'.firstResult) (hmax : ps.maxResults = ps'.maxResults)
    (hkey : ps.sortBy = ps'.sortBy) (horder : ps.sortOrder = ps'.sortOrder) : ps = ps' := by
  cases ps
  cases ps'
  cases hfirst
  cases hmax
  cases hkey
  cases horder
  congr
  exact Dictionary.ext_get? hfilters

/-- What is read of given values.  A value under a reserved name is there if and only if one is given,
and is the given one converted. -/
structure Reads (given : String → Option Parameter) (ps : Parameters) : Prop where
  filters : ∀ name, ps.get? name = if name ∈ reserved then none else given name
  firstResult : ps.firstResult.map some = (given "firstResult").map Parameter.toInteger?
  maxResults : ps.maxResults.map some = (given "maxResults").map Parameter.toInteger?
  sortBy : ps.sortBy.map some = (given "sortBy").map Parameter.toText?
  sortOrder : ps.sortOrder.map some = (given "sortOrder").map Parameter.toText?

theorem reads_empty : Reads (Dictionary.get? .empty) empty where
  filters name := by
    split <;> rfl
  firstResult := rfl
  maxResults := rfl
  sortBy := rfl
  sortOrder := rfl

theorem require_eq_ok_iff {α : Type} {name : String} {p : Parameter} {view : Parameter → Option α}
    {a : α} : p.require name view = .ok a ↔ view p = some a := by
  unfold Parameter.require
  cases view p <;> simp

/-! ### One value after the other -/

/-- What reading a value under a name does to parameters: it gives one of the four that are set apart,
or it is kept for the filters. -/
inductive Adds (ps : Parameters) : String → Parameter → Parameters → Prop
  | firstResult {p : Parameter} {n : SizedInt .integer} (h : p.toInteger? = some n) :
    Adds ps "firstResult" p { ps with firstResult := some n }
  | maxResults {p : Parameter} {n : SizedInt .integer} (h : p.toInteger? = some n) :
    Adds ps "maxResults" p { ps with maxResults := some n }
  | sortBy {p : Parameter} {s : String} (h : p.toText? = some s) :
    Adds ps "sortBy" p { ps with sortBy := some s }
  | sortOrder {p : Parameter} {s : String} (h : p.toText? = some s) :
    Adds ps "sortOrder" p { ps with sortOrder := some s }
  | filter {name : String} {p : Parameter} (h : name ∉ reserved) :
    Adds ps name p { ps with filters := ps.filters.insert name p }

section Add

variable {d : Dictionary Parameter} {ps ps' : Parameters} {name : String} {p : Parameter}

theorem adds_of_add (h : ps.add name p = .ok ps') : ps.Adds name p ps' := by
  unfold add at h
  split at h
  · next hname =>
    obtain ⟨n, hn, hps'⟩ := bind_eq_ok.mp h
    obtain rfl := pure_eq_ok.mp hps'
    subst hname
    exact .firstResult (require_eq_ok_iff.mp hn)
  split at h
  · next hname =>
    obtain ⟨n, hn, hps'⟩ := bind_eq_ok.mp h
    obtain rfl := pure_eq_ok.mp hps'
    subst hname
    exact .maxResults (require_eq_ok_iff.mp hn)
  split at h
  · next hname =>
    obtain ⟨s, hs, hps'⟩ := bind_eq_ok.mp h
    obtain rfl := pure_eq_ok.mp hps'
    subst hname
    exact .sortBy (require_eq_ok_iff.mp hs)
  split at h
  · next hname =>
    obtain ⟨s, hs, hps'⟩ := bind_eq_ok.mp h
    obtain rfl := pure_eq_ok.mp hps'
    subst hname
    exact .sortOrder (require_eq_ok_iff.mp hs)
  · next hfirst hmax hkey horder =>
    obtain rfl := Except.ok.inj h
    exact .filter (by simp [reserved, hfirst, hmax, hkey, horder])

theorem add_of_adds (h : ps.Adds name p ps') : ps.add name p = .ok ps' := by
  cases h with
  | firstResult h | maxResults h => simp [add, require_eq_ok_iff.mpr h, bind, Except.bind]; rfl
  | sortBy h | sortOrder h => simp [add, require_eq_ok_iff.mpr h, bind, Except.bind]; rfl
  | filter h =>
      simp only [reserved, List.mem_cons, List.not_mem_nil, or_false, not_or] at h
      simp [add, h]

/-- Reading one more value. -/
theorem Reads.add (h : Reads d.get? ps) (hadd : ps.Adds name p ps') :
    Reads (d.insert name p).get? ps' := by
  have hreserved (hname : name ∈ reserved) (other : String) :
      ps.get? other = if other ∈ reserved then none else (d.insert name p).get? other := by
    rw [h.filters other]
    by_cases hother : other ∈ reserved
    · rw [if_pos hother, if_pos hother]
    · have hne : name ≠ other := fun heq => hother (heq ▸ hname)
      rw [if_neg hother, if_neg hother, Dictionary.get?_insert, if_neg hne]
  have hkept {α : Type} {view : Parameter → Option α} {given : Option α} {other : String}
      (heq : given.map some = (d.get? other).map view) (hne : name ≠ other) :
      given.map some = ((d.insert name p).get? other).map view := by
    rw [Dictionary.get?_insert, if_neg hne, heq]
  cases hadd with
  | firstResult hp =>
      refine ⟨hreserved (by decide), by simp [hp], ?_, ?_, ?_⟩
      · exact hkept h.maxResults (by decide)
      · exact hkept h.sortBy (by decide)
      · exact hkept h.sortOrder (by decide)
  | maxResults hp =>
      refine ⟨hreserved (by decide), ?_, by simp [hp], ?_, ?_⟩
      · exact hkept h.firstResult (by decide)
      · exact hkept h.sortBy (by decide)
      · exact hkept h.sortOrder (by decide)
  | sortBy hp =>
      refine ⟨hreserved (by decide), ?_, ?_, by simp [hp], ?_⟩
      · exact hkept h.firstResult (by decide)
      · exact hkept h.maxResults (by decide)
      · exact hkept h.sortOrder (by decide)
  | sortOrder hp =>
      refine ⟨hreserved (by decide), ?_, ?_, ?_, by simp [hp]⟩
      · exact hkept h.firstResult (by decide)
      · exact hkept h.maxResults (by decide)
      · exact hkept h.sortBy (by decide)
  | filter hname =>
      have hne {other : String} (hother : other ∈ reserved) : name ≠ other := by
        rintro rfl
        exact hname hother
      refine ⟨fun other => ?_, ?_, ?_, ?_, ?_⟩
      · show (ps.filters.insert name p).get? other = _
        rw [Dictionary.get?_insert, Dictionary.get?_insert]
        by_cases hother : name = other
        · subst hother
          rw [if_pos rfl, if_pos rfl, if_neg hname]
        · rw [if_neg hother, if_neg hother]
          exact h.filters other
      · exact hkept h.firstResult (hne (by decide))
      · exact hkept h.maxResults (hne (by decide))
      · exact hkept h.sortBy (hne (by decide))
      · exact hkept h.sortOrder (hne (by decide))

variable {given : String → Option Parameter}

/-- Parameters that are read are determined by what is given. -/
theorem Reads.unique (h : Reads given ps) (h' : Reads given ps') : ps = ps' := by
  have hinj {α : Type} {o o' : Option α} (heq : o.map some = o'.map some) : o = o' :=
    Option.map_injective (fun _ _ => Option.some.inj) heq
  exact ext_get? (fun name => (h.filters name).trans (h'.filters name).symm)
    (hinj (h.firstResult.trans h'.firstResult.symm)) (hinj (h.maxResults.trans h'.maxResults.symm))
    (hinj (h.sortBy.trans h'.sortBy.symm)) (hinj (h.sortOrder.trans h'.sortOrder.symm))

/-- What can be read with other values can be read behind any. -/
theorem Reads.exists_adds (h : Reads given ps) (hp : given name = some p) (ps' : Parameters) :
    ∃ next, ps'.Adds name p next := by
  have hview {α : Type} {view : Parameter → Option α} {read : Option α}
      (heq : read.map some = (given name).map view) : ∃ a, view p = some a := by
    rw [hp, Option.map_some] at heq
    obtain ⟨a, -, ha⟩ := Option.map_eq_some_iff.mp heq
    exact ⟨a, ha.symm⟩
  by_cases hname : name ∈ reserved
  · simp only [reserved, List.mem_cons, List.not_mem_nil, or_false] at hname
    rcases hname with rfl | rfl | rfl | rfl
    · exact (hview h.firstResult).elim fun n hn => ⟨_, .firstResult hn⟩
    · exact (hview h.maxResults).elim fun n hn => ⟨_, .maxResults hn⟩
    · exact (hview h.sortBy).elim fun s hs => ⟨_, .sortBy hs⟩
    · exact (hview h.sortOrder).elim fun s hs => ⟨_, .sortOrder hs⟩
  · exact ⟨_, .filter hname⟩

end Add

/-! ### All values -/

theorem reads_foldlM (es : List (String × Parameter)) :
    ∀ {d : Dictionary Parameter} {ps ps' : Parameters}, Reads d.get? ps →
      es.foldlM (fun ps e => ps.add e.1 e.2) ps = .ok ps' →
        Reads (es.foldl (fun d e => d.insert e.1 e.2) d).get? ps' := by
  induction es with
  | nil =>
      intro d ps ps' h hps'
      rw [← pure_eq_ok.mp hps']
      exact h
  | cons e es ih =>
      intro d ps ps' h hps'
      rw [List.foldlM_cons] at hps'
      obtain ⟨next, hnext, hrest⟩ := bind_eq_ok.mp hps'
      exact ih (h.add (adds_of_add hnext)) hrest

theorem exists_foldlM {es : List (String × Parameter)} {given : String → Option Parameter}
    {ps : Parameters} (h : Reads given ps) (hes : ∀ e ∈ es, given e.1 = some e.2) :
    ∀ start : Parameters, ∃ ps', es.foldlM (fun ps e => ps.add e.1 e.2) start = .ok ps' := by
  induction es with
  | nil => exact fun start => ⟨start, rfl⟩
  | cons e es ih =>
      intro start
      obtain ⟨next, hnext⟩ := h.exists_adds (hes e List.mem_cons_self) start
      obtain ⟨ps', hps'⟩ := ih (fun e he => hes e (List.mem_cons_of_mem _ he)) next
      exact ⟨ps', by rw [List.foldlM_cons, add_of_adds hnext]; exact hps'⟩

/-- The parameters of a dictionary are what is read of its values. -/
theorem ofDictionary_eq_ok_iff {d : Dictionary Parameter} {ps : Parameters} :
    ofDictionary d = .ok ps ↔ Reads d.get? ps := by
  have hreads {ps : Parameters} (h : ofDictionary d = .ok ps) : Reads d.get? ps := by
    have hall := reads_foldlM d.entries reads_empty h
    have hd : d.entries.foldl (fun d e => d.insert e.1 e.2) .empty = d :=
      Dictionary.ofList_of_ascending d.ascending
    rwa [hd] at hall
  refine ⟨hreads, fun h => ?_⟩
  obtain ⟨ps', hps'⟩ := exists_foldlM h (fun e he => Dictionary.mem_entries_iff.mp he) empty
  rw [h.unique (hreads hps')]
  exact hps'

/-- The value that counts is the one that is bound. -/
theorem get?_ofList_reverse (pairs : List (String × String)) (name : String) :
    (Dictionary.ofList (pairs.reverse.map fun e => (e.1, Parameter.text e.2))).get? name
      = (firstOf? pairs name).map .text := by
  rw [Dictionary.ofList, Dictionary.get?_foldl_insert (fun e : String × Parameter => e.1) (·.2),
    ← List.map_reverse, List.reverse_reverse, Dictionary.get?_empty, Option.or_none, firstOf?,
    List.find?_map]
  simp only [Option.map_map]
  rfl

/-- The parameters of a query string are what is read of the values that count. -/
theorem ofPairs_eq_ok_iff {pairs : List (String × String)} {ps : Parameters} :
    ofPairs pairs = .ok ps ↔ Reads (fun name => (firstOf? pairs name).map .text) ps := by
  rw [ofPairs, ofDictionary_eq_ok_iff]
  simp only [funext (get?_ofList_reverse pairs)]

section Texts

variable {pairs : List (String × String)} {ps : Parameters}

theorem firstOf?_filter {p : String → Bool} {name : String} (hp : p name = true) :
    firstOf? (pairs.filter fun e => p e.1) name = firstOf? pairs name := by
  rw [firstOf?, List.find?_filter]
  congr 2
  funext e
  by_cases h : e.1 = name
  · simp [h, hp]
  · simp [h]

theorem firstOf?_filter_of_not {p : String → Bool} {name : String} (hp : p name = false) :
    firstOf? (pairs.filter fun e => p e.1) name = none := by
  rw [firstOf?, List.find?_filter, Option.map_eq_none_iff, List.find?_eq_none]
  intro e _ h
  have hboth : p e.1 = true ∧ e.1 = name := by simpa using h
  rw [hboth.2, hp] at hboth
  exact nomatch hboth.1

/-- A query string is read if what it says of paging can be. -/
theorem exists_ofPairs
    (hpaging : ∀ name ∈ ["firstResult", "maxResults"], ∀ s, firstOf? pairs name = some s →
      (SizedInt.ofText? .integer s).isSome) : ∃ ps, ofPairs pairs = .ok ps := by
  have hread {name : String} (hname : name ∈ ["firstResult", "maxResults"]) :
      ((firstOf? pairs name).bind (SizedInt.ofText? .integer)).map some
        = ((firstOf? pairs name).map Parameter.text).map Parameter.toInteger? := by
    cases hs : firstOf? pairs name with
    | none => rfl
    | some s =>
        obtain ⟨n, hn⟩ := Option.isSome_iff_exists.mp (hpaging name hname s hs)
        show (SizedInt.ofText? .integer s).map some = some (SizedInt.ofText? .integer s)
        rw [hn]
        rfl
  have htext (o : Option String) : o.map some = (o.map Parameter.text).map Parameter.toText? := by
    cases o <;> rfl
  let filters := pairs.filter fun e => decide (e.1 ∉ reserved)
  let d : Dictionary Parameter := .ofList (filters.reverse.map fun e => (e.1, .text e.2))
  refine ⟨⟨d, _, _, _, _⟩,
    ofPairs_eq_ok_iff.mpr ⟨fun name => (get?_ofList_reverse filters name).trans ?_,
      hread (by decide), hread (by decide), htext _, htext _⟩⟩
  by_cases hname : name ∈ reserved
  · rw [if_pos hname, firstOf?_filter_of_not (p := fun name => decide (name ∉ reserved))]
    · rfl
    · simpa using hname
  · rw [if_neg hname, firstOf?_filter (p := fun name => decide (name ∉ reserved))]
    simpa using hname

/-- Nothing that is not about paging can be wrong with a query string. -/
theorem exists_unpaged (hfirst : firstOf? pairs "firstResult" = none)
    (hmax : firstOf? pairs "maxResults" = none) :
    ∃ ps, ofPairs pairs = .ok ps ∧ ps.firstResult = none ∧ ps.maxResults = none := by
  obtain ⟨ps, hps⟩ : ∃ ps, ofPairs pairs = .ok ps := by
    refine exists_ofPairs fun name hname s hs => ?_
    simp only [List.mem_cons, List.not_mem_nil, or_false] at hname
    obtain rfl | rfl := hname
    · exact nomatch hfirst.symm.trans hs
    · exact nomatch hmax.symm.trans hs
  have hreads := ofPairs_eq_ok_iff.mp hps
  have hfirst' := hreads.firstResult
  have hmax' := hreads.maxResults
  simp only [hfirst, hmax, Option.map_none, Option.map_eq_none_iff] at hfirst' hmax'
  exact ⟨ps, hps, hfirst', hmax'⟩

theorem get?_of_ofPairs (h : ofPairs pairs = .ok ps) {name : String} (hname : name ∉ reserved) :
    ps.get? name = (firstOf? pairs name).map .text := by
  rw [(ofPairs_eq_ok_iff.mp h).filters, if_neg hname]

theorem text_of_ofPairs (h : ofPairs pairs = .ok ps) {name : String} {p : Parameter}
    (hp : ps.get? name = some p) : ∃ s, p = .text s := by
  rw [(ofPairs_eq_ok_iff.mp h).filters] at hp
  obtain ⟨-, hp⟩ := Option.ite_none_left_eq_some.mp hp
  obtain ⟨s, -, rfl⟩ := Option.map_eq_some_iff.mp hp
  exact ⟨s, rfl⟩

/-- What is read under the names for sorting. -/
theorem sorting_of_ofPairs (h : ofPairs pairs = .ok ps) :
    ps.sortBy = firstOf? pairs "sortBy" ∧ ps.sortOrder = firstOf? pairs "sortOrder" := by
  have htext {o : Option String} {name : String}
      (ho : o.map some = ((firstOf? pairs name).map Parameter.text).map Parameter.toText?) :
      o = firstOf? pairs name := by
    refine Option.map_injective (fun _ _ => Option.some.inj) (ho.trans ?_)
    cases firstOf? pairs name <;> rfl
  have hreads := ofPairs_eq_ok_iff.mp h
  exact ⟨htext hreads.sortBy, htext hreads.sortOrder⟩

end Texts

end Parameters

end CaseGateway
