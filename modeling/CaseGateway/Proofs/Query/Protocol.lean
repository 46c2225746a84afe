/-
The calls that a query is driven with.

A plan lists calls and does nothing.  What they are made on is a query object: each call
takes it from one state to the next, and in the end it is run, if the plan does not fail.
Any query object that journals what happens to it shows the same thing, whatever its
calls mean to it.

`Binds` says what a specification makes of parameters without saying how it is found: a
declared filter makes its call, stays idle or fails, the filters before the first failing
one are heard and none behind it, and sorting comes after all of them.  The relation has
exactly one solution, which is the plan, so an argument about the calls of a query is one
by cases on `Binds` and never opens the code that binds filters.
-/
import CaseGateway.Engine.Recorder
import CaseGateway.Http.Exchange
import CaseGateway.Proofs.Outcome

namespace CaseGateway

universe u

variable {γ ρ σ α : Type} {ω : Type u}

/-! ### Query objects -/

/-- What calls are made on, and what is run in the end, with states `σ`. -/
structure QueryObject (γ ρ σ : Type) where
  make : γ → σ → σ
  run : {α : Type} → Execution ρ α → σ → Except EngineError α × σ

/-- Something that happens to a query object. -/
inductive QueryEvent (γ ρ : Type) : Type 1
  | call (c : γ)
  | run {α : Type} (execution : Execution ρ α)

/-- Every event adds its entry to the end of the journal, and nothing else touches it. -/
structure QueryObject.Journals (q : QueryObject γ ρ σ) (journal : σ → List ω)
    (entry : QueryEvent γ ρ → ω) : Prop where
  make : ∀ (c : γ) (s : σ), journal (q.make c s) = journal s ++ [entry (.call c)]
  run : ∀ {α : Type} (execution : Execution ρ α) (s : σ),
    journal (q.run execution s).2 = journal s ++ [entry (.run execution)]

namespace Plan

/-- Makes the calls of a plan on a query object, and runs it unless the plan fails. -/
def carryOut (q : QueryObject γ ρ σ) (p : Plan γ (Execution ρ α)) (s : σ) :
    Except RestError α × σ :=
  let made := p.calls.foldl (fun s c => q.make c s) s
  match p.outcome with
  | .error e => (.error e, made)
  | .ok execution => ((q.run execution made).1.mapError .engine, (q.run execution made).2)

end Plan

namespace QueryObject.Journals

variable {q : QueryObject γ ρ σ} {journal : σ → List ω} {entry : QueryEvent γ ρ → ω}

theorem foldl_make (h : q.Journals journal entry) (calls : List γ) :
    ∀ s : σ, journal (calls.foldl (fun s c => q.make c s) s)
      = journal s ++ calls.map fun c => entry (.call c) := by
  induction calls with
  | nil => intro s; simp
  | cons c calls ih =>
      intro s
      rw [List.foldl_cons, ih, h.make, List.map_cons, List.append_assoc]
      rfl

/-- Of a plan that succeeds, it shows the calls and the run. -/
theorem carryOut_ok (h : q.Journals journal entry) (calls : List γ) (execution : Execution ρ α)
    (s : σ) :
    journal ((⟨calls, .ok execution⟩ : Plan γ (Execution ρ α)).carryOut q s).2
      = (journal s ++ calls.map fun c => entry (.call c)) ++ [entry (.run execution)] := by
  rw [← h.foldl_make]
  exact h.run execution _

end QueryObject.Journals

/-! ### Single filters -/

/-- The parameter that a setter needs besides its own. -/
def FilterSetter.partner? : FilterSetter γ → Option String
  | .paired partner _ _ => some partner
  | _ => none

namespace Filter

/-- Filters whose parameter is present and active, with the calls they make. -/
inductive Makes (ps : Parameters) : Filter γ → γ → Prop
  | text {name : String} {call : String → γ} {p : Parameter} {s : String}
    (hp : ps.get? name = some p) (hs : p.toText? = some s) : Makes ps ⟨name, .text call⟩ (call s)
  | list {name : String} {call : List String → γ} {p : Parameter} {ss : List String}
    (hp : ps.get? name = some p) (hss : p.toList? = some ss) (hne : ss ≠ []) :
    Makes ps ⟨name, .list call⟩ (call ss)
  | flag {name : String} {call : γ} {p : Parameter}
    (hp : ps.get? name = some p) (hb : p.toBool? = some true) : Makes ps ⟨name, .flag call⟩ call
  | date {name : String} {call : Timestamp → γ} {p : Parameter} {t : Timestamp}
    (hp : ps.get? name = some p) (ht : p.toTimestamp? = some t) :
    Makes ps ⟨name, .date call⟩ (call t)
  | paired {name partner message first second : String} {call : String → String → γ}
    {p other : Parameter} (hp : ps.get? name = some p) (hother : ps.get? partner = some other)
    (hfirst : other.toText? = some first) (hsecond : p.toText? = some second) :
    Makes ps ⟨name, .paired partner message call⟩ (call first second)

/-- Filters that make no call, and that nothing is wrong with. -/
inductive Idle (ps : Parameters) : Filter γ → Prop
  | absent {f : Filter γ} (hp : ps.get? f.name = none) : Idle ps f
  | emptyList {name : String} {call : List String → γ} {p : Parameter}
    (hp : ps.get? name = some p) (hss : p.toList? = some []) : Idle ps ⟨name, .list call⟩
  | unset {name : String} {call : γ} {p : Parameter}
    (hp : ps.get? name = some p) (hb : p.toBool? = some false) : Idle ps ⟨name, .flag call⟩

/-- Filters whose parameter cannot be converted, or lacks its partner, with the error. -/
inductive Fails (ps : Parameters) : Filter γ → RestError → Prop
  | text {name : String} {call : String → γ} {p : Parameter}
    (hp : ps.get? name = some p) (hs : p.toText? = none) :
    Fails ps ⟨name, .text call⟩ (p.conversionError name)
  | list {name : String} {call : List String → γ} {p : Parameter}
    (hp : ps.get? name = some p) (hss : p.toList? = none) :
    Fails ps ⟨name, .list call⟩ (p.conversionError name)
  | flag {name : String} {call : γ} {p : Parameter}
    (hp : ps.get? name = some p) (hb : p.toBool? = none) :
    Fails ps ⟨name, .flag call⟩ (p.conversionError name)
  | date {name : String} {call : Timestamp → γ} {p : Parameter}
    (hp : ps.get? name = some p) (ht : p.toTimestamp? = none) :
    Fails ps ⟨name, .date call⟩ (p.conversionError name)
  | alone {name partner message : String} {call : String → String → γ} {p : Parameter}
    (hp : ps.get? name = some p) (hother : ps.get? partner = none) :
    Fails ps ⟨name, .paired partner message call⟩ (.invalidRequest (.stated message))
  | partner {name partner message : String} {call : String → String → γ} {p other : Parameter}
    (hp : ps.get? name = some p) (hother : ps.get? partner = some other)
    (hfirst : other.toText? = none) :
    Fails ps ⟨name, .paired partner message call⟩ (other.conversionError partner)
  | paired {name partner message first : String} {call : String → String → γ}
    {p other : Parameter} (hp : ps.get? name = some p) (hother : ps.get? partner = some other)
    (hfirst : other.toText? = some first) (hsecond : p.toText? = none) :
    Fails ps ⟨name, .paired partner message call⟩ (p.conversionError name)

variable {ps : Parameters} {f : Filter γ} {call : γ} {e : RestError}

theorem Makes.bind_eq (h : f.Makes ps call) : f.bind ps = .ok (some call) := by
  cases h with
  | text hp hs =>
      simp only [Filter.bind, hp, Parameter.require, hs]
      rfl
  | @list name call p ss hp hss hne =>
      have hcall : (if ss.isEmpty then none else some (call ss)) = some (call ss) := by simp [hne]
      simp only [Filter.bind, hp, Parameter.require, hss]
      exact congrArg Except.ok hcall
  | flag hp hb =>
      simp only [Filter.bind, hp, Parameter.require, hb]
      rfl
  | date hp ht =>
      simp only [Filter.bind, hp, Parameter.require, ht]
      rfl
  | paired hp hother hfirst hsecond =>
      simp only [Filter.bind, hp, hother, Parameter.require, hfirst, hsecond]
      rfl

theorem Idle.bind_eq (h : f.Idle ps) : f.bind ps = .ok none := by
  cases h with
  | absent hp => simp only [Filter.bind, hp]
  | emptyList hp hss =>
      simp only [Filter.bind, hp, Parameter.require, hss]
      rfl
  | unset hp hb =>
      simp only [Filter.bind, hp, Parameter.require, hb]
      rfl

theorem Fails.bind_eq (h : f.Fails ps e) : f.bind ps = .error e := by
  cases h with
  | text hp hview | list hp hview | flag hp hview | date hp hview =>
      simp only [Filter.bind, hp, Parameter.require, hview]
      rfl
  | alone hp hother => simp only [Filter.bind, hp, hother]
  | partner hp hother hfirst =>
      simp only [Filter.bind, hp, hother, Parameter.require, hfirst]
      rfl
  | paired hp hother hfirst hsecond =>
      simp only [Filter.bind, hp, hother, Parameter.require, hfirst, hsecond]
      rfl

/-- A filter makes a call, is idle or fails. -/
theorem verdict (ps : Parameters) (f : Filter γ) :
    (∃ call, f.Makes ps call) ∨ f.Idle ps ∨ ∃ e, f.Fails ps e := by
  obtain ⟨name, setter⟩ := f
  cases hp : ps.get? name with
  | none => exact Or.inr (Or.inl (.absent hp))
  | some p =>
      cases setter with
      | text call =>
          cases hs : p.toText? with
          | none => exact Or.inr (Or.inr ⟨_, .text hp hs⟩)
          | some s => exact Or.inl ⟨_, .text hp hs⟩
      | list call =>
          cases hss : p.toList? with
          | none => exact Or.inr (Or.inr ⟨_, .list hp hss⟩)
          | some ss =>
              by_cases hne : ss = []
              · exact Or.inr (Or.inl (.emptyList hp (hne ▸ hss)))
              · exact Or.inl ⟨_, .list hp hss hne⟩
      | flag call =>
          cases hb : p.toBool? with
          | none => exact Or.inr (Or.inr ⟨_, .flag hp hb⟩)
          | some b =>
              cases b with
              | false => exact Or.inr (Or.inl (.unset hp hb))
              | true => exact Or.inl ⟨_, .flag hp hb⟩
      | date call =>
          cases ht : p.toTimestamp? with
          | none => exact Or.inr (Or.inr ⟨_, .date hp ht⟩)
          | some t => exact Or.inl ⟨_, .date hp ht⟩
      | paired partner message call =>
          cases hother : ps.get? partner with
          | none => exact Or.inr (Or.inr ⟨_, .alone hp hother⟩)
          | some other =>
              cases hfirst : other.toText? with
              | none => exact Or.inr (Or.inr ⟨_, .partner hp hother hfirst⟩)
              | some first =>
                  cases hsecond : p.toText? with
                  | none => exact Or.inr (Or.inr ⟨_, .paired hp hother hfirst hsecond⟩)
                  | some second => exact Or.inl ⟨_, .paired hp hother hfirst hsecond⟩

end Filter

/-! ### All filters, and sorting -/

namespace QuerySpec

/-- Filters none of which fails, with the calls they make, in order. -/
inductive Bound (ps : Parameters) : List (Filter γ) → List γ → Prop
  | nil : Bound ps [] []
  | makes {f : Filter γ} {fs : List (Filter γ)} {call : γ} {calls : List γ}
    (h : f.Makes ps call) (rest : Bound ps fs calls) : Bound ps (f :: fs) (call :: calls)
  | idle {f : Filter γ} {fs : List (Filter γ)} {calls : List γ}
    (h : f.Idle ps) (rest : Bound ps fs calls) : Bound ps (f :: fs) calls

/-- The calls of sorting parameters that are both given and valid, or both missing. -/
inductive Sorts (spec : QuerySpec γ) (ps : Parameters) : List γ → Prop
  | unsorted (hkey : ps.sortBy = none) (horder : ps.sortOrder = none) : Sorts spec ps []
  | sorted {key order : String} {call : γ} {direction : SortOrder} (hkey : ps.sortBy = some key)
    (horder : ps.sortOrder = some order) (hcall : spec.sorting.resolve? key = some call)
    (hdirection : SortOrder.parse? order = some direction) :
    Sorts spec ps [call, spec.direction direction]

/-- Sorting parameters that are not valid, with the error. -/
inductive SortingFails (spec : QuerySpec γ) (ps : Parameters) : RestError → Prop
  | loneKey {key : String} (hkey : ps.sortBy = some key) (horder : ps.sortOrder = none) :
    SortingFails spec ps (.invalidRequest .loneSortParameter)
  | loneOrder {order : String} (hkey : ps.sortBy = none) (horder : ps.sortOrder = some order) :
    SortingFails spec ps (.invalidRequest .loneSortParameter)
  | key {key order : String} (hkey : ps.sortBy = some key) (horder : ps.sortOrder = some order)
    (hcall : spec.sorting.resolve? key = none) :
    SortingFails spec ps (.invalidRequest (.sortKey key))
  | order {key order : String} {call : γ} (hkey : ps.sortBy = some key)
    (horder : ps.sortOrder = some order) (hcall : spec.sorting.resolve? key = some call)
    (hdirection : SortOrder.parse? order = none) :
    SortingFails spec ps (.invalidRequest (.sortOrder order))

/-- The calls that parameters lead to, with what comes of them: success, or the first failure and
then only the calls of the filters declared before it. -/
inductive Binds (spec : QuerySpec γ) (ps : Parameters) : List γ → Except RestError Unit → Prop
  | complete {calls sorting : List γ} (hfilters : Bound ps spec.filters calls)
    (hsorting : spec.Sorts ps sorting) : Binds spec ps (calls ++ sorting) (.ok ())
  | filterFails {before after : List (Filter γ)} {f : Filter γ} {calls : List γ} {e : RestError}
    (hfilters : spec.filters = before ++ f :: after) (hbefore : Bound ps before calls)
    (hfails : f.Fails ps e) : Binds spec ps calls (.error e)
  | sortingFails {calls : List γ} {e : RestError} (hfilters : Bound ps spec.filters calls)
    (hfails : spec.SortingFails ps e) : Binds spec ps calls (.error e)

variable {spec : QuerySpec γ} {ps : Parameters} {fs before after : List (Filter γ)} {f : Filter γ}
  {calls sorting : List γ} {e : RestError} {outcome : Except RestError Unit}

theorem Bound.bindFilters_eq (h : Bound ps fs calls) : bindFilters ps fs = ⟨calls, .ok ()⟩ := by
  induction h with
  | nil => rfl
  | makes h _ ih =>
      unfold bindFilters
      rw [h.bind_eq, ih]
      rfl
  | idle h _ ih =>
      unfold bindFilters
      rw [h.bind_eq, ih]
      rfl

theorem bound_of_absent (h : ∀ f ∈ fs, ps.get? f.name = none) : Bound ps fs [] := by
  induction fs with
  | nil => exact .nil
  | cons f fs ih =>
      exact .idle (.absent (h f List.mem_cons_self)) (ih fun g hg => h g (List.mem_cons_of_mem f hg))

/-- Behind a filter that fails nothing is bound any more. -/
theorem Bound.bindFilters_of_fails (h : Bound ps before calls) (hf : f.Fails ps e) :
    bindFilters ps (before ++ f :: after) = ⟨calls, .error e⟩ := by
  induction h with
  | nil =>
      rw [List.nil_append]
      unfold bindFilters
      rw [hf.bind_eq]
  | makes h _ ih =>
      rw [List.cons_append]
      unfold bindFilters
      rw [h.bind_eq, ih]
      rfl
  | idle h _ ih =>
      rw [List.cons_append]
      unfold bindFilters
      rw [h.bind_eq, ih]
      rfl

/-- Either all filters are bound or one of them is the first to fail. -/
theorem bound_or_fails (ps : Parameters) (fs : List (Filter γ)) :
    (∃ calls, Bound ps fs calls) ∨
      ∃ before f after calls e,
        fs = before ++ f :: after ∧ Bound ps before calls ∧ f.Fails ps e := by
  induction fs with
  | nil => exact Or.inl ⟨[], .nil⟩
  | cons f fs ih =>
      rcases f.verdict ps with ⟨call, hmakes⟩ | hidle | ⟨e, hfails⟩
      · rcases ih with ⟨calls, hrest⟩ | ⟨before, g, after, calls, e, hsplit, hbefore, hg⟩
        · exact Or.inl ⟨call :: calls, .makes hmakes hrest⟩
        · exact Or.inr ⟨f :: before, g, after, call :: calls, e, by rw [hsplit]; rfl,
            .makes hmakes hbefore, hg⟩
      · rcases ih with ⟨calls, hrest⟩ | ⟨before, g, after, calls, e, hsplit, hbefore, hg⟩
        · exact Or.inl ⟨calls, .idle hidle hrest⟩
        · exact Or.inr ⟨f :: before, g, after, calls, e, by rw [hsplit]; rfl,
            .idle hidle hbefore, hg⟩
      · exact Or.inr ⟨[], f, fs, [], e, rfl, .nil, hfails⟩

theorem exists_bound {ps : Parameters} {fs : List (Filter γ)}
    (h : ∀ f ∈ fs, ∀ e, ¬f.Fails ps e) : ∃ calls, Bound ps fs calls := by
  rcases bound_or_fails ps fs with hbound | ⟨before, f, after, calls, e, rfl, -, hf⟩
  · exact hbound
  · exact absurd hf (h f (List.mem_append_right _ List.mem_cons_self) e)

theorem Sorts.bindSorting_eq (h : spec.Sorts ps sorting) :
    spec.bindSorting ps = ⟨sorting, .ok ()⟩ := by
  cases h with
  | unsorted hkey horder => simp [bindSorting, hkey, horder, SortTable.select]
  | sorted hkey horder hcall hdirection =>
      simp [bindSorting, hkey, horder, SortTable.select, hcall, hdirection]

theorem SortingFails.bindSorting_eq (h : spec.SortingFails ps e) :
    spec.bindSorting ps = ⟨[], .error e⟩ := by
  cases h with
  | loneKey hkey horder => simp [bindSorting, hkey, horder, SortTable.select]
  | loneOrder hkey horder => simp [bindSorting, hkey, horder, SortTable.select]
  | key hkey horder hcall => simp [bindSorting, hkey, horder, SortTable.select, hcall]
  | order hkey horder hcall hdirection =>
      simp [bindSorting, hkey, horder, SortTable.select, hcall, hdirection]

theorem sorts_or_fails (spec : QuerySpec γ) (ps : Parameters) :
    (∃ sorting, spec.Sorts ps sorting) ∨ ∃ e, spec.SortingFails ps e := by
  cases hkey : ps.sortBy with
  | none =>
      cases horder : ps.sortOrder with
      | none => exact Or.inl ⟨_, .unsorted hkey horder⟩
      | some order => exact Or.inr ⟨_, .loneOrder hkey horder⟩
  | some key =>
      cases horder : ps.sortOrder with
      | none => exact Or.inr ⟨_, .loneKey hkey horder⟩
      | some order =>
          cases hcall : spec.sorting.resolve? key with
          | none => exact Or.inr ⟨_, .key hkey horder hcall⟩
          | some call =>
              cases hdirection : SortOrder.parse? order with
              | none => exact Or.inr ⟨_, .order hkey horder hcall hdirection⟩
              | some direction => exact Or.inl ⟨_, .sorted hkey horder hcall hdirection⟩

/-! ### Plans -/

/-- Parameters lead to calls in some way. -/
theorem exists_binds (spec : QuerySpec γ) (ps : Parameters) :
    ∃ calls outcome, spec.Binds ps calls outcome := by
  rcases bound_or_fails ps spec.filters with ⟨calls, hfilters⟩ |
    ⟨before, f, after, calls, e, hsplit, hbefore, hfails⟩
  · rcases spec.sorts_or_fails ps with ⟨sorting, hsorting⟩ | ⟨e, hfails⟩
    · exact ⟨_, _, .complete hfilters hsorting⟩
    · exact ⟨_, _, .sortingFails hfilters hfails⟩
  · exact ⟨_, _, .filterFails hsplit hbefore hfails⟩

/-- They do so in one way only, and the plan is it. -/
theorem Binds.apply_eq (h : spec.Binds ps calls outcome) : spec.apply ps = ⟨calls, outcome⟩ := by
  unfold apply
  cases h with
  | complete hfilters hsorting =>
      rw [hfilters.bindFilters_eq, Plan.andThen, hsorting.bindSorting_eq]
      rfl
  | filterFails hsplit hbefore hfails =>
      rw [hsplit, hbefore.bindFilters_of_fails hfails]
      rfl
  | sortingFails hfilters hfails =>
      rw [hfilters.bindFilters_eq, Plan.andThen, hfails.bindSorting_eq, Plan.after, List.append_nil]

theorem binds_iff : spec.Binds ps calls outcome ↔ spec.apply ps = ⟨calls, outcome⟩ := by
  refine ⟨Binds.apply_eq, fun h => ?_⟩
  obtain ⟨calls', outcome', h'⟩ := spec.exists_binds ps
  obtain ⟨rfl, rfl⟩ := Plan.mk.inj (h'.apply_eq.symm.trans h)
  exact h'

/-! ### What plans depend on -/

/-- A filter looks at its own parameter, and at that of its partner if it has one. -/
theorem bind_congr {ps ps' : Parameters} {f : Filter γ} (hname : ps'.get? f.name = ps.get? f.name)
    (hpartner : ∀ partner ∈ f.setter.partner?, ps'.get? partner = ps.get? partner) :
    f.bind ps' = f.bind ps := by
  obtain ⟨name, setter⟩ := f
  cases setter with
  | paired partner message call => simp only [Filter.bind, hname, hpartner partner rfl]
  | text call | list call | flag call | date call => simp only [Filter.bind, hname]

theorem bindFilters_congr {ps ps' : Parameters} {fs : List (Filter γ)}
    (h : ∀ f ∈ fs, f.bind ps' = f.bind ps) : bindFilters ps' fs = bindFilters ps fs := by
  induction fs with
  | nil => rfl
  | cons f fs ih =>
      unfold bindFilters
      rw [h f List.mem_cons_self, ih fun g hg => h g (List.mem_cons_of_mem f hg)]

theorem apply_congr {ps ps' : Parameters} (h : ∀ f ∈ spec.filters, f.bind ps' = f.bind ps)
    (hkey : ps'.sortBy = ps.sortBy) (horder : ps'.sortOrder = ps.sortOrder) :
    spec.apply ps' = spec.apply ps := by
  unfold apply bindSorting
  rw [bindFilters_congr h, hkey, horder]

/-! ### Plans of listings and counts -/

/-- How a listing is run: as a whole if no bound is given, and else as a page, which begins with
the first row and is as long as can be said where nothing else is. -/
inductive Lists (ps : Parameters) : Execution ρ (List ρ) → Prop
  | whole (hfirst : ps.firstResult = none) (hmax : ps.maxResults = none) : Lists ps .list
  | page (h : ps.firstResult ≠ none ∨ ps.maxResults ≠ none) :
    Lists ps (.page ((ps.firstResult.map (·.val)).getD 0)
      ((ps.maxResults.map (·.val)).getD 2147483647))

theorem listing_of_unpaged (h : ps.firstResult = none ∧ ps.maxResults = none) :
    (listing ps : Execution ρ (List ρ)) = .list := by
  simp [listing, Parameters.isPaged, h.1, h.2]

theorem Binds.list_eq (h : spec.Binds ps calls outcome) :
    (spec.list ps : Plan γ (Execution ρ (List ρ))) = ⟨calls, outcome.map fun _ => listing ps⟩ := by
  unfold list
  rw [h.apply_eq]
  cases outcome with
  | error e => rfl
  | ok u => simp [Plan.andThen, Plan.after, Except.map]

theorem Binds.count_eq (h : spec.Binds ps calls outcome) :
    (spec.count ps : Plan γ (Execution ρ Nat)) = ⟨calls, outcome.map fun _ => .count⟩ := by
  unfold count
  rw [h.apply_eq]
  cases outcome with
  | error e => rfl
  | ok u => simp [Plan.andThen, Plan.after, Except.map]

end QuerySpec

/-! ### The recorder

Its queries are journaled in words.  They are made by the requests of the server in just
the way in which a plan is carried out.
-/

namespace Recorder

/-- A query on a collection of prepared rows. -/
def queryObject (c : Collection γ ρ) : QueryObject γ ρ Recorder where
  make call r := r.note [c.wording call]
  run execution r :=
    (match r.failure with
      | some e => .error e
      | none => .ok (prepared execution (rows c r)),
      r.note [execution.wording])

theorem note_note (r : Recorder) (entries entries' : List String) :
    (r.note entries).note entries' = r.note (entries ++ entries') := by
  simp [note]

theorem foldl_make (c : Collection γ ρ) (calls : List γ) :
    ∀ r : Recorder, calls.foldl (fun r call => (queryObject c).make call r) r
      = r.note (calls.map c.wording) := by
  induction calls with
  | nil => intro r; simp [note]
  | cons call calls ih =>
      intro r
      rw [List.foldl_cons, ih]
      exact note_note r [c.wording call] (calls.map c.wording)

/-- What the server asks of a recorder is what the plan says. -/
theorem run_ofPlan (c : Collection γ ρ) (plan : Plan γ (Execution ρ α))
    (show? : α → Except RestError Http.Response) (r : Recorder) :
    ((Http.Exchange.ofPlan c plan show?).run r).2 = (plan.carryOut (queryObject c) r).2 := by
  obtain ⟨calls, outcome⟩ := plan
  cases outcome with
  | error e => exact (foldl_make c calls r).symm
  | ok execution =>
      have hmade : ((⟨calls, .ok execution⟩ : Plan γ (Execution ρ α)).carryOut (queryObject c) r).2
          = (r.note (calls.map c.wording)).note [execution.wording] := by
        rw [← foldl_make]
        rfl
      rw [hmade, note_note]
      rfl

end Recorder

/-! ### The protocol -/

namespace QuerySpec

end QuerySpec

end CaseGateway
