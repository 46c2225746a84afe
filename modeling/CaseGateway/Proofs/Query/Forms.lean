/-
A query asked in a query string, and asked in a body.

Texts are all that a query string has, while a body has numbers, truth values and arrays.
Nothing that is made of a parameter can tell a scalar from its text: every view of it goes
through that text, except for that of an integer, and a number reads as the same integer
as its text does.  An array is told apart from the text of its items by everything but the
view as a list, so it can stand only where the parameter is seen as a list and as nothing
else.

Both forms put their parameters into a dictionary and take them out in the order of the
names.  So it is enough to relate what they have under each name, and no order in which the
parameters were given matters.
-/
import CaseGateway.Proofs.Dictionary
import CaseGateway.Proofs.Number.Text
import CaseGateway.Proofs.Query.Protocol
import CaseGateway.Proofs.Text.Pieces

namespace CaseGateway

variable {γ : Type}

/-! ### Single parameters -/

namespace Parameter

/-- Two parameters that look the same in every view. -/
structure SameViews (p p' : Parameter) : Prop where
  text : p.toText? = p'.toText?
  list : p.toList? = p'.toList?
  integer : p.toInteger? = p'.toInteger?
  shown : p.shown = p'.shown

theorem SameViews.toBool? {p p' : Parameter} (h : p.SameViews p') : p.toBool? = p'.toBool? := by
  unfold Parameter.toBool?
  rw [h.text]

theorem SameViews.toTimestamp? {p p' : Parameter} (h : p.SameViews p') :
    p.toTimestamp? = p'.toTimestamp? := by
  unfold Parameter.toTimestamp?
  rw [h.text]

/-- What one view is required of fails with the same error, as that shows the parameter. -/
theorem SameViews.require {α : Type} {p p' : Parameter} {view : Parameter → Option α}
    (h : p.SameViews p') (hview : view p = view p') (name : String) :
    p.require name view = p'.require name view := by
  unfold Parameter.require conversionError
  rw [hview, h.shown]

/-- A scalar looks the same as its text. -/
theorem sameViews_of_scalar {j : Json} {s : String} (h : scalarText? j = some s) :
    SameViews (.json j) (.text s) := by
  cases j with
  | string t =>
      obtain rfl := Option.some.inj h
      exact ⟨rfl, rfl, rfl, rfl⟩
  | number n =>
      obtain rfl := Option.some.inj h
      exact ⟨rfl, rfl, (n.ofText?_text .integer).symm, String.ofList_toList⟩
  | bool b =>
      obtain rfl := Option.some.inj h
      exact ⟨rfl, rfl, rfl, by cases b <;> rfl⟩
  | null | array items | object members => exact absurd h (by simp [scalarText?])

/-- An array of texts without commas is the same list as its items with commas between them. -/
theorem toList?_commaJoined {items : List Json} {texts : List String}
    (hitems : items.mapM scalarText? = some texts) (hcommas : ∀ t ∈ texts, ',' ∉ t.toList) :
    (json (.array items)).toList? = (text (commaJoined texts)).toList? := by
  show (items.mapM scalarText?).map _ = some (splitItems (commaJoined texts))
  rw [hitems, splitItems_commaJoined hcommas]
  rfl

end Parameter

/-! ### What can be asked for in both forms -/

/-- The text of a document in a query string.  Null has none, and neither has anything nested
beyond the items of an array. -/
def Json.queryText? : Json → Option String
  | .array items => (items.mapM Parameter.scalarText?).map commaJoined
  | j => Parameter.scalarText? j

/-- The pairs of a query string that say what the members of a body say. -/
def queryPairs (members : List (String × Json)) : List (String × String) :=
  members.filterMap fun m => m.2.queryText?.map fun s => (m.1, s)

theorem queryPairs_distinct {members : List (String × Json)}
    (h : members.Pairwise fun m m' => m.1 ≠ m'.1) :
    (queryPairs members).Pairwise fun e e' => e.1 ≠ e'.1 := by
  refine h.filterMap _ fun m m' hne e he e' he' => ?_
  obtain ⟨s, -, rfl⟩ := Option.map_eq_some_iff.mp he
  obtain ⟨s', -, rfl⟩ := Option.map_eq_some_iff.mp he'
  exact hne

namespace QuerySpec

/-- Names that a specification uses for lists and for nothing else, if at all. -/
structure ListOnly (spec : QuerySpec γ) (name : String) : Prop where
  free : name ∉ ["firstResult", "maxResults", "sortBy", "sortOrder"]
  filters : ∀ f ∈ spec.filters, f.name = name → ∃ call, f.setter = .list call
  partners : ∀ f ∈ spec.filters, f.setter.partner? ≠ some name

/-- Documents under a name that can be said in a query string as well: nothing, a scalar, or an
array where only lists are wanted, with items that hold no commas. -/
inductive Expressible (spec : QuerySpec γ) (name : String) : Json → Prop
  | null : Expressible spec name .null
  | scalar {j : Json} {s : String} (h : Parameter.scalarText? j = some s) : Expressible spec name j
  | items {items : List Json} {texts : List String} (hlist : spec.ListOnly name)
    (hitems : items.mapM Parameter.scalarText? = some texts)
    (hcommas : ∀ t ∈ texts, ',' ∉ t.toList) : Expressible spec name (.array items)

/-- Parameters under a name that a specification cannot tell apart. -/
inductive Interchangeable (spec : QuerySpec γ) (name : String) (p p' : Parameter) : Prop
  | everywhere (h : p.SameViews p')
  | inLists {texts : List String} (hlist : spec.ListOnly name) (h : p.toList? = some texts)
    (h' : p'.toList? = some texts)

variable {spec : QuerySpec γ} {name : String} {p p' : Parameter}

theorem Interchangeable.sameViews (h : spec.Interchangeable name p p')
    (hname : ¬spec.ListOnly name) : p.SameViews p' := by
  cases h with
  | everywhere h => exact h
  | inLists hlist h h' => exact absurd hlist hname

theorem Interchangeable.requireList (h : spec.Interchangeable name p p') :
    p.require name Parameter.toList? = p'.require name Parameter.toList? := by
  cases h with
  | everywhere h => exact h.require h.list name
  | inLists hlist h h' =>
      unfold Parameter.require
      rw [h, h']

end QuerySpec

/-! ### Sets of parameters -/

namespace Parameters

/-- Parameters that a specification cannot tell apart, name by name. -/
structure Alike (spec : QuerySpec γ) (ps ps' : Parameters) : Prop where
  filters : ∀ name, Option.Rel (spec.Interchangeable name) (ps.get? name) (ps'.get? name)
  firstResult : ps.firstResult = ps'.firstResult
  maxResults : ps.maxResults = ps'.maxResults
  sortBy : ps.sortBy = ps'.sortBy
  sortOrder : ps.sortOrder = ps'.sortOrder

variable {spec : QuerySpec γ} {ps ps' : Parameters} {name : String} {p p' : Parameter}

theorem alike_empty (spec : QuerySpec γ) : Alike spec empty empty :=
  ⟨fun _ => .none, rfl, rfl, rfl, rfl⟩

/-- Adding a parameter to each keeps them alike, or fails for both. -/
theorem Alike.add (h : Alike spec ps ps') (hp : spec.Interchangeable name p p') :
    SameOutcome (Alike spec) (ps.add name p) (ps'.add name p') := by
  have hviews : name ∈ ["firstResult", "maxResults", "sortBy", "sortOrder"] → p.SameViews p' :=
    fun hname => hp.sameViews fun hlist => hlist.free hname
  unfold Parameters.add
  split
  · rename_i hname
    have hsame := hviews (by simp [hname])
    rw [hsame.require hsame.integer]
    exact .bind fun _ => .ok { h with firstResult := rfl }
  split
  · rename_i hname
    have hsame := hviews (by simp [hname])
    rw [hsame.require hsame.integer]
    exact .bind fun _ => .ok { h with maxResults := rfl }
  split
  · rename_i hname
    have hsame := hviews (by simp [hname])
    rw [hsame.require hsame.text]
    exact .bind fun _ => .ok { h with sortBy := rfl }
  split
  · rename_i hname
    have hsame := hviews (by simp [hname])
    rw [hsame.require hsame.text]
    exact .bind fun _ => .ok { h with sortOrder := rfl }
  · refine .ok { h with filters := fun k => ?_ }
    show Option.Rel _ ((ps.filters.insert name p).get? k) ((ps'.filters.insert name p').get? k)
    rw [Dictionary.get?_insert, Dictionary.get?_insert]
    by_cases hk : name = k
    · subst hk
      simpa using Option.Rel.some hp
    · rw [if_neg hk, if_neg hk]
      exact h.filters k

/-- Dictionaries of parameters that cannot be told apart lead to parameters that cannot. -/
theorem ofDictionary_alike {d d' : Dictionary Parameter}
    (h : ∀ name, Option.Rel (spec.Interchangeable name) (d.get? name) (d'.get? name)) :
    SameOutcome (Alike spec) (ofDictionary d) (ofDictionary d') := by
  refine SameOutcome.foldlM ?_ (Dictionary.forall₂_entries h) (alike_empty spec)
  rintro ps ps' ⟨name, p⟩ ⟨name', p'⟩ hps ⟨rfl, hp⟩
  exact hps.add hp

end Parameters

namespace QuerySpec

variable {spec : QuerySpec γ} {ps ps' : Parameters}

/-- No filter can tell them apart. -/
theorem bind_alike {f : Filter γ} (hf : f ∈ spec.filters) (h : ps.Alike spec ps') :
    f.bind ps = f.bind ps' := by
  obtain ⟨name, setter⟩ := f
  have hname := h.filters name
  unfold Filter.bind
  simp only
  generalize ps.get? name = p, ps'.get? name = p' at hname
  cases hname with
  | none => rfl
  | @some p p' hp =>
      have hviews : (∀ call, setter ≠ .list call) → p.SameViews p' := by
        refine fun hsetter => hp.sameViews fun hlist => ?_
        obtain ⟨call, hcall⟩ := hlist.filters _ hf rfl
        exact hsetter call hcall
      cases setter with
      | list call =>
          simp only
          rw [hp.requireList]
      | text call =>
          have hsame := hviews nofun
          simp only
          rw [hsame.require hsame.text]
      | flag call =>
          have hsame := hviews nofun
          simp only
          rw [hsame.require hsame.toBool?]
      | date call =>
          have hsame := hviews nofun
          simp only
          rw [hsame.require hsame.toTimestamp?]
      | paired partner message call =>
          have hsame := hviews nofun
          have hpartner := h.filters partner
          simp only
          generalize ps.get? partner = other, ps'.get? partner = other' at hpartner
          cases hpartner with
          | none => rfl
          | some hother =>
              have hsameOther := hother.sameViews fun hlist => hlist.partners _ hf rfl
              simp only
              rw [hsame.require hsame.text, hsameOther.require hsameOther.text]

theorem apply_alike (h : ps.Alike spec ps') : spec.apply ps = spec.apply ps' :=
  apply_congr (fun _ hf => bind_alike hf h) h.sortBy h.sortOrder

theorem listing_alike {ρ : Type} (h : ps.Alike spec ps') :
    (listing ps : Execution ρ (List ρ)) = listing ps' := by
  unfold listing Parameters.isPaged
  rw [h.firstResult, h.maxResults]

theorem list_alike {ρ : Type} (h : ps.Alike spec ps') :
    (spec.list ps : Plan γ (Execution ρ (List ρ))) = spec.list ps' := by
  unfold list
  rw [apply_alike h, listing_alike h]

theorem count_alike {ρ : Type} (h : ps.Alike spec ps') :
    (spec.count ps : Plan γ (Execution ρ Nat)) = spec.count ps' := by
  unfold count
  rw [apply_alike h]

end QuerySpec

/-! ### Both forms -/

namespace Parameters

variable {members : List (String × Json)} {pairs : List (String × String)}

/-- The parameter that a member of a body gives. -/
def ofMember? : Json → Option Parameter
  | .null => none
  | j => some (.json j)

theorem ofMember?_eq_some_iff {j : Json} {p : Parameter} :
    ofMember? j = some p ↔ j ≠ .null ∧ .json j = p := by
  cases j <;> simp [ofMember?]

/-- A body gives the parameters of its members. -/
theorem ofBody_object (members : List (String × Json)) :
    ∃ d, ofBody (.object members) = ofDictionary d ∧
      ∀ name, d.get? name = ((Dictionary.ofList members).get? name).bind ofMember? := by
  refine ⟨_, rfl, fun name => Option.ext fun p => ?_⟩
  rw [Dictionary.get?_ofList_eq_some_iff, Option.bind_eq_some_iff]
  · constructor
    · intro h
      obtain ⟨⟨name, j⟩, hmem, heq⟩ := List.mem_map.mp h
      obtain ⟨rfl, rfl⟩ := Prod.mk.inj heq
      obtain ⟨hentry, hpresent⟩ := List.mem_filter.mp hmem
      refine ⟨j, Dictionary.mem_entries_iff.mp hentry, ofMember?_eq_some_iff.mpr ⟨?_, rfl⟩⟩
      rintro rfl
      exact Bool.false_ne_true hpresent
    · rintro ⟨j, hj, hp⟩
      obtain ⟨hnull, rfl⟩ := ofMember?_eq_some_iff.mp hp
      have hentry := Dictionary.mem_entries_iff.mpr hj
      refine List.mem_map.mpr ⟨(name, j), List.mem_filter.mpr ⟨hentry, ?_⟩, rfl⟩
      cases j with
      | null => exact absurd rfl hnull
      | _ => rfl
  · rw [List.pairwise_map]
    exact (Dictionary.entries_pairwise_ne _).filter _

/-- A query string gives the parameters of its pairs, whatever their order. -/
theorem ofPairs_queryPairs (hnames : members.Pairwise fun m m' => m.1 ≠ m'.1)
    (hpairs : pairs.Perm (queryPairs members)) :
    ∃ d, ofPairs pairs = ofDictionary d ∧
      ∀ name, d.get? name = ((Dictionary.ofList members).get? name).bind fun j =>
        j.queryText?.map .text := by
  refine ⟨_, rfl, fun name => Option.ext fun p => ?_⟩
  rw [Dictionary.get?_ofList_eq_some_iff, Option.bind_eq_some_iff]
  · constructor
    · intro h
      obtain ⟨⟨name, s⟩, hmem, heq⟩ := List.mem_map.mp h
      obtain ⟨rfl, rfl⟩ := Prod.mk.inj heq
      obtain ⟨⟨name', j⟩, hmember, hj⟩ :=
        List.mem_filterMap.mp (hpairs.mem_iff.mp (List.mem_reverse.mp hmem))
      obtain ⟨s', hs, heq⟩ := Option.map_eq_some_iff.mp hj
      obtain ⟨rfl, rfl⟩ := Prod.mk.inj heq
      exact ⟨j, (Dictionary.get?_ofList_eq_some_iff hnames).mpr hmember,
        Option.map_eq_some_iff.mpr ⟨s', hs, rfl⟩⟩
    · rintro ⟨j, hj, hp⟩
      obtain ⟨s, hs, rfl⟩ := Option.map_eq_some_iff.mp hp
      have hmember := (Dictionary.get?_ofList_eq_some_iff hnames).mp hj
      have hpair : (name, s) ∈ queryPairs members :=
        List.mem_filterMap.mpr ⟨(name, j), hmember, by rw [hs]; rfl⟩
      exact List.mem_map.mpr ⟨(name, s), List.mem_reverse.mpr (hpairs.mem_iff.mpr hpair), rfl⟩
  · rw [List.pairwise_map, List.pairwise_reverse]
    exact (hpairs.symm.pairwise (queryPairs_distinct hnames) Ne.symm).imp Ne.symm

/-- What can be said in both forms gives parameters that cannot be told apart. -/
theorem rel_of_expressible {spec : QuerySpec γ} {name : String} {j : Json}
    (h : spec.Expressible name j) :
    Option.Rel (spec.Interchangeable name) (ofMember? j) (j.queryText?.map .text) := by
  cases h with
  | null => exact .none
  | @scalar j s hs =>
      have hmember : ofMember? j = some (.json j) :=
        ofMember?_eq_some_iff.mpr ⟨by rintro rfl; exact absurd hs nofun, rfl⟩
      have htext : j.queryText? = some s := by
        cases j with
        | array items => exact absurd hs nofun
        | _ => exact hs
      rw [hmember, htext]
      exact .some (.everywhere (Parameter.sameViews_of_scalar hs))
  | @items items texts hlist hitems hcommas =>
      have htext : (Json.array items).queryText? = some (commaJoined texts) := by
        show (items.mapM Parameter.scalarText?).map commaJoined = _
        rw [hitems]
        rfl
      have hlists := Parameter.toList?_commaJoined hitems hcommas
      rw [htext]
      exact .some (.inLists hlist hlists rfl)

end Parameters

namespace QuerySpec

/-- **A query string and a body that say the same are the same query.**

Whatever a specification declares, a body of scalars, of nulls, and of arrays where only
lists are wanted, is read like the query string with the texts of its members, in any
order.  Either the parameters are refused with the same error, or the same calls are made
on a query in the same order and lead to the same rows, the same number or the same
error. -/
theorem forms_agree (spec : QuerySpec γ) {members : List (String × Json)}
    {pairs : List (String × String)} (hnames : members.Pairwise fun m m' => m.1 ≠ m'.1)
    (hmembers : ∀ m ∈ members, spec.Expressible m.1 m.2)
    (hpairs : pairs.Perm (queryPairs members)) :
    SameOutcome
      (fun ps ps' => spec.apply ps = spec.apply ps' ∧
        ∀ {ρ σ : Type} (q : QueryObject γ ρ σ) (s : σ),
          (spec.list ps).carryOut q s = (spec.list ps').carryOut q s ∧
            (spec.count ps).carryOut q s = (spec.count ps').carryOut q s)
      (Parameters.ofBody (.object members)) (Parameters.ofPairs pairs) := by
  obtain ⟨d, hd, hget⟩ := Parameters.ofBody_object members
  obtain ⟨d', hd', hget'⟩ := Parameters.ofPairs_queryPairs hnames hpairs
  have hrel : ∀ name, Option.Rel (spec.Interchangeable name) (d.get? name) (d'.get? name) := by
    intro name
    rw [hget, hget']
    cases hj : (Dictionary.ofList members).get? name with
    | none => exact .none
    | some j =>
        have hmember := (Dictionary.get?_ofList_eq_some_iff hnames).mp hj
        exact Parameters.rel_of_expressible (hmembers _ hmember)
  rw [hd, hd']
  refine (Parameters.ofDictionary_alike hrel).mono fun ps ps' h => ⟨apply_alike h, fun q s => ?_⟩
  rw [list_alike h, count_alike h]
  exact ⟨rfl, rfl⟩

/-- An array with a number among its items, a null, a truth value and a bound. -/
theorem forms_agree_tenants :
    let items : List Json := [.string "t1", .number (.integer 2 (by decide))]
    let members : List (String × Json) := [("tenantIdIn", .array items), ("sortBy", .null),
      ("compact", .bool true), ("maxResults", .number (.integer 10 (by decide)))]
    let pairs := [("maxResults", "10"), ("compact", "true"), ("tenantIdIn", "t1,2")]
    SameOutcome (fun ps ps' => CleanableReport.spec.apply ps = CleanableReport.spec.apply ps')
      (Parameters.ofBody (.object members)) (Parameters.ofPairs pairs) := by
  intro items members pairs
  have hlist : CleanableReport.spec.ListOnly "tenantIdIn" :=
    ⟨by decide, by simp [CleanableReport.spec],
      by simp [CleanableReport.spec, FilterSetter.partner?]⟩
  have hitems : items.mapM Parameter.scalarText? = some ["t1", "2"] := by decide +kernel
  have hmembers : ∀ m ∈ members, CleanableReport.spec.Expressible m.1 m.2 := by
    simp only [members, List.forall_mem_cons]
    exact ⟨.items hlist hitems (by decide), .null, .scalar rfl, .scalar rfl, nofun⟩
  have hpairs : pairs.Perm (queryPairs members) := by decide +kernel
  exact (forms_agree CleanableReport.spec (by simp [members]) hmembers hpairs).mono
    fun _ _ h => h.1

end QuerySpec

end CaseGateway
