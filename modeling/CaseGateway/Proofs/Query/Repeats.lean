/-
Names that are given again, and the order they are given in.

Of several values under one name the first counts, so a query string is as good as the list of its
values that count, in whatever order: nothing that stands behind the first value of its name can
do anything, not even fail.  That is one lemma, `ofPairs_congr`, and what is said of repetitions
and of order are facts about which values come first.

What can be wrong with a query string is one of the two numbers for paging.  Parameters are read
in the order of their names, and a fault ends the reading, so the fault that is reported is that
of the smaller name, wherever it stood.
-/
import CaseGateway.Proofs.Query.Pairs
import Mathlib.Data.List.OfFn
import Mathlib.Logic.Equiv.Defs

namespace CaseGateway.Parameters

section Pairs

variable {pairs pairs' : List (String × String)} {name : String}

/-! ### Which values come first -/

theorem firstOf?_append :
    firstOf? (pairs ++ pairs') name = (firstOf? pairs name).or (firstOf? pairs' name) := by
  rw [firstOf?, List.find?_append, firstOf?, firstOf?]
  cases pairs.find? (·.1 == name) <;> rfl

/-- The pairs without those whose name has been there before. -/
def withoutRepeats : List (String × String) → List (String × String)
  | [] => []
  | e :: es => e :: (withoutRepeats es).filter fun other => other.1 != e.1

theorem firstOf?_withoutRepeats (pairs : List (String × String)) (name : String) :
    firstOf? (withoutRepeats pairs) name = firstOf? pairs name := by
  induction pairs with
  | nil => rfl
  | cons e es ih =>
      by_cases he : e.1 = name
      · simp [withoutRepeats, firstOf?, he]
      · have hkept : (name != e.1) = true := by simpa [bne_iff_ne] using Ne.symm he
        have hrest : firstOf? ((withoutRepeats es).filter fun other => other.1 != e.1) name
            = firstOf? es name :=
          (firstOf?_filter (p := (· != e.1)) hkept).trans ih
        simpa [withoutRepeats, firstOf?, he] using hrest

/-- A pair whose name has been there before does not count. -/
theorem firstOf?_repeated {before after : List (String × String)} {key value : String}
    (h : ∃ e ∈ before, e.1 = key) :
    firstOf? (before ++ (key, value) :: after) name = firstOf? (before ++ after) name := by
  rw [firstOf?_append, firstOf?_append]
  by_cases hname : key = name
  · obtain ⟨e, hmem, he⟩ := h
    obtain ⟨first, hfirst⟩ : ∃ first, before.find? (·.1 == name) = some first := by
      rw [← Option.isSome_iff_exists, List.find?_isSome]
      exact ⟨e, hmem, by simp [he, hname]⟩
    simp [firstOf?, hfirst]
  · simp [firstOf?, hname]

/-- The pairs in another order: at each place stands the pair from the place that it is sent to. -/
def arranged (pairs : List (String × String)) (order : Equiv.Perm (Fin pairs.length)) :
    List (String × String) :=
  List.ofFn fun i => pairs.get (order i)

/-- An order that leaves the first pair of each name in front of all others of the name. -/
def KeepsFirst (pairs : List (String × String)) (order : Equiv.Perm (Fin pairs.length)) : Prop :=
  ∀ i j, (pairs.get (order j)).1 = (pairs.get (order i)).1 →
    (∀ k < order i, (pairs.get k).1 ≠ (pairs.get (order i)).1) → i ≤ j

theorem firstOf?_arranged {order : Equiv.Perm (Fin pairs.length)} (h : KeepsFirst pairs order)
    (name : String) : firstOf? (arranged pairs order) name = firstOf? pairs name := by
  unfold firstOf?
  congr 1
  cases hfind : pairs.find? (·.1 == name) with
  | none =>
      rw [List.find?_eq_none] at hfind ⊢
      intro e he
      obtain ⟨i, rfl⟩ := List.mem_ofFn.mp he
      exact hfind _ (List.get_mem _ _)
  | some e =>
      obtain ⟨hname, k, hk, rfl, hbefore⟩ := List.find?_eq_some_iff_getElem.mp hfind
      have hkey : pairs[k].1 = name := by simpa using hname
      -- The first pair of the name has come to the place `i`, and no other is in front of it there.
      obtain ⟨i, hi⟩ := order.surjective ⟨k, hk⟩
      have hget : pairs.get (order i) = pairs[k] := by rw [hi]; rfl
      refine List.find?_eq_some_iff_getElem.mpr ⟨hname, i, by simp [arranged], ?_, ?_⟩
      · simpa [arranged] using hget
      · intro j hj
        have hlt : j < pairs.length := Nat.lt_trans hj i.isLt
        have hfront : ¬i ≤ ⟨j, hlt⟩ := Nat.not_le.mpr hj
        have hne : (pairs.get (order ⟨j, hlt⟩)).1 ≠ name := by
          intro heq
          refine hfront (h i ⟨j, hlt⟩ (by rw [heq, hget, hkey]) ?_)
          intro k' hk' heq'
          rw [hget, hkey] at heq'
          rw [hi] at hk'
          exact absurd (hbefore k' hk') (by simpa using heq')
        simpa [arranged] using hne

end Pairs

/-- **Nothing but the values that count matters.** -/
theorem ofPairs_congr {pairs pairs' : List (String × String)}
    (h : ∀ name, firstOf? pairs name = firstOf? pairs' name) : ofPairs pairs = ofPairs pairs' := by
  unfold ofPairs
  congr 1
  refine Dictionary.ext_get? fun name => ?_
  rw [get?_ofList_reverse, get?_ofList_reverse, h]

/-! ### Which fault is reported -/

/-- What is wrong with a value under a name, if it has to be converted and cannot be. -/
def refusal? (name : String) (p : Parameter) : Option RestError :=
  if name ∈ ["firstResult", "maxResults"] ∧ p.toInteger?.isNone ∨
      name ∈ ["sortBy", "sortOrder"] ∧ p.toText?.isNone then
    some (Parameter.conversionError name p)
  else none

theorem add_eq_error_iff {ps : Parameters} {name : String} {p : Parameter} {e : RestError} :
    ps.add name p = .error e ↔ refusal? name p = some e := by
  unfold add refusal? Parameter.require
  split
  · next hname =>
    subst hname
    cases p.toInteger? <;> simp [bind, Except.bind, pure, Except.pure]
  split
  · next hname =>
    subst hname
    cases p.toInteger? <;> simp [bind, Except.bind, pure, Except.pure]
  split
  · next hname =>
    subst hname
    cases p.toText? <;> simp [bind, Except.bind, pure, Except.pure]
  split
  · next hname =>
    subst hname
    cases p.toText? <;> simp [bind, Except.bind, pure, Except.pure]
  · next hfirst hmax hkey horder => simp [hfirst, hmax, hkey, horder]

/-- A reading fails with the first fault that it meets. -/
theorem foldlM_add_eq_error_iff {es : List (String × Parameter)} {e : RestError} :
    ∀ ps : Parameters, es.foldlM (fun ps e => ps.add e.1 e.2) ps = .error e ↔
      es.findSome? (fun e => refusal? e.1 e.2) = some e := by
  induction es with
  | nil => simp [pure, Except.pure]
  | cons entry es ih =>
      intro ps
      rw [List.foldlM_cons, List.findSome?_cons]
      cases hadd : ps.add entry.1 entry.2 with
      | error e' =>
          rw [add_eq_error_iff.mp hadd]
          simp [bind, Except.bind]
      | ok ps' =>
          have hnone : refusal? entry.1 entry.2 = none := by
            rw [Option.eq_none_iff_forall_ne_some]
            intro e' he'
            rw [add_eq_error_iff.mpr he'] at hadd
            cases hadd
          rw [hnone]
          exact ih ps'

/-- Among bindings in ascending order, that with the smallest of some keys is met first. -/
theorem findSome?_of_least {α β : Type} {f : String × α → Option β} {es : List (String × α)}
    (hascending : es.Pairwise fun a b => a.1 < b.1) {entry : String × α} (hmem : entry ∈ es) {b : β}
    (hb : f entry = some b) (hleast : ∀ other ∈ es, other.1 < entry.1 → f other = none) :
    es.findSome? f = some b := by
  induction es with
  | nil => simp at hmem
  | cons e es ih =>
      obtain ⟨he, hes⟩ := List.pairwise_cons.mp hascending
      rw [List.findSome?_cons]
      rcases List.mem_cons.mp hmem with rfl | hmem
      · rw [hb]
      · rw [hleast e List.mem_cons_self (he entry hmem)]
        exact ih hes hmem fun other hother => hleast other (List.mem_cons_of_mem e hother)

section Faults

variable {pairs : List (String × String)} {name s : String}

theorem refusal?_text {e : RestError} :
    refusal? name (.text s) = some e ↔ name ∈ ["firstResult", "maxResults"] ∧
      SizedInt.ofText? .integer s = none ∧ e = .invalidRequest (.parameter name s) := by
  have hinteger : (Parameter.text s).toInteger? = SizedInt.ofText? .integer s := rfl
  have htext : (Parameter.text s).toText? = some s := rfl
  have herror : Parameter.conversionError name (.text s) = .invalidRequest (.parameter name s) := rfl
  rw [refusal?, hinteger, htext, herror, eq_comm (a := e)]
  simp only [Option.isNone_iff_eq_none, reduceCtorEq, and_false, or_false,
    Option.ite_none_right_eq_some, Option.some.injEq, and_assoc]

/-- A value that counts under a name and is no number. -/
structure Faulty (pairs : List (String × String)) (name s : String) : Prop where
  counts : firstOf? pairs name = some s
  noNumber : SizedInt.ofText? .integer s = none

theorem ofPairs_of_faulty (hname : name ∈ ["firstResult", "maxResults"]) (h : Faulty pairs name s)
    (hleast : name = "maxResults" → ∀ s', ¬Faulty pairs "firstResult" s') :
    ofPairs pairs = .error (.invalidRequest (.parameter name s)) := by
  unfold ofPairs ofDictionary
  rw [foldlM_add_eq_error_iff]
  have hmem : (name, Parameter.text s)
      ∈ (Dictionary.ofList (pairs.reverse.map fun e => (e.1, Parameter.text e.2))).entries := by
    rw [Dictionary.mem_entries_iff, get?_ofList_reverse, h.counts]
    rfl
  refine findSome?_of_least (Dictionary.ascending _) hmem
    (refusal?_text.mpr ⟨hname, h.noNumber, rfl⟩) ?_
  · rintro ⟨other, p⟩ hmem hlt
    rw [Dictionary.mem_entries_iff, get?_ofList_reverse] at hmem
    obtain ⟨s', hcounts, rfl⟩ := Option.map_eq_some_iff.mp hmem
    rw [Option.eq_none_iff_forall_ne_some]
    intro e he
    obtain ⟨hother, hfault, -⟩ := refusal?_text.mp he
    simp only [List.mem_cons, List.not_mem_nil, or_false] at hname hother
    rcases hname with rfl | rfl <;> rcases hother with rfl | rfl
    · exact absurd hlt (String.lt_irrefl _)
    · exact absurd (show "maxResults" < "firstResult" from hlt) (by decide)
    · exact hleast rfl s' ⟨hcounts, hfault⟩
    · exact absurd hlt (String.lt_irrefl _)

/-- A query string is refused for one of the two numbers for paging, and for `firstResult` if both
are faulty. -/
theorem ofPairs_eq_error_iff {e : RestError} :
    ofPairs pairs = .error e ↔ ∃ name s, Faulty pairs name s ∧
      e = .invalidRequest (.parameter name s) ∧
      (name = "firstResult" ∨ name = "maxResults" ∧ ∀ s', ¬Faulty pairs "firstResult" s') := by
  constructor
  · intro h
    by_cases hfirst : ∃ s, Faulty pairs "firstResult" s
    · obtain ⟨s, hs⟩ := hfirst
      have herror := ofPairs_of_faulty (by decide) hs fun h => absurd h (by decide)
      exact ⟨_, s, hs, Except.error.inj (h.symm.trans herror), Or.inl rfl⟩
    by_cases hmax : ∃ s, Faulty pairs "maxResults" s
    · obtain ⟨s, hs⟩ := hmax
      have hleast := not_exists.mp hfirst
      have herror := ofPairs_of_faulty (by decide) hs fun _ => hleast
      exact ⟨_, s, hs, Except.error.inj (h.symm.trans herror), Or.inr ⟨rfl, hleast⟩⟩
    · obtain ⟨ps, hps⟩ : ∃ ps, ofPairs pairs = .ok ps := by
        refine exists_ofPairs fun name hname s hs => ?_
        rw [Option.isSome_iff_ne_none]
        intro hnone
        simp only [List.mem_cons, List.not_mem_nil, or_false] at hname
        rcases hname with rfl | rfl
        · exact hfirst ⟨s, hs, hnone⟩
        · exact hmax ⟨s, hs, hnone⟩
      rw [hps] at h
      cases h
  · rintro ⟨name, s, hs, rfl, rfl | ⟨rfl, hleast⟩⟩
    · exact ofPairs_of_faulty (by decide) hs fun h => absurd h (by decide)
    · exact ofPairs_of_faulty (by decide) hs fun _ => hleast

end Faults

/-- **Repetitions and order do not matter.**

A query string is read in the same way, to the same parameters or to the same error, when all
pairs are left out whose name has been there before, when such a pair is put in, whatever its
value, and in every order that leaves the first pair of each name in front of its likes.  What is
read for the filters goes by none of the four names that are set apart.  What can be wrong is that
a number for paging is none, and of two such faults that of `firstResult` is reported. -/
theorem repeats_ignored (pairs : List (String × String)) :
    ofPairs (withoutRepeats pairs) = ofPairs pairs ∧
    (∀ order, KeepsFirst pairs order → ofPairs (arranged pairs order) = ofPairs pairs) ∧
    (∀ before after key value, pairs = before ++ after → (∃ e ∈ before, e.1 = key) →
      ofPairs (before ++ (key, value) :: after) = ofPairs pairs) ∧
    (∀ ps, ofPairs pairs = .ok ps → ∀ name ∈ reserved, ps.filters.get? name = none) ∧
    (∀ s s', Faulty pairs "firstResult" s → Faulty pairs "maxResults" s' →
      ofPairs pairs = .error (.invalidRequest (.parameter "firstResult" s))) ∧
    ∀ e, ofPairs pairs = .error e ↔ ∃ name s, Faulty pairs name s ∧
      e = .invalidRequest (.parameter name s) ∧
      (name = "firstResult" ∨ name = "maxResults" ∧ ∀ s', ¬Faulty pairs "firstResult" s') := by
  refine ⟨ofPairs_congr (firstOf?_withoutRepeats pairs),
    fun order h => ofPairs_congr (firstOf?_arranged h), ?_, ?_, ?_, fun e => ofPairs_eq_error_iff⟩
  · rintro before after key value rfl hkey
    exact ofPairs_congr fun name => firstOf?_repeated hkey
  · intro ps hps name hname
    exact ((ofPairs_eq_ok_iff.mp hps).filters name).trans (if_pos hname)
  · intro s s' hs _
    exact ofPairs_eq_error_iff.mpr ⟨_, s, hs, rfl, Or.inl rfl⟩

/-- With two faulty numbers for paging, a second `maxResults` that is none either is ignored, and so
is it that `firstResult` came last: the two places are exchanged, and `firstResult` is reported. -/
theorem repeats_ignored_paging :
    let pairs := [("maxResults", "ten"), ("name", "loan"), ("firstResult", "-")]
    KeepsFirst pairs (Equiv.swap 0 2) ∧
    ofPairs (arranged pairs (Equiv.swap 0 2)) = ofPairs pairs ∧
    ofPairs (pairs ++ [("maxResults", "5x")]) = ofPairs pairs ∧
    ofPairs pairs = .error (.invalidRequest (.parameter "firstResult" "-")) := by
  intro pairs
  obtain ⟨-, harranged, hrepeated, -, hboth, -⟩ := repeats_ignored pairs
  have horder : KeepsFirst pairs (Equiv.swap 0 2) := by
    unfold KeepsFirst
    decide
  exact ⟨horder, harranged _ horder,
    hrepeated pairs [] _ _ (List.append_nil _).symm ⟨_, List.mem_cons_self, rfl⟩,
    hboth "-" "ten" ⟨by decide, by decide +kernel⟩ ⟨by decide, by decide +kernel⟩⟩

end CaseGateway.Parameters
