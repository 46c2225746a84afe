/-
Entries of the log and the times they are shown with.

An entry is stored with the time it comes with, and compared by it.  Its listing shows whole
seconds.  Who takes the shown time for a bound therefore asks for entries up to, or from, the
start of a second, and not for those in the rest of it.  As an upper bound the shown time misses
the entry itself, unless the entry has no part of a second; as a lower bound it
holds, but for leap seconds: most of these are shown as the second that follows, so it is the
lower bound that misses them.

Both bounds are inclusive, and nothing is lost between the text and the bound that is read from
it.  It is the entry that is kept in another precision than that in which times travel.
-/
import CaseGateway.Proofs.Http.Listings
import CaseGateway.Proofs.Value.LeapSeconds

namespace CaseGateway

namespace Timestamp

/-! ### Times and what they are shown as -/

/-- Of two times in the same minute, the seconds decide and then the parts of a second. -/
theorem notAfter_iff_of_minute {t u : Timestamp}
    (h : t.numbers.take 5 = u.numbers.take 5) :
    t.NotAfter u ↔ t.second < u.second ∨ t.second = u.second ∧ t.nanosecond ≤ u.nanosecond := by
  simp only [numbers, List.take_succ_cons, List.take_zero, List.cons.injEq, and_true] at h
  obtain ⟨hyear, hmonth, hday, hhour, hminute⟩ := h
  simp only [NotAfter, numbers, AtMost, hyear, hmonth, hday, hhour, hminute, Int.lt_irrefl,
    true_and, false_or, and_true]
  omega

theorem shown_take (t : Timestamp) : t.shown.numbers.take 5 = t.numbers.take 5 := by
  unfold shown
  split
  · rfl
  · split <;> rfl

/-- What is shown of the second and of its parts. -/
theorem shown_second (t : Timestamp) :
    (t.nanosecond < 1000000000 ∧ t.shown.second = t.second ∧ t.shown.nanosecond = 0) ∨
      (1000000000 ≤ t.nanosecond ∧ t.second = 59 ∧ t.shown.second = 59 ∧
        t.shown.nanosecond = 1000000000) ∨
      (1000000000 ≤ t.nanosecond ∧ t.second ≠ 59 ∧ t.shown.second = t.second + 1 ∧
        t.shown.nanosecond = 0) := by
  unfold shown
  by_cases hleap : t.nanosecond < 1000000000
  · rw [if_pos hleap]
    exact Or.inl ⟨hleap, rfl, rfl⟩
  · rw [if_neg hleap]
    by_cases hlast : t.second = 59
    · rw [dif_pos hlast]
      exact Or.inr (Or.inl ⟨by omega, hlast, hlast, rfl⟩)
    · rw [dif_neg hlast]
      exact Or.inr (Or.inr ⟨by omega, hlast, rfl, rfl⟩)

/-- A time is no later than what it is shown as if it is shown as it is, or as a later second. -/
theorem notAfter_shown_iff (t : Timestamp) :
    t.NotAfter t.shown ↔ t.nanosecond = 0 ∨
      1000000000 ≤ t.nanosecond ∧ (t.second ≠ 59 ∨ t.nanosecond = 1000000000) := by
  rw [notAfter_iff_of_minute t.shown_take.symm]
  have hsecond := t.shown_second
  omega

/-- A time is no earlier than what it is shown as, unless it is shown as a later second. -/
theorem shown_notAfter_iff (t : Timestamp) :
    t.shown.NotAfter t ↔ t.nanosecond < 1000000000 ∨ t.second = 59 := by
  rw [notAfter_iff_of_minute t.shown_take]
  have hsecond := t.shown_second
  omega

end Timestamp

namespace IdentityLink

/-! ### Bounds and nothing else -/

/-- The time of an entry is within the bounds that are given. -/
def Within (before after : Option Timestamp) (l : IdentityLink) : Prop :=
  (∀ bound ∈ before, l.time.NotAfter bound) ∧ ∀ bound ∈ after, bound.NotAfter l.time

instance (before after : Option Timestamp) (l : IdentityLink) : Decidable (l.Within before after) :=
  inferInstanceAs (Decidable (_ ∧ _))

/-- A query string asks for bounds on the time and for nothing else. -/
structure Bounds (pairs : List (String × String)) (before after : Option String) : Prop where
  before : firstOf? pairs "dateBefore" = before
  after : firstOf? pairs "dateAfter" = after
  others : ∀ name ∉ ["dateBefore", "dateAfter"], firstOf? pairs name = none

/-- The values that ask for bounds. -/
def boundPairs (before after : Option String) : List (String × String) :=
  (before.map fun text => ("dateBefore", text)).toList ++
    (after.map fun text => ("dateAfter", text)).toList

theorem bounds_boundPairs (before after : Option String) :
    Bounds (boundPairs before after) before after := by
  refine ⟨?_, ?_, fun name hname => ?_⟩
  · cases before <;> cases after <;> rfl
  · cases before <;> cases after <;> rfl
  · simp only [List.mem_cons, List.not_mem_nil, or_false, not_or] at hname
    cases before <;> cases after <;>
      simp [firstOf?, boundPairs, Ne.symm hname.1, Ne.symm hname.2]

section Bounds

variable {pairs : List (String × String)} {before after : Option String} {ps : Parameters}

theorem Bounds.get?_none (h : Bounds pairs before after) (hps : Parameters.ofPairs pairs = .ok ps)
    {name : String} (hname : name ∉ ["dateBefore", "dateAfter"]) : ps.get? name = none := by
  rw [(Parameters.ofPairs_eq_ok_iff.mp hps).filters, h.others name hname]
  exact ite_self none

/-- The times that a query spells are those of its bounds. -/
theorem spellsTime_of_ofPairs (hps : Parameters.ofPairs pairs = .ok ps) {name : String}
    (hname : name ∉ Parameters.reserved) {t : Timestamp} :
    ps.SpellsTime name t ↔ t ∈ (firstOf? pairs name).bind Timestamp.parse? := by
  rw [Parameters.spellsTime_iff, Parameters.time?, Parameters.get?_of_ofPairs hps hname]
  exact iff_of_eq (congrArg (t ∈ ·) (Option.bind_map ..))

/-- Bounds describe the entries within them. -/
theorem Bounds.describedBy_iff (h : Bounds pairs before after)
    (hps : Parameters.ofPairs pairs = .ok ps) (l : IdentityLink) :
    l.DescribedBy ps ↔ l.Within (before.bind Timestamp.parse?) (after.bind Timestamp.parse?) := by
  have hequals {name : String} {field : Option String}
      (hname : name ∉ ["dateBefore", "dateAfter"]) : ps.Equals name field :=
    fun s hs => absurd hs (Parameters.not_spells (h.get?_none hps hname) s)
  have honeOf : ps.OneOf "tenantIdIn" l.tenantId :=
    fun items hitems => absurd hitems (Parameters.not_lists (h.get?_none hps (by decide)) items)
  have hbefore (t : Timestamp) : ps.SpellsTime "dateBefore" t ↔ t ∈ before.bind Timestamp.parse? :=
    h.before ▸ spellsTime_of_ofPairs hps (by decide)
  have hafter (t : Timestamp) : ps.SpellsTime "dateAfter" t ↔ t ∈ after.bind Timestamp.parse? :=
    h.after ▸ spellsTime_of_ofPairs hps (by decide)
  simp only [DescribedBy, Within, Parameters.Bounds, hbefore, hafter]
  constructor
  · rintro ⟨-, -, -, hupper, hlower, -⟩
    exact ⟨hupper, hlower⟩
  · rintro ⟨hupper, hlower⟩
    exact ⟨hequals (by decide), hequals (by decide), hequals (by decide), hupper, hlower,
      hequals (by decide), hequals (by decide), hequals (by decide), hequals (by decide),
      hequals (by decide), honeOf⟩

/-- Only a bound that cannot be read is wrong with them. -/
theorem Bounds.exists_bound (h : Bounds pairs before after)
    (hps : Parameters.ofPairs pairs = .ok ps)
    (hbefore : ∀ text ∈ before, (Timestamp.parse? text).isSome)
    (hafter : ∀ text ∈ after, (Timestamp.parse? text).isSome) :
    ∃ calls, QuerySpec.Bound ps spec.filters calls := by
  refine QuerySpec.exists_bound fun f hmem e hf => ?_
  have hunset {name : String} {p : Parameter} (hp : ps.get? name = some p)
      (hname : name ∉ ["dateBefore", "dateAfter"]) : False := by
    rw [h.get?_none hps hname] at hp
    cases hp
  have hread {name : String} {p : Parameter} {given : Option String}
      (hgiven : firstOf? pairs name = given) (hname : name ∉ Parameters.reserved)
      (htexts : ∀ text ∈ given, (Timestamp.parse? text).isSome) (hp : ps.get? name = some p)
      (ht : p.toTimestamp? = none) : False := by
    rw [Parameters.get?_of_ofPairs hps hname, hgiven] at hp
    obtain ⟨text, htext, rfl⟩ := Option.map_eq_some_iff.mp hp
    exact absurd (htexts text htext) (by rw [show Timestamp.parse? text = none from ht]; decide)
  cases hf with
  | text hp _ | list hp _ =>
      refine hunset hp fun hname => ?_
      simp only [List.mem_cons, List.not_mem_nil, or_false] at hname
      rcases hname with rfl | rfl <;> simp [spec] at hmem
  | date hp ht =>
      simp only [spec, List.mem_cons, Filter.mk.injEq, FilterSetter.date.injEq, reduceCtorEq,
        and_false, false_or, or_false, List.not_mem_nil] at hmem
      rcases hmem with ⟨rfl, -⟩ | ⟨rfl, -⟩
      · exact hread h.before (by decide) hbefore hp ht
      · exact hread h.after (by decide) hafter hp ht
  | flag _ _ | alone _ _ | partner _ _ _ | paired _ _ _ _ => simp [spec] at hmem

/-- Bounds that can be read are accepted. -/
theorem Bounds.asks (h : Bounds pairs before after)
    (hbefore : ∀ text ∈ before, (Timestamp.parse? text).isSome)
    (hafter : ∀ text ∈ after, (Timestamp.parse? text).isSome) :
    ∃ ps, Http.Asks .links pairs ps true ∧ ps.firstResult = none ∧ ps.maxResults = none := by
  obtain ⟨ps, hps, hunpaged⟩ :=
    Parameters.exists_unpaged (h.others _ (by decide)) (h.others _ (by decide))
  obtain ⟨calls, hcalls⟩ := h.exists_bound hps hbefore hafter
  obtain ⟨hkey, horder⟩ := Parameters.sorting_of_ofPairs hps
  have hsorting : spec.Sorts ps [] :=
    .unsorted (hkey.trans (h.others _ (by decide))) (horder.trans (h.others _ (by decide)))
  exact ⟨ps, ⟨hps, rfl, _, .complete hcalls hsorting⟩, hunpaged⟩

end Bounds

end IdentityLink

namespace Http

variable {config : Config} {s : Store} {r : Request} {pairs : List (String × String)}

/-- The log between bounds. -/
theorem Request.Queries.serve_bounds {before after : Option String}
    (h : r.Queries config .links pairs) (hbounds : IdentityLink.Bounds pairs before after)
    (hbefore : ∀ text ∈ before, (Timestamp.parse? text).isSome)
    (hafter : ∀ text ∈ after, (Timestamp.parse? text).isSome) :
    ∃ rows : List IdentityLink,
      rows.Perm (s.links.filter fun l =>
        l.Within (before.bind Timestamp.parse?) (after.bind Timestamp.parse?)) ∧
      (serve config r s).1 = .json 200 (.array (rows.map IdentityLink.toJson)) := by
  obtain ⟨ps, hasks, hunpaged⟩ := hbounds.asks hbefore hafter
  obtain ⟨rows, hperm, hrows⟩ := h.serve_of_asks hasks s
  rw [Parameters.cut_of_unpaged hunpaged] at hrows
  refine ⟨rows, hperm.trans (.of_eq (List.filter_congr fun l _ => ?_)), hrows⟩
  exact decide_eq_decide.mpr (hbounds.describedBy_iff hasks.parameters l)

/-- **An entry is found by the time it is shown with if that is not before its own.**

The time that an entry is shown with is accepted as an upper bound, as a lower one, and as both,
and the log responds with the entries that are within the bounds.  The entry is among them just
if, for an upper bound, it is shown as it is or as a later second, and for a lower one, it is not
shown as a later second.  Leap seconds at the end of a minute are shown as such, without their
parts, and all others as the second that follows. -/
theorem found_by_shown_time_iff {l : IdentityLink} (hl : l ∈ s.links) {shown : String}
    (hshown : l.toJson.part? "time" = some (.string shown)) (before after : Bool)
    (hr : r.Queries config .links pairs)
    (hbounds : IdentityLink.Bounds pairs (if before then some shown else none)
      (if after then some shown else none)) :
    ∃ rows : List IdentityLink,
      (serve config r s).1 = .json 200 (.array (rows.map IdentityLink.toJson)) ∧
      rows.Perm (s.links.filter fun m =>
        (before → m.time.NotAfter l.time.shown) ∧ (after → l.time.shown.NotAfter m.time)) ∧
      (l ∈ rows ↔
        (before → l.time.nanosecond = 0 ∨
          1000000000 ≤ l.time.nanosecond ∧
            (l.time.second ≠ 59 ∨ l.time.nanosecond = 1000000000)) ∧
        (after → l.time.nanosecond < 1000000000 ∨ l.time.second = 59)) := by
  obtain rfl : l.time.text = shown := Json.string.inj (Option.some.inj hshown)
  have hparse := l.time.parse?_text_shown
  have hread (given : Bool) (text : String)
      (htext : text ∈ if given then some l.time.text else none) :
      (Timestamp.parse? text).isSome := by
    obtain ⟨-, htext⟩ := Option.ite_none_right_eq_some.mp htext
    rw [← Option.some.inj htext, hparse]
    rfl
  have hbound (given : Bool) :
      (if given then some l.time.text else none).bind Timestamp.parse?
        = if given then some l.time.shown else none := by
    cases given
    · rfl
    · exact hparse
  obtain ⟨rows, hperm, hrows⟩ := hr.serve_bounds (s := s) hbounds (hread before) (hread after)
  have hwithin (m : IdentityLink) :
      m.Within (if before then some l.time.shown else none)
          (if after then some l.time.shown else none)
        ↔ (before → m.time.NotAfter l.time.shown) ∧ (after → l.time.shown.NotAfter m.time) := by
    unfold IdentityLink.Within
    cases before <;> cases after <;> simp
  rw [hbound, hbound] at hperm
  simp only [hwithin] at hperm
  refine ⟨rows, hrows, hperm, ?_⟩
  rw [hperm.mem_iff, List.mem_filter, decide_eq_true_iff, l.time.notAfter_shown_iff,
    l.time.shown_notAfter_iff]
  exact and_iff_right hl

/-- An entry of ten sharp is found between ten and ten, and one of half a second later is not. -/
theorem found_by_shown_time_iff_sharp :
    let sharp : IdentityLink :=
      ⟨"l1", ⟨2014, 4, 28, 10, 0, 0, 0, by decide⟩, none, none, none, none, none, none, none, none,
        none⟩
    let half : IdentityLink :=
      { sharp with id := "l2", time := ⟨2014, 4, 28, 10, 0, 0, 500000000, by decide⟩ }
    let s := (Store.empty.insertLink sharp).insertLink half
    let r : Request :=
      ⟨.get, "/engine-rest/history/identity-link-log",
        "dateBefore=2014-04-28T10:00:00&dateAfter=2014-04-28T10:00:00", none, []⟩
    sharp.toJson.part? "time" = some (.string "2014-04-28T10:00:00") ∧
      half.toJson.part? "time" = some (.string "2014-04-28T10:00:00") ∧
      (serve Config.standard r s).1 = .json 200 (.array [sharp.toJson]) := by
  intro sharp half s r
  have hshown (l : IdentityLink) (h : l.time.text = "2014-04-28T10:00:00") :
      l.toJson.part? "time" = some (.string "2014-04-28T10:00:00") := h ▸ rfl
  have hr : r.Queries Config.standard .links
      (IdentityLink.boundPairs (some "2014-04-28T10:00:00") (some "2014-04-28T10:00:00")) :=
    ⟨rfl, rfl, by decide +kernel⟩
  have hsharp := hshown sharp (by decide +kernel)
  refine ⟨hsharp, hshown half (by decide +kernel), ?_⟩
  obtain ⟨rows, hrows, hperm, -⟩ := found_by_shown_time_iff (s := s) (l := sharp) (by decide) hsharp
    true true hr (IdentityLink.bounds_boundPairs _ _)
  have hfound : rows.Perm [sharp] := hperm.trans (.of_eq (by decide +kernel))
  rw [hrows, List.perm_singleton.mp hfound]
  rfl

/-- An entry of half a second past ten is shown with ten, and is not found by that as an upper
bound, be it alone or with the same lower one. -/
theorem half_second_not_found :
    let half : IdentityLink :=
      ⟨"l1", ⟨2014, 4, 28, 10, 0, 0, 500000000, by decide⟩, none, none, none, none, none, none,
        none, none, none⟩
    let s := Store.empty.insertLink half
    let r : Request := ⟨.get, "/engine-rest/history/identity-link-log", "", none, []⟩
    let upper := { r with queryString := "dateBefore=2014-04-28T10:00:00" }
    let both :=
      { r with queryString := "dateBefore=2014-04-28T10:00:00&dateAfter=2014-04-28T10:00:00" }
    half.toJson.part? "time" = some (.string "2014-04-28T10:00:00") ∧
      (serve Config.standard r s).1 = .json 200 (.array [half.toJson]) ∧
      (serve Config.standard upper s).1 = .json 200 (.array []) ∧
      (serve Config.standard both s).1 = .json 200 (.array []) := by
  intro half s r upper both
  have htext : half.time.text = "2014-04-28T10:00:00" := by decide +kernel
  have hread : ∀ text ∈ some "2014-04-28T10:00:00", (Timestamp.parse? text).isSome := by
    rintro text ⟨⟩
    rw [← htext, Timestamp.parse?_text_shown]
    rfl
  have hnone (q : Request) (after : Option String)
      (hq : q.Queries Config.standard .links
        (IdentityLink.boundPairs (some "2014-04-28T10:00:00") after))
      (hafter : ∀ text ∈ after, (Timestamp.parse? text).isSome) :
      (serve Config.standard q s).1 = .json 200 (.array []) := by
    obtain ⟨rows, hperm, hrows⟩ :=
      hq.serve_bounds (s := s) (IdentityLink.bounds_boundPairs _ _) hread hafter
    have hlate : ¬half.time.NotAfter half.time.shown := by decide +kernel
    have hout : rows.Perm [] := by
      refine hperm.trans (.of_eq (List.filter_eq_nil_iff.mpr fun l hl hwithin => ?_))
      rw [List.mem_singleton.mp hl, ← htext, Option.bind_some, Timestamp.parse?_text_shown,
        decide_eq_true_iff] at hwithin
      exact hlate (hwithin.1 _ rfl)
    rw [hrows, List.perm_nil.mp hout]
    rfl
  refine ⟨congrArg (fun text => some (Json.string text)) htext, ?_, ?_, ?_⟩
  · have hall : r.Queries Config.standard .links (IdentityLink.boundPairs none none) :=
      ⟨rfl, rfl, by decide +kernel⟩
    obtain ⟨rows, hperm, hrows⟩ :=
      hall.serve_bounds (s := s) (IdentityLink.bounds_boundPairs _ _) (by simp) (by simp)
    have hfound : rows.Perm [half] := hperm.trans (.of_eq (by decide +kernel))
    rw [hrows, List.perm_singleton.mp hfound]
    rfl
  · exact hnone upper none ⟨rfl, rfl, by decide +kernel⟩ (by simp)
  · exact hnone both (some "2014-04-28T10:00:00") ⟨rfl, rfl, by decide +kernel⟩ hread

end Http

end CaseGateway
