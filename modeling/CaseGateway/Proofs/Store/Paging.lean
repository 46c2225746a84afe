/-
Pages, counts and whole listings.

A page is cut out of the same rows that are listed as a whole, and a count is their number,
because paging has no part in the calls that are made on a query: whether these fail does
not depend on it, and the store answers equal queries equally, whatever the sorting leaves
undecided.

Pages of a fixed size are then a matter of lists.  `multiplesBelow` says where they begin,
and going through these places one number at a time the rows are gathered without a gap.
-/
import CaseGateway.Proofs.Store.Listing
import Mathlib.Data.List.Permutation

namespace CaseGateway

/-! ### Pages of a list -/

/-- The multiples of a number below another one, in ascending order. -/
def multiplesBelow (m n : Nat) : List Nat :=
  (List.range n).filter fun k => m ∣ k

theorem multiplesBelow_succ (m n : Nat) :
    multiplesBelow m (n + 1) = multiplesBelow m n ++ if m ∣ n then [n] else [] := by
  by_cases h : m ∣ n
  · simp [multiplesBelow, List.range_succ, h]
  · simp [multiplesBelow, List.range_succ, h]

theorem lt_of_mem_multiplesBelow {m n k : Nat} (h : k ∈ multiplesBelow m n) : k < n :=
  List.mem_range.mp (List.mem_of_mem_filter h)

/-- The pages that begin below `n` hold the rows up to the end of the last one of them. -/
theorem flatMap_multiplesBelow {ρ : Type} {m : Nat} (hm : 0 < m) (rows : List ρ) (n : Nat) :
    ((multiplesBelow m n).flatMap fun k => (rows.drop k).take m)
      = rows.take ((n + (m - 1)) / m * m) := by
  induction n with
  | zero =>
      have hnone : (0 + (m - 1)) / m = 0 := Nat.div_eq_of_lt (by omega)
      rw [hnone]
      simp [multiplesBelow]
  | succ n ih =>
      have hsucc : (n + 1 + (m - 1)) / m = (n + (m - 1)) / m + if m ∣ n then 1 else 0 := by
        have hdvd : m ∣ n + (m - 1) + 1 ↔ m ∣ n := by
          rw [Nat.add_assoc, Nat.sub_add_cancel hm]
          exact (Nat.dvd_add_iff_left (Nat.dvd_refl m)).symm
        rw [Nat.add_right_comm, Nat.succ_div, if_congr hdvd rfl rfl]
      rw [multiplesBelow_succ, List.flatMap_append, ih, hsucc]
      split
      · rename_i hdvd
        obtain ⟨k, rfl⟩ := hdvd
        have hend : (m * k + (m - 1)) / m * m = m * k := by
          rw [Nat.mul_add_div hm, Nat.div_eq_of_lt (by omega : m - 1 < m), Nat.add_zero, Nat.mul_comm]
        rw [Nat.add_mul, Nat.one_mul, hend, List.take_add]
        simp
      · simp

/-- All pages together are the whole list. -/
theorem flatMap_pages {ρ : Type} {m : Nat} (hm : 0 < m) (rows : List ρ) :
    ((multiplesBelow m rows.length).flatMap fun k => (rows.drop k).take m) = rows := by
  rw [flatMap_multiplesBelow hm]
  refine List.take_of_length_le ?_
  have hdiv := Nat.div_add_mod (rows.length + (m - 1)) m
  have hmod := Nat.mod_lt (rows.length + (m - 1)) hm
  rw [Nat.mul_comm] at hdiv
  omega

/-! ### Paged queries -/

/-- These parameters with the bounds of a page. -/
def Parameters.paged (ps : Parameters) (first max : Option (SizedInt .integer)) : Parameters :=
  ps.withPagingFrom { Parameters.empty with firstResult := first, maxResults := max }

/-- The rows of a page: those in front of it are left out, and so are those behind it.  Negative
bounds count as zero. -/
def page {ρ : Type} (first max : Option (SizedInt .integer)) (rows : List ρ) : List ρ :=
  (rows.drop ((first.map SizedInt.val).getD 0).toNat).take
    ((max.map SizedInt.val).getD 2147483647).toNat

namespace Store

variable {γ ρ χ ε κ : Type}

/-- What comes of a listing. -/
def listed (s : Store) (c : Collection γ ρ) (ps : Parameters) : Except RestError (List ρ) :=
  ((c.spec.list ps).carryOut (s.queryObject c) []).1

/-- What comes of a count. -/
def counted (s : Store) (c : Collection γ ρ) (ps : Parameters) : Except RestError Nat :=
  ((c.spec.count ps).carryOut (s.queryObject c) []).1

/-- A count and a page make something of the rows that are listed. -/
theorem query_of_list [Queryable ρ χ ε κ] {α : Type} {execution : Execution ρ α} {f : List ρ → α}
    (hf : ∀ rows, execution.result rows = .ok (f rows)) (stored : List ρ)
    (calls : List (QueryCall χ ε κ)) :
    query stored calls execution = (query stored calls .list).map f := by
  unfold query
  cases (Selection.ofCalls calls).run stored with
  | error e => rfl
  | ok rows => exact hf rows

theorem runQuery_of_list {α : Type} {execution : Execution ρ α} {f : List ρ → α}
    (hf : ∀ rows, execution.result rows = .ok (f rows)) (s : Store) (c : Collection γ ρ)
    (calls : List γ) : runQuery c calls execution s = (runQuery c calls .list s).map f := by
  cases c with
  | instances | historic | links | reports => exact query_of_list hf _ calls

section Binds

variable {s : Store} {c : Collection γ ρ} {ps : Parameters} {calls : List γ}
  {outcome : Except RestError Unit}

theorem listed_eq (h : c.spec.Binds ps calls outcome) :
    s.listed c ps
      = outcome.bind fun _ => (runQuery c calls (QuerySpec.listing ps) s).mapError .engine := by
  unfold listed
  rw [h.list_eq]
  cases outcome with
  | error e => rfl
  | ok _ => exact s.carryOut_ok c calls _

theorem counted_eq (h : c.spec.Binds ps calls outcome) :
    s.counted c ps = outcome.bind fun _ => (runQuery c calls .count s).mapError .engine := by
  unfold counted
  rw [h.count_eq]
  cases outcome with
  | error e => rfl
  | ok _ => exact s.carryOut_ok c calls _

/-- Paging has no part in the calls. -/
theorem binds_paged (h : c.spec.Binds ps calls outcome) (first max : Option (SizedInt .integer)) :
    c.spec.Binds (ps.paged first max) calls outcome := by
  have hcalls : c.spec.apply (ps.paged first max) = c.spec.apply ps :=
    c.apply_congr (fun _ _ => rfl) rfl rfl
  rw [QuerySpec.binds_iff, hcalls, h.apply_eq]

end Binds

theorem listing_paged {ps : Parameters} (hps : ps.firstResult = none ∧ ps.maxResults = none)
    {first max : Option (SizedInt .integer)} (hpaged : first ≠ none ∨ max ≠ none) :
    (QuerySpec.listing (ps.paged first max) : Execution ρ (List ρ))
      = .page ((first.map SizedInt.val).getD 0) ((max.map SizedInt.val).getD 2147483647) := by
  have hfirst : (ps.paged first max).firstResult = first := by
    rw [Parameters.paged, Parameters.withPagingFrom, hps.1, Option.or_none]
  have hmax : (ps.paged first max).maxResults = max := by
    rw [Parameters.paged, Parameters.withPagingFrom, hps.2, Option.or_none]
  have hisPaged : (ps.paged first max).isPaged = true := by
    rw [Parameters.isPaged, hfirst, hmax, Bool.or_eq_true, Option.isSome_iff_ne_none,
      Option.isSome_iff_ne_none]
    exact hpaged
  rw [QuerySpec.listing, if_pos hisPaged, hfirst, hmax, QuerySpec.unlimited]

theorem counted_paged (s : Store) (c : Collection γ ρ) {ps : Parameters}
    (hps : ps.firstResult = none ∧ ps.maxResults = none) (first max : Option (SizedInt .integer)) :
    s.counted c (ps.paged first max) = (s.listed c ps).map List.length := by
  obtain ⟨calls, outcome, h⟩ := c.spec.exists_binds ps
  rw [counted_eq (binds_paged h first max), listed_eq h, QuerySpec.listing_of_unpaged hps,
    runQuery_of_list (f := List.length) fun _ => rfl]
  cases outcome with
  | error e => rfl
  | ok _ => cases runQuery c calls .list s <;> rfl

theorem listed_paged (s : Store) (c : Collection γ ρ) {ps : Parameters}
    (hps : ps.firstResult = none ∧ ps.maxResults = none) {first max : Option (SizedInt .integer)}
    (hpaged : first ≠ none ∨ max ≠ none) :
    s.listed c (ps.paged first max) = (s.listed c ps).map (page first max) := by
  obtain ⟨calls, outcome, h⟩ := c.spec.exists_binds ps
  rw [listed_eq (binds_paged h first max), listed_eq h, QuerySpec.listing_of_unpaged hps,
    listing_paged hps hpaged, runQuery_of_list (f := page first max) fun _ => rfl]
  cases outcome with
  | error e => rfl
  | ok _ => cases runQuery c calls .list s <;> rfl

/-- Every page begins at a number that can be asked for. -/
theorem exists_starts {m n : Nat} (hn : n ≤ 2147483647) :
    ∃ starts : List (SizedInt .integer),
      starts.map SizedInt.val = (multiplesBelow m n).map Int.ofNat := by
  have hfits : ∀ k ∈ multiplesBelow m n, IntWidth.integer.Fits (Int.ofNat k) := by
    intro k hk
    have hlt := lt_of_mem_multiplesBelow hk
    show -0x80000000 ≤ (k : Int) ∧ (k : Int) < 0x80000000
    omega
  refine ⟨(multiplesBelow m n).pmap (fun k hk => ⟨Int.ofNat k, hk⟩) hfits, ?_⟩
  rw [List.map_pmap, List.pmap_eq_map]

/-- **Pages and counts agree with the whole listing.**

A count is the number of the rows that are listed without paging, and a page is cut out of
these rows; where the listing fails, both fail with its error.  The pages of one size are the
whole list again, as long as each of its rows has a number that can be asked for. -/
theorem pages_agree (s : Store) (c : Collection γ ρ) (ps : Parameters)
    (hps : ps.firstResult = none ∧ ps.maxResults = none) :
    (∀ first max, s.counted c (ps.paged first max) = (s.listed c ps).map List.length) ∧
      (∀ first max, first ≠ none ∨ max ≠ none →
        s.listed c (ps.paged first max) = (s.listed c ps).map (page first max)) ∧
      ∀ rows, s.listed c ps = .ok rows → rows.length ≤ 2147483647 →
        ∀ max : SizedInt .integer, 0 < max.val → ∃ starts : List (SizedInt .integer),
          starts.map SizedInt.val
            = (multiplesBelow max.val.toNat rows.length).map Int.ofNat ∧
          (starts.mapM fun first => s.listed c (ps.paged (some first) (some max))).map List.flatten
            = .ok rows := by
  refine ⟨s.counted_paged c hps, fun first max => s.listed_paged c hps, ?_⟩
  intro rows hrows hlength max hmax
  obtain ⟨starts, hstarts⟩ := exists_starts (m := max.val.toNat) hlength
  refine ⟨starts, hstarts, ?_⟩
  have hpage : ∀ first, s.listed c (ps.paged (some first) (some max))
      = pure ((rows.drop first.val.toNat).take max.val.toNat) := by
    intro first
    rw [s.listed_paged c hps (.inl (Option.some_ne_none first)), hrows]
    rfl
  have hpages : (starts.map fun first => (rows.drop first.val.toNat).take max.val.toNat).flatten
      = rows := by
    calc (starts.map fun first => (rows.drop first.val.toNat).take max.val.toNat).flatten
        = (starts.map SizedInt.val).flatMap fun n => (rows.drop n.toNat).take max.val.toNat := by
          rw [List.flatMap_map, List.flatMap_def]
      _ = (multiplesBelow max.val.toNat rows.length).flatMap fun k =>
            (rows.drop k).take max.val.toNat := by
          rw [hstarts, List.flatMap_map]
          rfl
      _ = rows := flatMap_pages (by omega) rows
  simp only [hpage, List.mapM_pure]
  exact congrArg Except.ok hpages

/-- The pages make up the listing although the key is the same in some rows and absent in others. -/
theorem pages_agree_groups :
    let link (id : String) (groupId : Option String) : IdentityLink :=
      ⟨id, ⟨2014, 4, 28, 9, 0, 0, 0, by decide⟩, some "candidate", none, groupId, none, none, none,
        some "add", none, none⟩
    let s : Store :=
      { Store.empty with
        links := [link "1" none, link "2" (some "a"), link "3" none, link "4" (some "b"),
          link "5" (some "a")] }
    let ps : Parameters :=
      { Parameters.empty with sortBy := some "groupId", sortOrder := some "desc" }
    let rows := [link "4" (some "b"), link "2" (some "a"), link "5" (some "a"), link "1" none,
      link "3" none]
    let two : SizedInt .integer := ⟨2, by decide⟩
    s.listed .links ps = .ok rows ∧ s.counted .links (ps.paged none (some two)) = .ok 5 ∧
      ∃ starts : List (SizedInt .integer), starts.map SizedInt.val = [0, 2, 4] ∧
        (starts.mapM fun first => s.listed .links (ps.paged (some first) (some two))).map
          List.flatten = .ok rows := by
  intro link s ps rows two
  obtain ⟨hcount, -, hpages⟩ := pages_agree s .links ps ⟨rfl, rfl⟩
  have hrows : s.listed .links ps = .ok rows := by cbv
  have hstarts : (multiplesBelow two.val.toNat rows.length).map Int.ofNat = [0, 2, 4] := by decide
  have hconcatenated := hpages rows hrows (by decide) two (by decide)
  rw [hstarts] at hconcatenated
  refine ⟨hrows, ?_, hconcatenated⟩
  rw [hcount, hrows]
  rfl

end Store

end CaseGateway
