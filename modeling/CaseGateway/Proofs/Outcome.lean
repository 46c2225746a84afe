/-
Computations that may fail, read backwards.

A handler is a chain of steps each of which can end it.  From the fact that the whole
chain succeeded, these lemmas give back that each step did, and with which result.
-/
import Mathlib.Data.List.Forall2

namespace CaseGateway

variable {ε δ α β : Type}

theorem bind_eq_ok {x : Except ε α} {f : α → Except ε β} {b : β} :
    (x >>= f) = .ok b ↔ ∃ a, x = .ok a ∧ f a = .ok b := by
  cases x with
  | error e => simp [bind, Except.bind]
  | ok a => simp [bind, Except.bind]

/-- What follows a step that is known to succeed. -/
theorem ok_of_bind {x : Except ε α} {f : α → Except ε β} {a : α} {b : β} (hx : x = .ok a)
    (h : (x >>= f) = .ok b) : f a = .ok b := by
  rw [hx] at h
  exact h

theorem pure_eq_ok {a b : α} : (pure a : Except ε α) = .ok b ↔ a = b := by
  simp [pure, Except.pure]

theorem throw_ne_ok {e : ε} {a : α} : (throw e : Except ε α) ≠ .ok a := by
  simp [throw, throwThe, MonadExceptOf.throw]

theorem mapError_eq_ok {x : Except ε α} {f : ε → δ} {a : α} :
    x.mapError f = .ok a ↔ x = .ok a := by
  cases x with
  | error e => simp [Except.mapError]
  | ok a => simp [Except.mapError]

theorem map_eq_ok {x : Except ε α} {f : α → β} {b : β} :
    x.map f = .ok b ↔ ∃ a, x = .ok a ∧ f a = b := by
  cases x with
  | error e => simp [Except.map]
  | ok a => simp [Except.map]

theorem toOption_eq_some {x : Except ε α} {a : α} : x.toOption = some a ↔ x = .ok a := by
  cases x with
  | error e => simp [Except.toOption]
  | ok a => simp [Except.toOption]

/-- A walk over a list succeeds when every step does, and each result belongs to its element. -/
theorem mapM_eq_ok {f : α → Except ε β} {l : List α} {bs : List β} :
    l.mapM f = .ok bs ↔ List.Forall₂ (fun a b => f a = .ok b) l bs := by
  induction l generalizing bs with
  | nil => simp [pure, Except.pure, eq_comm]
  | cons a l ih =>
      rw [List.mapM_cons, bind_eq_ok]
      constructor
      · rintro ⟨b, hb, hrest⟩
        obtain ⟨bs', hbs', heq⟩ := bind_eq_ok.mp hrest
        rw [← pure_eq_ok.mp heq]
        exact .cons hb (ih.mp hbs')
      · intro h
        cases h with
        | cons hb hrest =>
            exact ⟨_, hb, bind_eq_ok.mpr ⟨_, ih.mpr hrest, rfl⟩⟩

/-- The same of a walk that says no more than that it cannot go on. -/
theorem mapM_eq_some {f : α → Option β} {l : List α} {bs : List β} :
    l.mapM f = some bs ↔ List.Forall₂ (fun a b => f a = some b) l bs := by
  induction l generalizing bs with
  | nil => simp [eq_comm]
  | cons a l ih =>
      rw [List.mapM_cons, Option.bind_eq_bind, Option.bind_eq_some_iff]
      constructor
      · rintro ⟨b, hb, hrest⟩
        obtain ⟨bs', hbs', heq⟩ := Option.bind_eq_some_iff.mp hrest
        rw [← Option.some.inj heq]
        exact .cons hb (ih.mp hbs')
      · intro h
        cases h with
        | cons hb hrest =>
            exact ⟨_, hb, Option.bind_eq_some_iff.mpr ⟨_, ih.mpr hrest, rfl⟩⟩

/-- A walk whose steps can all be taken has a result. -/
theorem exists_forall₂ {R : α → β → Prop} {l : List α} (h : ∀ a ∈ l, ∃ b, R a b) :
    ∃ bs, List.Forall₂ R l bs := by
  induction l with
  | nil => exact ⟨[], .nil⟩
  | cons a l ih =>
      obtain ⟨b, hb⟩ := h a List.mem_cons_self
      obtain ⟨bs, hbs⟩ := ih fun a' ha' => h a' (List.mem_cons_of_mem a ha')
      exact ⟨b :: bs, .cons hb hbs⟩

/-- Whatever is walked over has come to something. -/
theorem exists_of_forall₂ {R : α → β → Prop} {l : List α} {bs : List β} (h : List.Forall₂ R l bs)
    {a : α} (ha : a ∈ l) : ∃ b ∈ bs, R a b := by
  induction h with
  | nil => simp at ha
  | @cons a' b l bs hb _ ih =>
      rcases List.mem_cons.mp ha with rfl | hmem
      · exact ⟨b, List.mem_cons_self, hb⟩
      · obtain ⟨b', hb', hR⟩ := ih hmem
        exact ⟨b', List.mem_cons_of_mem b hb', hR⟩

/-- What every step keeps, the walk keeps in order. -/
theorem map_of_forall₂ {κ : Type} {key : α → κ} {key' : β → κ} {R : α → β → Prop} {l : List α}
    {bs : List β} (h : List.Forall₂ R l bs) (hkey : ∀ a b, R a b → key' b = key a) :
    bs.map key' = l.map key := by
  induction h with
  | nil => rfl
  | cons hb _ ih => rw [List.map_cons, List.map_cons, hkey _ _ hb, ih]

/-! ### What a computation can fail with -/

/-- Whatever a computation fails with is of one kind. -/
def FailsOnlyWith (P : ε → Prop) (x : Except ε α) : Prop := ∀ e, x = .error e → P e

namespace FailsOnlyWith

variable {P : ε → Prop}

theorem ok (a : α) : FailsOnlyWith P (.ok a) := by
  intro e h
  cases h

theorem error {e : ε} (h : P e) : FailsOnlyWith P (.error e : Except ε α) := by
  intro e' he
  cases he
  exact h

theorem bind {x : Except ε α} {f : α → Except ε β} (hx : FailsOnlyWith P x)
    (hf : ∀ a, FailsOnlyWith P (f a)) : FailsOnlyWith P (x >>= f) := by
  cases x with
  | error e => exact error (hx e rfl)
  | ok a => exact hf a

theorem mapError {x : Except δ α} {f : δ → ε} (hf : ∀ d, P (f d)) :
    FailsOnlyWith P (x.mapError f) := by
  cases x with
  | error d => exact error (hf d)
  | ok a => exact ok a

theorem mapM {f : α → Except ε β} (hf : ∀ a, FailsOnlyWith P (f a)) (l : List α) :
    FailsOnlyWith P (l.mapM f) := by
  induction l with
  | nil => exact ok []
  | cons a l ih =>
      rw [List.mapM_cons]
      exact (hf a).bind fun _ => ih.bind fun _ => ok _

end FailsOnlyWith

/-! ### Two computations side by side -/

/-- Both fail in the same way, or both succeed with related results. -/
inductive SameOutcome (R : α → β → Prop) : Except ε α → Except ε β → Prop
  | error (e : ε) : SameOutcome R (.error e) (.error e)
  | ok {a : α} {b : β} (h : R a b) : SameOutcome R (.ok a) (.ok b)

theorem SameOutcome.mono {R S : α → β → Prop} {x : Except ε α} {y : Except ε β}
    (h : SameOutcome R x y) (hRS : ∀ a b, R a b → S a b) : SameOutcome S x y := by
  cases h with
  | error e => exact .error e
  | ok h => exact .ok (hRS _ _ h)

/-- After one step that both have in common, the rest decides. -/
theorem SameOutcome.bind {α' : Type} {R : α → β → Prop} {x : Except ε α'} {f : α' → Except ε α}
    {g : α' → Except ε β} (h : ∀ a, SameOutcome R (f a) (g a)) :
    SameOutcome R (x >>= f) (x >>= g) := by
  cases x with
  | error e => exact .error e
  | ok a => exact h a

/-- Walks whose steps keep two states related do so as a whole, or end at the same step. -/
theorem SameOutcome.foldlM {α' β' : Type} {R : α → β → Prop} {S : α' → β' → Prop}
    {f : α → α' → Except ε α} {g : β → β' → Except ε β}
    (hstep : ∀ a b a' b', R a b → S a' b' → SameOutcome R (f a a') (g b b'))
    {l : List α'} {l' : List β'} (hl : List.Forall₂ S l l') :
    ∀ {a : α} {b : β}, R a b → SameOutcome R (l.foldlM f a) (l'.foldlM g b) := by
  induction hl with
  | nil => exact fun h => .ok h
  | @cons a' b' l l' hS _ ih =>
      intro a b h
      rw [List.foldlM_cons, List.foldlM_cons]
      generalize f a a' = x, g b b' = y, hstep a b a' b' h hS = hxy
      cases hxy with
      | error e => exact .error e
      | ok h => exact ih h

end CaseGateway
