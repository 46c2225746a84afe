/-
The last change of a name decides what is seen of it.

A queue of changes may name a variable many times.  Whatever the others do, and wherever
the last of them finds its target, a value that is set last is what the execution sees
afterwards.  For a value set in the global scope this needs no look at the earlier
changes: they decide between the execution and its case instance, and the place chosen
is the one that is visible.

A queue without repetitions has every one of its changes as the last of its name.
-/
import CaseGateway.Proofs.Store.VariableMap
import Mathlib.Data.List.Induction

namespace CaseGateway

/-- The name of the variable that a change is about. -/
def VariableChange.name : VariableChange → String
  | .set name _ _ => name
  | .remove name _ => name

/-- The last of some changes that is about a name. -/
def lastChange? (name : String) (changes : List VariableChange) : Option VariableChange :=
  changes.reverse.find? (·.name == name)

theorem lastChange?_append (name : String) (cs ds : List VariableChange) :
    lastChange? name (cs ++ ds) = (lastChange? name ds).or (lastChange? name cs) := by
  unfold lastChange?
  rw [List.reverse_append, List.find?_append]

theorem lastChange?_concat (name : String) (cs : List VariableChange) (c : VariableChange) :
    lastChange? name (cs ++ [c]) = if c.name = name then some c else lastChange? name cs := by
  rw [lastChange?_append]
  by_cases h : c.name = name <;> simp [lastChange?, h]

theorem lastChange?_of_mem {cs : List VariableChange}
    (h : cs.Pairwise fun a b => a.name ≠ b.name) {c : VariableChange} (hc : c ∈ cs) :
    lastChange? c.name cs = some c := by
  unfold lastChange?
  rw [Dictionary.find?_reverse h]
  induction cs with
  | nil => simp at hc
  | cons d cs ih =>
      obtain ⟨hd, hcs⟩ := List.pairwise_cons.mp h
      rcases List.mem_cons.mp hc with rfl | hmem
      · simp
      · rw [List.find?_cons, beq_false_of_ne (hd c hmem)]
        exact ih hcs hmem

namespace VariableMap

variable {execution caseInstance : String}

theorem change_of_ne (m : VariableMap) {c : VariableChange} {name : String} (h : c.name ≠ name)
    (owner : String) : m.change execution caseInstance c (owner, name) = m (owner, name) := by
  cases c with
  | set other value scope => exact put_of_ne _ _ fun heq => h (congrArg Prod.snd heq).symm
  | remove other scope => exact put_of_ne _ _ fun heq => h (congrArg Prod.snd heq).symm

theorem visible_change_of_ne (m : VariableMap) {c : VariableChange} {name : String}
    (h : c.name ≠ name) (scope : VariableScope) :
    (m.change execution caseInstance c).visible execution caseInstance name scope
      = m.visible execution caseInstance name scope := by
  cases scope <;> simp only [visible, change_of_ne m h]

/-- What is set is visible, and in the local scope too if it is set there. -/
theorem visible_change_self (m : VariableMap) (name : String) (value : TypedValue)
    (scope scope' : VariableScope) (h : scope' = .global ∨ scope = .localOnly) :
    (m.change execution caseInstance (.set name value scope)).visible execution caseInstance name
      scope' = some value.normalized := by
  simp only [change, set]
  unfold target
  cases scope with
  | localOnly =>
      cases scope' <;> simp [visible]
  | global =>
      obtain rfl : scope' = .global := by simpa using h
      by_cases hown : (m (execution, name)).isSome
      · simp [visible, hown]
      · have hnone : m (execution, name) = none := by simpa using hown
        by_cases hsame : execution = caseInstance
        · simp [visible, hsame]
        · simp [visible, hnone, put, hsame]

/-- **The value that a queue sets last is visible after it.** -/
theorem visible_foldl_change {name : String} {value : TypedValue} {scope scope' : VariableScope}
    (h : scope' = .global ∨ scope = .localOnly) (changes : List VariableChange)
    (hlast : lastChange? name changes = some (.set name value scope)) (m : VariableMap) :
    (changes.foldl (VariableMap.change execution caseInstance) m).visible execution caseInstance
      name scope' = some value.normalized := by
  induction changes using List.reverseRecOn with
  | nil => simp [lastChange?] at hlast
  | append_singleton cs c ih =>
      rw [List.foldl_append, List.foldl_cons, List.foldl_nil]
      rw [lastChange?_concat] at hlast
      by_cases hname : c.name = name
      · rw [if_pos hname] at hlast
        rw [Option.some.inj hlast]
        exact visible_change_self _ _ _ _ _ h
      · rw [if_neg hname] at hlast
        rw [visible_change_of_ne _ hname]
        exact ih hlast

end VariableMap

end CaseGateway
