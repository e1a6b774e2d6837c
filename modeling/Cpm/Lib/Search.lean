import Mathlib.Data.List.Infix
import Mathlib.Tactic.Common

/-! The first place with a property, and the search for a text in another one. -/
namespace Lib

/-- The least number with the property, or none. -/
def First (holds : Nat → Prop) : Option Nat → Prop
  | none => ∀ i, ¬ holds i
  | some i => holds i ∧ ∀ j < i, ¬ holds j

section
variable {holds other : Nat → Prop}

theorem First.le {i j : Nat} (first : First holds (some i)) (there : holds j) : i ≤ j := by
  by_contra less
  exact first.2 j (by omega) there

theorem First.unique {found found' : Option Nat} (first : First holds found)
    (first' : First holds found') : found = found' := by
  cases found with
  | none =>
    cases found' with
    | none => rfl
    | some j => exact absurd first'.1 (first j)
  | some i =>
    cases found' with
    | none => exact absurd first.1 (first' i)
    | some j => rw [Nat.le_antisymm (first.le first'.1) (first'.le first.1)]

theorem First.congr_iff (same : ∀ i, holds i ↔ other i) {found : Option Nat} :
    First holds found ↔ First other found := by
  rw [show holds = other from funext fun i => propext (same i)]

/-- Where nothing has the property early, the first place is a later one. -/
theorem First.shift_iff {n : Nat} (none : ∀ i < n, ¬ holds i) {found : Option Nat} :
    First holds (found.map (n + ·)) ↔ First (fun i => holds (n + i)) found := by
  have late {i : Nat} (there : holds i) : ∃ k, i = n + k := by
    by_contra early
    exact none i (by by_contra; exact early ⟨i - n, by omega⟩) there
  cases found with
  | none =>
    refine ⟨fun never k => never (n + k), fun never i there => ?_⟩
    obtain ⟨k, rfl⟩ := late there
    exact never k there
  | some i =>
    refine and_congr Iff.rfl ⟨fun before k less => before (n + k) (Nat.add_lt_add_left less n), ?_⟩
    intro before j less there
    obtain ⟨k, rfl⟩ := late there
    exact before k (Nat.lt_of_add_lt_add_left less) there

/-- Of the first place it is enough to know whether it is early enough. -/
theorem First.within {found : Option Nat} (first : First holds found) (n : Nat) :
    First (fun i => i ≤ n ∧ holds i) (found.filter (· ≤ n)) := by
  cases found with
  | none => exact fun i early => first i early.2
  | some i =>
    by_cases early : i ≤ n
    · simp only [Option.filter_some, early, decide_true, if_true]
      exact ⟨⟨early, first.1⟩, fun j less there => first.2 j less there.2⟩
    · simp only [Option.filter_some, early, decide_false, Bool.false_eq_true, if_false]
      exact fun j there => early (Nat.le_trans (first.le there.2) there.1)

end

def strstr {α : Type} [DecidableEq α] (text name : List α) (start : Nat) : Option Nat :=
  ((text.drop start).tails.findIdx? fun rest => name <+: rest).map (start + ·)

theorem strstr_first {α : Type} [DecidableEq α] (text name : List α) (start : Nat) :
    First (fun i => start ≤ i ∧ name <+: text.drop i) (strstr text name start) := by
  refine (First.shift_iff fun i early there => by omega).mpr ?_
  have within (i : Nat) : name <+: (text.drop start).drop i ↔
      start ≤ start + i ∧ name <+: text.drop (start + i) := by
    rw [List.drop_drop]
    simp
  refine (First.congr_iff within).mp ?_
  generalize text.drop start = rest
  cases found : rest.tails.findIdx? fun suffix => name <+: suffix with
  | none =>
    intro i there
    rw [List.findIdx?_eq_none_iff] at found
    have differs := found (rest.drop i) ((List.mem_tails _ _).mpr (List.drop_suffix i rest))
    simp [there] at differs
  | some i =>
    obtain ⟨bound, here, before⟩ := List.findIdx?_eq_some_iff_getElem.mp found
    refine ⟨by simpa using here, fun j less there => ?_⟩
    have differs := before j less
    simp [there] at differs

end Lib
