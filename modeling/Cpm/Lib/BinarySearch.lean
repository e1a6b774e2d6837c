import Mathlib.Data.List.Sort
import Mathlib.Order.Defs.LinearOrder

/-! Binary search by a key. What it finds is there, in a sorted list it finds what is there, and in
any other list it may miss it. -/
namespace Lib

variable {α β : Type*} [LinearOrder β]

def searchFrom (key : α → β) (items : List α) (x : α) : Nat → Nat → Nat → Option Nat
  | 0, _, _ => none
  | fuel + 1, lower, upper =>
    if lower < upper then
      match items[(lower + upper) / 2]? with
      | none => none
      | some y =>
        if key x < key y then searchFrom key items x fuel lower ((lower + upper) / 2)
        else if key y < key x then searchFrom key items x fuel ((lower + upper) / 2 + 1) upper
        else some ((lower + upper) / 2)
    else none

def bsearch (key : α → β) (items : List α) (x : α) : Option Nat :=
  searchFrom key items x items.length 0 items.length

section
variable {key : α → β} {items : List α} {x : α} {fuel lower upper : Nat}

theorem searchFrom_found {i : Nat} (found : searchFrom key items x fuel lower upper = some i) :
    ∃ y, items[i]? = some y ∧ key y = key x := by
  induction fuel generalizing lower upper with
  | zero => cases found
  | succ fuel ih =>
    rw [searchFrom] at found
    split at found
    · split at found
      · cases found
      · rename_i y here
        split at found
        · exact ih found
        · rename_i notLess
          split at found
          · exact ih found
          · rename_i notGreater
            obtain rfl := Option.some.inj found
            exact ⟨y, here, le_antisymm (le_of_not_gt notLess) (le_of_not_gt notGreater)⟩
    · cases found

theorem bsearch_found {i : Nat} (found : bsearch key items x = some i) :
    ∃ y ∈ items, key y = key x := by
  obtain ⟨y, here, same⟩ := searchFrom_found found
  exact ⟨y, List.mem_of_getElem? here, same⟩

theorem sorted_places (sorted : items.Pairwise fun a b => key a ≤ key b) {i j : Nat} {a b : α}
    (before : i ≤ j) (here : items[i]? = some a) (there : items[j]? = some b) : key a ≤ key b := by
  rcases Nat.lt_or_eq_of_le before with less | rfl
  · obtain ⟨bound, rfl⟩ := List.getElem?_eq_some_iff.mp here
    obtain ⟨bound', rfl⟩ := List.getElem?_eq_some_iff.mp there
    exact List.pairwise_iff_getElem.mp sorted i j bound bound' less
  · obtain rfl := Option.some.inj (here.symm.trans there)
    exact le_refl _

theorem searchFrom_sorted (sorted : items.Pairwise fun a b => key a ≤ key b) {place : Nat} {y : α}
    (here : items[place]? = some y) (same : key y = key x) (low : lower ≤ place)
    (high : place < upper) (enough : upper - lower ≤ fuel) (room : upper ≤ items.length) :
    ∃ i, searchFrom key items x fuel lower upper = some i := by
  induction fuel generalizing lower upper with
  | zero => omega
  | succ fuel ih =>
    have inside : (lower + upper) / 2 < items.length := by omega
    have middle := List.getElem?_eq_getElem inside
    rw [searchFrom, if_pos (by omega), middle]
    dsimp only
    split
    · rename_i less
      apply ih low _ (by omega) (by omega)
      by_contra behind
      have order := sorted_places sorted (Nat.le_of_not_lt behind) middle here
      exact absurd less (not_lt.mpr (same ▸ order))
    · split
      · rename_i greater
        apply ih _ high (by omega) room
        by_contra before
        have order := sorted_places sorted (by omega : place ≤ (lower + upper) / 2) here middle
        exact absurd greater (not_lt.mpr (same ▸ order))
      · exact ⟨_, rfl⟩

theorem bsearch_sorted (sorted : items.Pairwise fun a b => key a ≤ key b) {y : α}
    (inside : y ∈ items) (same : key y = key x) : ∃ i, bsearch key items x = some i := by
  obtain ⟨place, bound, here⟩ := List.mem_iff_getElem.mp inside
  exact searchFrom_sorted sorted (List.getElem?_eq_some_iff.mpr ⟨bound, here⟩) same (Nat.zero_le _)
    bound (Nat.le_refl _) (Nat.le_refl _)

end

end Lib
