import Mathlib.Data.List.Induction
import Mathlib.Data.List.Perm.Basic

/-! Items kept in numbered chains, each in the chain of its index, in any order inside it. -/
namespace Lib.Chains

variable {α : Type*} {index : α → ℕ} {chains : List (List α)} {items : List α}

/-- Every chain has the items of its number, each as often as the list does. -/
def Filed (index : α → ℕ) (chains : List (List α)) (items : List α) : Prop :=
  ∀ i (chain : List α), chains[i]? = some chain →
    chain.Perm (items.filter fun a => index a = i)

def file (index : α → ℕ) (chains : List (List α)) (a : α) : List (List α) :=
  chains.modify (index a) (a :: ·)

theorem filed_empty (n : ℕ) : Filed index (List.replicate n []) [] := by
  intro i chain here
  rw [List.getElem?_replicate] at here
  split at here
  · cases here
    exact .nil
  · cases here

theorem Filed.perm {others : List α} (filed : Filed index chains items)
    (same : items.Perm others) : Filed index chains others :=
  fun i chain here => (filed i chain here).trans (same.filter _)

/-- What one place of a list becomes, and that the others stay. -/
theorem modified_cases {β : Type*} {f : β → β} {bs : List β} {i j : ℕ} {b : β}
    (here : (bs.modify i f)[j]? = some b) :
    ∃ old, bs[j]? = some old ∧ b = if i = j then f old else old := by
  rw [List.getElem?_modify, Option.map_eq_map, Option.map_eq_some_iff] at here
  obtain ⟨old, found, rfl⟩ := here
  exact ⟨old, found, rfl⟩

theorem Filed.file_one (filed : Filed index chains items) (a : α) :
    Filed index (file index chains a) (a :: items) := by
  intro i chain here
  obtain ⟨old, found, rfl⟩ := modified_cases here
  have before := filed i old found
  by_cases own : index a = i
  · rw [if_pos own, List.filter_cons_of_pos (by simpa using own)]
    exact before.cons a
  · rw [if_neg own, List.filter_cons_of_neg (by simpa using own)]
    exact before

/-- Whatever the order they come in, all items end in their chains. -/
theorem Filed.file_all (filed : Filed index chains items) (more : List α) :
    Filed index (more.foldl (Chains.file index) chains) (more ++ items) := by
  induction more generalizing chains items with
  | nil => exact filed
  | cons a rest ih => exact (ih (filed.file_one a)).perm List.perm_middle

theorem Filed.remove [DecidableEq α] (filed : Filed index chains items) (a : α) :
    Filed index (chains.modify (index a) (·.erase a)) (items.erase a) := by
  intro i chain here
  obtain ⟨old, found, rfl⟩ := modified_cases here
  have before := filed i old found
  rw [← List.erase_filter]
  by_cases own : index a = i
  · rw [if_pos own]
    exact before.erase a
  · have absent : a ∉ items.filter fun b => index b = i := by simp [own]
    rw [if_neg own, List.erase_of_not_mem absent]
    exact before

theorem Filed.mem (filed : Filed index chains items) {i : ℕ} {chain : List α}
    (here : chains[i]? = some chain) {a : α} : a ∈ chain ↔ a ∈ items ∧ index a = i := by
  rw [(filed i chain here).mem_iff, List.mem_filter, decide_eq_true_iff]

theorem below_succ (index : α → ℕ) (items : List α) (n : ℕ) :
    ((items.filter fun a => index a < n) ++ items.filter fun a => index a = n).Perm
      (items.filter fun a => index a < n + 1) := by
  have split := List.filter_append_perm (fun a => decide (index a < n))
    (items.filter fun a => index a < n + 1)
  rw [List.filter_filter, List.filter_filter] at split
  have lower : (items.filter fun a => decide (index a < n) && decide (index a < n + 1)) =
      items.filter fun a => index a < n := by
    apply List.filter_congr
    intro a _
    simp only [← Bool.decide_and, decide_eq_decide]
    omega
  have last : (items.filter fun a => (!decide (index a < n)) && decide (index a < n + 1)) =
      items.filter fun a => index a = n := by
    apply List.filter_congr
    intro a _
    simp only [← decide_not, ← Bool.decide_and, decide_eq_decide]
    omega
  rwa [lower, last] at split

/-- Together the chains hold every item once, if none has an index beyond them. -/
theorem Filed.flatten (filed : Filed index chains items)
    (bounded : ∀ a ∈ items, index a < chains.length) : chains.flatten.Perm items := by
  have below : chains.flatten.Perm (items.filter fun a => index a < chains.length) := by
    clear bounded
    induction chains using List.reverseRecOn with
    | nil => simp
    | append_singleton front last ih =>
      have inner : Filed index front items := fun i chain here =>
        filed i chain (List.getElem?_append_left (List.getElem?_eq_some_iff.1 here).1 ▸ here)
      have outer := filed front.length last (by simp)
      rw [List.flatten_append, List.flatten_singleton, List.length_append, List.length_singleton]
      exact ((ih inner).append outer).trans (below_succ index items front.length)
  rwa [List.filter_eq_self.2 (by simpa using bounded)] at below

end Lib.Chains
