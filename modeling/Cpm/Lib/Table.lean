import Mathlib.Algebra.GroupWithZero.Nat
import Mathlib.Data.List.Nodup
import Mathlib.Order.Lattice

/-! Tables with unique keys that keep the order of insertion, as uthash does. -/
namespace Lib

structure Table (κ α : Type*) where
  entries : List (κ × α)
  nodup : (entries.map Prod.fst).Nodup
  deriving DecidableEq, Repr

namespace Table

variable {κ α : Type*} [DecidableEq κ]

def keys (t : Table κ α) : List κ := t.entries.map Prod.fst

def values (t : Table κ α) : List α := t.entries.map Prod.snd

def empty : Table κ α := ⟨[], by simp⟩

def findIn (k : κ) : List (κ × α) → Option α
  | [] => none
  | e :: rest => if e.1 = k then some e.2 else findIn k rest

def find (t : Table κ α) (k : κ) : Option α := findIn k t.entries

/-- The entry is changed in place, through the pointer that a lookup returned. -/
def modify (t : Table κ α) (k : κ) (f : α → α) : Table κ α where
  entries := t.entries.map fun e => if e.1 = k then (e.1, f e.2) else e
  nodup := by
    have same : ((t.entries.map fun e => if e.1 = k then (e.1, f e.2) else e).map Prod.fst) =
        t.entries.map Prod.fst := by
      rw [List.map_map]
      refine List.map_congr_left fun e _ => ?_
      by_cases h : e.1 = k <;> simp [h]
    exact same ▸ t.nodup

def erase (t : Table κ α) (k : κ) : Table κ α where
  entries := t.entries.filter (·.1 ≠ k)
  nodup := t.nodup.sublist (List.filter_sublist.map _)

theorem findIn_eq_none {k : κ} {es : List (κ × α)} :
    findIn k es = none ↔ k ∉ es.map Prod.fst := by
  induction es with
  | nil => simp [findIn]
  | cons e rest ih =>
    by_cases h : e.1 = k
    · simp [findIn, h]
    · simp [findIn, h, ih, Ne.symm h]

/-- A new entry goes behind the others; the value of a present key is replaced. -/
def insert (t : Table κ α) (k : κ) (v : α) : Table κ α :=
  if absent : t.find k = none then
    { entries := t.entries ++ [(k, v)]
      nodup := by
        have fresh := findIn_eq_none.mp absent
        simp only [List.map_append, List.map_cons, List.map_nil]
        exact List.nodup_append.mpr ⟨t.nodup, List.nodup_singleton k, fun a ha b hb => by
          rintro rfl
          exact fresh (List.mem_singleton.mp hb ▸ ha)⟩ }
  else t.modify k fun _ => v

theorem findIn_append (k : κ) (es fs : List (κ × α)) :
    findIn k (es ++ fs) = (findIn k es).or (findIn k fs) := by
  induction es with
  | nil => simp [findIn]
  | cons e rest ih => by_cases h : e.1 = k <;> simp [findIn, h, ih]

theorem findIn_modify (k j : κ) (f : α → α) (es : List (κ × α)) :
    findIn j (es.map fun e => if e.1 = k then (e.1, f e.2) else e) =
      if j = k then (findIn j es).map f else findIn j es := by
  induction es with
  | nil => simp [findIn]
  | cons e rest ih =>
    by_cases h : e.1 = k
    · by_cases hj : j = k
      · simp [findIn, h, hj]
      · simpa [findIn, h, hj, Ne.symm hj] using ih
    · by_cases hj : e.1 = j
      · simp [findIn, hj, hj ▸ h]
      · simp [findIn, h, hj, ih]

theorem findIn_erase (k j : κ) (es : List (κ × α)) :
    findIn j (es.filter (·.1 ≠ k)) = if j = k then none else findIn j es := by
  induction es with
  | nil => simp [findIn]
  | cons e rest ih =>
    by_cases h : e.1 = k
    · by_cases hj : j = k
      · simpa [findIn, h, hj] using ih
      · simpa [findIn, h, hj, Ne.symm hj] using ih
    · by_cases hj : e.1 = j
      · simp [findIn, hj, hj ▸ h]
      · simpa [findIn, h, hj] using ih

theorem filter_modify (k : κ) (f : α → α) (es : List (κ × α)) :
    (es.map fun e => if e.1 = k then (e.1, f e.2) else e).filter (·.1 ≠ k) =
      es.filter (·.1 ≠ k) := by
  induction es with
  | nil => rfl
  | cons e rest ih =>
    simp only [ne_eq, decide_not] at ih ⊢
    by_cases h : e.1 = k <;> simp [h, ih]

theorem findIn_perm {k : κ} {v : α} {es : List (κ × α)} (nodup : (es.map Prod.fst).Nodup)
    (found : findIn k es = some v) :
    (es.map Prod.snd).Perm (v :: (es.filter (·.1 ≠ k)).map Prod.snd) := by
  induction es with
  | nil => cases found
  | cons e rest ih =>
    obtain ⟨fresh, tail⟩ := List.nodup_cons.mp nodup
    by_cases h : e.1 = k
    · have absent : ∀ f ∈ rest, decide (f.1 ≠ k) = true := by
        intro f inside
        simpa using fun same : f.1 = k => fresh (List.mem_map.2 ⟨f, inside, same.trans h.symm⟩)
      rw [findIn, if_pos h, Option.some.injEq] at found
      rw [List.filter_cons_of_neg (by simpa using h), List.filter_eq_self.2 absent, List.map_cons,
        found]
    · rw [findIn, if_neg h] at found
      rw [List.filter_cons_of_pos (by simpa using h), List.map_cons, List.map_cons]
      exact ((ih tail found).cons _).trans (.swap _ _ _)

theorem findIn_eq_some {k : κ} {v : α} {es : List (κ × α)} (nodup : (es.map Prod.fst).Nodup) :
    findIn k es = some v ↔ (k, v) ∈ es := by
  induction es with
  | nil => simp [findIn]
  | cons e rest ih =>
    obtain ⟨fresh, tail⟩ := List.nodup_cons.mp nodup
    by_cases h : e.1 = k
    · subst h
      have other : (e.1, v) ∉ rest := fun inside => fresh (List.mem_map.mpr ⟨_, inside, rfl⟩)
      simp [findIn, other, Prod.ext_iff, eq_comm]
    · have head : (k, v) ≠ e := fun same => h (by rw [← same])
      simp [findIn, h, ih tail, head]

@[simp] theorem find_empty (k : κ) : (empty : Table κ α).find k = none := rfl

theorem find_modify (t : Table κ α) (k j : κ) (f : α → α) :
    (t.modify k f).find j = if j = k then (t.find j).map f else t.find j :=
  findIn_modify k j f t.entries

theorem find_erase (t : Table κ α) (k j : κ) :
    (t.erase k).find j = if j = k then none else t.find j := findIn_erase k j t.entries

theorem find_eq_some {t : Table κ α} {k : κ} {v : α} : t.find k = some v ↔ (k, v) ∈ t.entries :=
  findIn_eq_some t.nodup

theorem find_insert (t : Table κ α) (k j : κ) (v : α) :
    (t.insert k v).find j = if j = k then some v else t.find j := by
  unfold insert
  split
  · next absent =>
    unfold find at absent ⊢
    rw [findIn_append]
    by_cases h : j = k
    · subst h; simp [absent, findIn]
    · simp [findIn, h, Ne.symm h]
  · next present =>
    obtain ⟨old, found⟩ := Option.ne_none_iff_exists'.mp present
    rw [find_modify]
    by_cases h : j = k
    · subst h; simp [found]
    · simp [h]

theorem find_insert_some {t : Table κ α} {k j : κ} {v w : α} (found : (t.insert k v).find j = some w) :
    (j = k ∧ w = v) ∨ (j ≠ k ∧ t.find j = some w) := by
  rw [find_insert] at found
  split at found
  · next here => exact .inl ⟨here, (Option.some.inj found).symm⟩
  · next away => exact .inr ⟨away, found⟩

theorem find_erase_some {t : Table κ α} {k j : κ} {w : α} :
    (t.erase k).find j = some w ↔ j ≠ k ∧ t.find j = some w := by
  rw [find_erase]
  by_cases here : j = k <;> simp [here]

theorem entries_insert {t : Table κ α} {k : κ} (absent : t.find k = none) (v : α) :
    (t.insert k v).entries = t.entries ++ [(k, v)] := by
  rw [insert, dif_pos absent]

/-- The value changes in the last entry alone, since its key stands nowhere before it. -/
theorem entries_modify_last {t : Table κ α} {es : List (κ × α)} {k : κ} {v : α}
    (last : t.entries = es ++ [(k, v)]) (f : α → α) :
    (t.modify k f).entries = es ++ [(k, f v)] := by
  have fresh : ∀ e ∈ es, e.1 ≠ k := by
    have nodup := t.nodup
    rw [last, List.map_append, List.nodup_append] at nodup
    intro e member same
    exact nodup.2.2 e.1 (List.mem_map.2 ⟨e, member, rfl⟩) k (by simp) same
  have kept : (es.map fun e => if e.1 = k then (e.1, f e.2) else e) = es :=
    (List.map_congr_left fun e member => if_neg (fresh e member)).trans (List.map_id _)
  simp only [modify, last, List.map_append, kept, List.map_cons, if_true, List.map_nil]

theorem find_eq_none {t : Table κ α} {k : κ} : t.find k = none ↔ k ∉ t.keys := findIn_eq_none

theorem find_isSome {t : Table κ α} {k : κ} : (t.find k).isSome ↔ k ∈ t.keys := by
  rw [← not_iff_not, ← find_eq_none]
  simp

theorem mem_values {t : Table κ α} {v : α} : v ∈ t.values ↔ ∃ k, t.find k = some v := by
  simp only [values, List.mem_map, Prod.exists, find_eq_some]
  exact ⟨fun ⟨k, _, member, same⟩ => ⟨k, same ▸ member⟩, fun ⟨k, member⟩ => ⟨k, v, member, rfl⟩⟩

theorem mem_values_insert {t : Table κ α} {k : κ} {v w : α} (inside : w ∈ (t.insert k v).values) :
    w = v ∨ w ∈ t.values := by
  obtain ⟨j, found⟩ := mem_values.1 inside
  obtain ⟨_, same⟩ | ⟨_, old⟩ := find_insert_some found
  · exact .inl same
  · exact .inr (mem_values.2 ⟨j, old⟩)

theorem mem_values_erase {t : Table κ α} {k : κ} {w : α} (inside : w ∈ (t.erase k).values) :
    w ∈ t.values := by
  obtain ⟨j, found⟩ := mem_values.1 inside
  exact mem_values.2 ⟨j, (find_erase_some.1 found).2⟩

theorem values_perm {t : Table κ α} {k : κ} {v : α} (found : t.find k = some v) :
    t.values.Perm (v :: (t.erase k).values) := findIn_perm t.nodup found

theorem insert_values_perm (t : Table κ α) (k : κ) (v : α) :
    (t.insert k v).values.Perm (v :: (t.erase k).values) := by
  have now : (t.insert k v).find k = some v := by rw [find_insert, if_pos rfl]
  have same : (t.insert k v).erase k = t.erase k := by
    unfold insert
    split
    · simp [erase]
    · simp only [erase, modify, mk.injEq]
      exact filter_modify k (fun _ => v) t.entries
  exact same ▸ values_perm now

/-- A value that is replaced by another one is not seen where neither is looked for. -/
theorem filter_insert {t : Table κ α} {k : κ} {v old : α} {p : α → Bool} (found : t.find k = some old)
    (out : p old = false) (out' : p v = false) :
    (t.insert k v).values.filter p = t.values.filter p := by
  have others : ∀ e ∈ t.entries, e.1 = k → p e.2 = false := by
    intro e member same
    have here : t.find k = some e.2 := find_eq_some.2 (same ▸ member)
    cases found.symm.trans here
    exact out
  have present : t.find k ≠ none := by simp [found]
  rw [insert, dif_neg present]
  unfold values modify
  simp only
  generalize t.entries = es at others
  induction es with
  | nil => rfl
  | cons e rest ih =>
    obtain ⟨here, further⟩ := List.forall_mem_cons.1 others
    simp only [List.map_cons, List.filter_cons, ih further]
    by_cases same : e.1 = k
    · simp [same, out', here same]
    · simp [same]

theorem erase_absent {t : Table κ α} {k : κ} (absent : t.find k = none) :
    (t.erase k).values = t.values := by
  have others : ∀ e ∈ t.entries, decide (e.1 ≠ k) = true := by
    intro e inside
    simpa using fun same : e.1 = k => find_eq_none.1 absent (List.mem_map.2 ⟨e, inside, same⟩)
  exact congrArg (List.map Prod.snd) (List.filter_eq_self.2 others)

theorem entries_modify (t : Table κ α) (k : κ) (f : α → α) :
    (t.modify k f).entries = t.entries.map fun e => if e.1 = k then (e.1, f e.2) else e := rfl

theorem entries_erase (t : Table κ α) (k : κ) :
    (t.erase k).entries = t.entries.filter (·.1 ≠ k) := rfl

theorem erase_of_absent {t : Table κ α} {k : κ} (absent : t.find k = none) : t.erase k = t := by
  have others : ∀ e ∈ t.entries, decide (e.1 ≠ k) = true := by
    intro e inside
    simpa using fun same : e.1 = k => find_eq_none.1 absent (List.mem_map.2 ⟨e, inside, same⟩)
  simp only [erase, List.filter_eq_self.2 others]

theorem modify_of_absent {t : Table κ α} {k : κ} (absent : t.find k = none) (f : α → α) :
    t.modify k f = t := by
  have kept : (t.entries.map fun e => if e.1 = k then (e.1, f e.2) else e) = t.entries := by
    conv_rhs => rw [← List.map_id t.entries]
    apply List.map_congr_left
    intro e inside
    exact if_neg fun same => find_eq_none.1 absent (List.mem_map.2 ⟨e, inside, same⟩)
  simp only [modify, kept]

def map {β : Type*} (f : α → β) (t : Table κ α) : Table κ β where
  entries := t.entries.map fun e => (e.1, f e.2)
  nodup := by
    rw [List.map_map]
    exact t.nodup

theorem findIn_map {β : Type*} (f : α → β) (k : κ) (es : List (κ × α)) :
    findIn k (es.map fun e => (e.1, f e.2)) = (findIn k es).map f := by
  induction es with
  | nil => rfl
  | cons e rest ih => by_cases h : e.1 = k <;> simp [findIn, h, ih]

theorem find_map {β : Type*} (f : α → β) (t : Table κ α) (k : κ) :
    (t.map f).find k = (t.find k).map f := findIn_map f k t.entries

def restrict (t : Table κ α) (p : κ → Bool) : Table κ α where
  entries := t.entries.filter fun e => p e.1
  nodup := t.nodup.sublist (List.filter_sublist.map _)

omit [DecidableEq κ] in
theorem restrict_all {t : Table κ α} {p : κ → Bool} (all : ∀ k ∈ t.keys, p k = true) :
    (t.restrict p).values = t.values := by
  have others : ∀ e ∈ t.entries, p e.1 = true := fun e inside =>
    all e.1 (List.mem_map.2 ⟨e, inside, rfl⟩)
  exact congrArg (List.map Prod.snd) (List.filter_eq_self.2 others)

omit [DecidableEq κ] in
theorem restrict_values_length (t : Table κ α) (p : κ → Bool) :
    (t.restrict p).values.length ≤ t.values.length := by
  simp only [values, restrict, List.length_map]
  exact List.length_filter_le _ _

section
variable {ρ : Type*} [LinearOrder ρ]

def highest (rank : κ → ρ) : List (κ × α) → Option (κ × α)
  | [] => none
  | e :: rest =>
    match highest rank rest with
    | some f => if rank f.1 < rank e.1 then some e else some f
    | none => some e

omit [DecidableEq κ] in
theorem highest_eq_none {rank : κ → ρ} {es : List (κ × α)} : highest rank es = none ↔ es = [] := by
  cases es with
  | nil => simp [highest]
  | cons e rest =>
    unfold highest
    split
    · split <;> simp
    · simp

omit [DecidableEq κ] in
theorem highest_spec {rank : κ → ρ} {es : List (κ × α)} {e : κ × α}
    (top : highest rank es = some e) : e ∈ es ∧ ∀ f ∈ es, rank f.1 ≤ rank e.1 := by
  induction es generalizing e with
  | nil => cases top
  | cons first rest ih =>
    unfold highest at top
    split at top
    · next f further =>
      obtain ⟨inside, above⟩ := ih further
      split at top
      · next higher =>
        cases top
        refine ⟨List.mem_cons_self .., List.forall_mem_cons.2 ⟨le_rfl, fun g member => ?_⟩⟩
        exact le_trans (above g member) (le_of_lt higher)
      · next lower =>
        cases top
        exact ⟨List.mem_cons_of_mem _ inside, List.forall_mem_cons.2 ⟨le_of_not_gt lower, above⟩⟩
    · next nothing =>
      cases top
      rw [highest_eq_none.1 nothing]
      simp

end

/- Sums over the values. -/

def total (f : α → ℕ) (t : Table κ α) : ℕ := (t.values.map f).sum

theorem total_found {f : α → ℕ} {t : Table κ α} {k : κ} {v : α} (found : t.find k = some v) :
    t.total f = f v + (t.erase k).total f := by
  have same := ((values_perm found).map f).sum_nat
  rwa [List.map_cons, List.sum_cons] at same

theorem total_insert {f : α → ℕ} (t : Table κ α) (k : κ) (v : α) :
    (t.insert k v).total f = f v + (t.erase k).total f := by
  have same := ((insert_values_perm t k v).map f).sum_nat
  rwa [List.map_cons, List.sum_cons] at same

theorem total_absent {f : α → ℕ} {t : Table κ α} {k : κ} (absent : t.find k = none) :
    (t.erase k).total f = t.total f := by
  rw [total, erase_absent absent, total]

theorem mem_keys_of_find {t : Table κ α} {k : κ} {v : α} (found : t.find k = some v) :
    k ∈ t.keys := find_isSome.mp (by simp [found])

@[simp] theorem keys_modify (t : Table κ α) (k : κ) (f : α → α) :
    (t.modify k f).keys = t.keys := by
  unfold keys modify
  rw [List.map_map]
  refine List.map_congr_left fun e _ => ?_
  by_cases h : e.1 = k <;> simp [h]

theorem mem_keys_erase {t : Table κ α} {k j : κ} : j ∈ (t.erase k).keys ↔ j ∈ t.keys ∧ j ≠ k := by
  rw [← find_isSome, find_erase, ← find_isSome]
  by_cases h : j = k <;> simp [h]

theorem mem_keys_insert {t : Table κ α} {k j : κ} {v : α} :
    j ∈ (t.insert k v).keys ↔ j ∈ t.keys ∨ j = k := by
  rw [← find_isSome, find_insert, ← find_isSome]
  by_cases h : j = k <;> simp [h]

end Table

end Lib
