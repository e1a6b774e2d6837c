import Mathlib.Data.List.Basic

/-! Paths and patterns over them, for any type of level names.
A pattern fixes a level, leaves one level open, or leaves the whole rest open. The open
rest also covers its own parent, so a pattern that ends in it matches the shorter path too. -/
namespace Lib.Paths

variable {α : Type*}

inductive Level (α : Type*) where
  | exact (a : α)
  | any
  | rest
  deriving DecidableEq, Repr

/-- What a single level of a pattern accepts; `rest` is not a single level. -/
inductive Covers : Level α → α → Prop where
  | exact (a : α) : Covers (.exact a) a
  | any (a : α) : Covers .any a

inductive Matches : List (Level α) → List α → Prop where
  | nil : Matches [] []
  | cons {p : Level α} {a : α} {ps : List (Level α)} {path : List α} :
      Covers p a → Matches ps path → Matches (p :: ps) (a :: path)
  | rest (path : List α) : Matches [.rest] path

@[simp] theorem covers_exact {a b : α} : Covers (.exact a) b ↔ a = b := by
  constructor
  · intro h; cases h; rfl
  · rintro rfl; exact .exact a

@[simp] theorem covers_any {b : α} : Covers (.any : Level α) b ↔ True :=
  ⟨fun _ => trivial, fun _ => .any b⟩

@[simp] theorem covers_rest {b : α} : Covers (.rest : Level α) b ↔ False :=
  ⟨nofun, nofun⟩

@[simp] theorem matches_nil {path : List α} : Matches [] path ↔ path = [] := by
  constructor
  · intro h; cases h; rfl
  · rintro rfl; exact .nil

@[simp] theorem matches_rest {path : List α} : Matches [.rest] path ↔ True :=
  ⟨fun _ => trivial, fun _ => .rest path⟩

theorem matches_nil_path {ps : List (Level α)} : Matches ps [] ↔ ps = [] ∨ ps = [.rest] := by
  constructor
  · intro h
    cases h with
    | nil => exact .inl rfl
    | rest => exact .inr rfl
  · rintro (rfl | rfl)
    · exact .nil
    · exact .rest []

/-- Past a level that is not the open rest, both sides advance together. -/
theorem matches_cons {p : Level α} {a : α} {ps : List (Level α)} {path : List α}
    (single : p ≠ .rest) : Matches (p :: ps) (a :: path) ↔ Covers p a ∧ Matches ps path := by
  constructor
  · intro h
    cases h with
    | cons head tail => exact ⟨head, tail⟩
    | rest => exact absurd rfl single
  · exact fun h => .cons h.1 h.2

@[simp] theorem matches_exact_cons {a b : α} {ps : List (Level α)} {path : List α} :
    Matches (.exact a :: ps) (b :: path) ↔ a = b ∧ Matches ps path := by
  rw [matches_cons (by simp), covers_exact]

@[simp] theorem matches_any_cons {b : α} {ps : List (Level α)} {path : List α} :
    Matches (.any :: ps) (b :: path) ↔ Matches ps path := by
  rw [matches_cons (by simp), covers_any, true_and]

/-- Patterns without an open rest match piece by piece. -/
theorem Matches.append {ps qs : List (Level α)} {path more : List α} (single : .rest ∉ ps)
    (first : Matches ps path) (second : Matches qs more) : Matches (ps ++ qs) (path ++ more) := by
  induction first with
  | nil => exact second
  | rest => simp at single
  | cons head _ ih => exact .cons head (ih (by simp_all))

theorem Matches.fixed {ps : List (Level α)} {path : List α} (matched : Matches ps path) {i : Nat}
    {a : α} (single : .rest ∉ ps) (exact : ps[i]? = some (.exact a)) : path[i]? = some a := by
  induction matched generalizing i with
  | nil => simp at exact
  | rest => simp at single
  | cons head _ ih =>
    cases i with
    | zero =>
      obtain rfl := Option.some.inj exact
      cases head
      rfl
    | succ i => exact ih (by simp_all) exact

theorem Matches.length_eq {ps : List (Level α)} {path : List α} (matched : Matches ps path)
    (single : .rest ∉ ps) : path.length = ps.length := by
  induction matched with
  | nil => rfl
  | rest => simp at single
  | cons _ _ ih => simpa using ih (by simp_all)

/-- What covering asks of a level is asked of the path as often. -/
theorem Matches.countP_le {fixes : Level α → Bool} {kept : α → Bool}
    (covered : ∀ p a, Covers p a → fixes p = true → kept a = true) (free : fixes .rest = false)
    {ps : List (Level α)} {path : List α} (matched : Matches ps path) :
    ps.countP fixes ≤ path.countP kept := by
  induction matched with
  | nil => exact Nat.le_refl _
  | rest path => simp [free]
  | @cons p a ps path head _ ih =>
    rw [List.countP_cons, List.countP_cons]
    apply Nat.add_le_add ih
    cases fixed : fixes p with
    | false => exact Nat.zero_le _
    | true => simp [covered p a head fixed]

/-- Levels dropped at the front shift the kept ones behind them to the left. -/
theorem filter_shift {p : α → Bool} (path : List α) {start : Nat}
    (kept : ∀ a ∈ path.drop start, p a = true) (j : Nat) :
    (path.filter p)[start + j]? = path[start + j + (path.take start).countP (!p ·)]? := by
  have split : path.filter p = (path.take start).filter p ++ path.drop start := by
    conv_lhs => rw [← List.take_append_drop start path, List.filter_append,
      List.filter_eq_self.mpr kept]
  have counted := List.length_eq_countP_add_countP p (l := path.take start)
  simp only [List.length_take, List.countP_eq_length_filter (p := p)] at counted
  by_cases long : start ≤ path.length
  · rw [split, List.getElem?_append_right (by omega), List.getElem?_drop]
    congr 1
    have flipped : (path.take start).countP (fun a => decide ¬ p a = true) =
        (path.take start).countP (!p ·) := by
      congr 1
      funext a
      cases p a <;> rfl
    omega
  · have short : (path.filter p).length ≤ path.length := List.length_filter_le p path
    rw [List.getElem?_eq_none (by omega), List.getElem?_eq_none (by omega)]

/-- The two patterns differ at a fixed level, or in length, before either opens its rest. -/
def clash [DecidableEq α] : List (Level α) → List (Level α) → Bool
  | .rest :: _, _ => false
  | _, .rest :: _ => false
  | [], [] => false
  | [], _ :: _ => true
  | _ :: _, [] => true
  | .exact a :: ps, .exact b :: qs => a ≠ b || clash ps qs
  | _ :: ps, _ :: qs => clash ps qs

theorem clash_comm [DecidableEq α] (ps qs : List (Level α)) : clash ps qs = clash qs ps := by
  induction ps generalizing qs with
  | nil =>
    cases qs with
    | nil => rfl
    | cons q qs => cases q <;> rfl
  | cons p ps ih =>
    cases qs with
    | nil => cases p <;> rfl
    | cons q qs =>
      cases p with
      | exact a =>
        cases q with
        | exact b =>
          have sides : (a ≠ b) ↔ (b ≠ a) := ne_comm
          simp only [clash, ih qs, sides]
        | any => exact ih qs
        | rest => rfl
      | any =>
        cases q with
        | exact b => exact ih qs
        | any => exact ih qs
        | rest => rfl
      | rest => cases q <;> rfl

theorem clash_sound [DecidableEq α] {ps qs : List (Level α)} (apart : clash ps qs = true)
    {path : List α} (left : Matches ps path) : ¬ Matches qs path := by
  induction left generalizing qs with
  | nil =>
    intro right
    rcases matches_nil_path.mp right with rfl | rfl <;> simp [clash] at apart
  | rest => simp [clash] at apart
  | @cons p a ps path head tail ih =>
    intro right
    cases right with
    | rest => cases p <;> simp [clash] at apart
    | @cons q _ qs _ head' tail' =>
      cases head with
      | any => cases head' <;> exact ih (by simpa [clash] using apart) tail'
      | exact =>
        cases head' with
        | any => exact ih (by simpa [clash] using apart) tail'
        | exact => exact ih (by simpa [clash] using apart) tail'

instance decideMatches [DecidableEq α] :
    (ps : List (Level α)) → (path : List α) → Decidable (Matches ps path)
  | [], path => decidable_of_iff (path = []) matches_nil.symm
  | [.rest], path => .isTrue (.rest path)
  | .rest :: _ :: _, [] => .isFalse nofun
  | .rest :: _ :: _, _ :: _ => .isFalse (fun h => by cases h with | cons head _ => cases head)
  | .exact _ :: _, [] => .isFalse nofun
  | .any :: _, [] => .isFalse nofun
  | .exact b :: ps, a :: path =>
    @decidable_of_iff _ (b = a ∧ Matches ps path) matches_exact_cons.symm
      (@instDecidableAnd _ _ _ (decideMatches ps path))
  | .any :: ps, _ :: path =>
    @decidable_of_iff _ (Matches ps path) matches_any_cons.symm (decideMatches ps path)

end Lib.Paths
