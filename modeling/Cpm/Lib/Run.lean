import Mathlib.Data.List.Basic

/-! Runs of a partial step function, for any states and operations. A step without a result
ends the run. -/
namespace Lib.Run

variable {S A : Type*} {step : S → A → Option S} {allowed : S → A → Prop} {inv : S → Prop}

/-- Every operation of the run meets a condition in the state it starts from. -/
def Along (step : S → A → Option S) (allowed : S → A → Prop) : S → List A → Prop
  | _, [] => True
  | s, a :: rest => allowed s a ∧ ∀ s', step s a = some s' → Along step allowed s' rest

instance decidableAlong [∀ s a, Decidable (allowed s a)] :
    ∀ s ops, Decidable (Along step allowed s ops)
  | _, [] => isTrue trivial
  | s, a :: rest =>
    match stepped : step s a with
    | none => decidable_of_iff (allowed s a) (by simp [Along, stepped])
    | some s' =>
      have := decidableAlong s' rest
      decidable_of_iff (allowed s a ∧ Along step allowed s' rest) (by simp [Along, stepped])

theorem along_trivial (s : S) (ops : List A) : Along step (fun _ _ => True) s ops := by
  induction ops generalizing s with
  | nil => exact trivial
  | cons a rest ih => exact ⟨trivial, fun s' _ => ih s'⟩

/-- Two conditions that agree wherever the invariant holds agree along runs. -/
theorem along_iff {other : S → A → Prop}
    (agree : ∀ s a, inv s → (other s a ↔ allowed s a))
    (preserved : ∀ s a s', inv s → allowed s a → step s a = some s' → inv s')
    {s : S} {ops : List A} (start : inv s) :
    Along step other s ops ↔ Along step allowed s ops := by
  induction ops generalizing s with
  | nil => exact Iff.rfl
  | cons a rest ih =>
    constructor
    · rintro ⟨met, further⟩
      have first := (agree s a start).mp met
      exact ⟨first, fun s' stepped =>
        (ih (preserved s a s' start first stepped)).mp (further s' stepped)⟩
    · rintro ⟨first, further⟩
      exact ⟨(agree s a start).mpr first, fun s' stepped =>
        (ih (preserved s a s' start first stepped)).mpr (further s' stepped)⟩

/-- What every allowed step preserves holds at the end of every run of allowed steps. -/
theorem invariant_of_step (preserved : ∀ s a s', inv s → allowed s a → step s a = some s' → inv s')
    {s s' : S} {ops : List A} (start : inv s) (all : Along step allowed s ops)
    (ended : ops.foldlM step s = some s') : inv s' := by
  induction ops generalizing s with
  | nil =>
    cases ended
    exact start
  | cons a rest ih =>
    rw [List.foldlM_cons, Option.bind_eq_bind, Option.bind_eq_some_iff] at ended
    obtain ⟨next, stepped, tail⟩ := ended
    exact ih (preserved s a next start all.1 stepped) (all.2 next stepped) tail

theorem run_cons {s next s' : S} {a : A} {rest : List A} (stepped : step s a = some next)
    (ran : rest.foldlM step next = some s') : (a :: rest).foldlM step s = some s' := by
  rw [List.foldlM_cons, stepped]
  exact ran

/-- Where a step leads to a good state exactly when it meets a condition, a run stays in good
states exactly as long as its steps do. -/
theorem along_iff_good {good : S → Prop} {other : S → A → Prop}
    (progress : ∀ s a, inv s → allowed s a →
      ∃ s', step s a = some s' ∧ (good s' ↔ other s a) ∧ (other s a → inv s'))
    {s : S} {ops : List A} (start : inv s) (fine : good s) (all : Along step allowed s ops) :
    Along step other s ops ↔
      ∀ front, front <+: ops → ∃ s', front.foldlM step s = some s' ∧ good s' := by
  induction ops generalizing s with
  | nil =>
    refine ⟨fun _ front before => ?_, fun _ => trivial⟩
    rw [List.prefix_nil.1 before]
    exact ⟨s, rfl, fine⟩
  | cons a rest ih =>
    obtain ⟨next, stepped, reached, kept⟩ := progress s a start all.1
    constructor
    · rintro ⟨met, further⟩ front before
      cases front with
      | nil => exact ⟨s, rfl, fine⟩
      | cons b tail =>
        obtain ⟨rfl, behind⟩ := List.cons_prefix_cons.1 before
        obtain ⟨s', ran, ended⟩ := (ih (kept met) (reached.2 met) (all.2 next stepped)).1
          (further next stepped) tail behind
        exact ⟨s', run_cons stepped ran, ended⟩
    · intro always
      obtain ⟨s', ran, ended⟩ := always [a] (List.cons_prefix_cons.2 ⟨rfl, List.nil_prefix⟩)
      have one : [a].foldlM step s = some next := run_cons stepped rfl
      obtain rfl : s' = next := Option.some.inj (ran.symm.trans one)
      have met := reached.1 ended
      refine ⟨met, fun s' again => ?_⟩
      cases stepped.symm.trans again
      refine (ih (kept met) ended (all.2 _ stepped)).2 fun front before => ?_
      obtain ⟨s'', ran, good⟩ := always (a :: front) (List.cons_prefix_cons.2 ⟨rfl, before⟩)
      rw [List.foldlM_cons, stepped] at ran
      exact ⟨s'', ran, good⟩

/-- Where every step adds to a history that the invariant speaks of. -/
theorem ends_of_history {B : Type*} {emit : A → List B} {inv : S → List B → Prop}
    (progress : ∀ s a past, inv s past → allowed s a →
      ∃ s', step s a = some s' ∧ inv s' (past ++ emit a))
    {s : S} {ops : List A} {past : List B} (start : inv s past) (all : Along step allowed s ops) :
    ∃ s', ops.foldlM step s = some s' ∧ inv s' (past ++ ops.flatMap emit) := by
  induction ops generalizing s past with
  | nil => exact ⟨s, rfl, by simpa using start⟩
  | cons a rest ih =>
    obtain ⟨next, stepped, kept⟩ := progress s a past start all.1
    obtain ⟨s', tail, ended⟩ := ih kept (all.2 next stepped)
    refine ⟨s', run_cons stepped tail, ?_⟩
    rw [List.flatMap_cons, ← List.append_assoc]
    exact ended

/-- Where allowed steps have results that keep the invariant, so do whole runs. -/
theorem ends_of_step (progress : ∀ s a, inv s → allowed s a → ∃ s', step s a = some s' ∧ inv s')
    {s : S} {ops : List A} (start : inv s) (all : Along step allowed s ops) :
    ∃ s', ops.foldlM step s = some s' ∧ inv s' := by
  induction ops generalizing s with
  | nil => exact ⟨s, rfl, start⟩
  | cons a rest ih =>
    obtain ⟨next, stepped, kept⟩ := progress s a start all.1
    obtain ⟨s', tail, ended⟩ := ih kept (all.2 next stepped)
    exact ⟨s', run_cons stepped tail, ended⟩

/- Steps with an observation, against a relation between abstract states. -/

variable {M O : Type*}

def observe (step : S → A → Option (S × O)) : S → List A → Option (S × List O)
  | s, [] => some (s, [])
  | s, a :: rest => do
    let next ← step s a
    let ended ← observe step next.1 rest
    return (ended.1, next.2 :: ended.2)

inductive Traced (spec : M → A → M → O → Prop) : M → List A → M → List O → Prop where
  | nil (m : M) : Traced spec m [] m []
  | cons {m next m' : M} {a : A} {o : O} {rest : List A} {os : List O} :
      spec m a next o → Traced spec next rest m' os → Traced spec m (a :: rest) m' (o :: os)

/-- A simulation of every allowed step is one of every run of allowed steps. -/
theorem simulate {step : S → A → Option (S × O)} {allowed : S → A → Prop} {inv : S → Prop}
    {spec : M → A → M → O → Prop} (abs : S → M)
    (simulated : ∀ s a, inv s → allowed s a →
      ∃ s' o, step s a = some (s', o) ∧ inv s' ∧ spec (abs s) a (abs s') o)
    {s : S} {ops : List A} (start : inv s)
    (all : Along (fun s a => (step s a).map Prod.fst) allowed s ops) :
    ∃ s' os, observe step s ops = some (s', os) ∧ inv s' ∧ Traced spec (abs s) ops (abs s') os := by
  induction ops generalizing s with
  | nil => exact ⟨s, [], rfl, start, .nil _⟩
  | cons a rest ih =>
    obtain ⟨next, o, stepped, kept, first⟩ := simulated s a start all.1
    obtain ⟨s', os, ran, ended, further⟩ := ih kept (all.2 next (by simp [stepped]))
    exact ⟨s', o :: os, by simp [observe, stepped, ran], ended, .cons first further⟩

theorem observe_append {step : S → A → Option (S × O)} {s middle last : S} {ops more : List A}
    {os others : List O} (first : observe step s ops = some (middle, os))
    (second : observe step middle more = some (last, others)) :
    observe step s (ops ++ more) = some (last, os ++ others) := by
  induction ops generalizing s os with
  | nil =>
    cases first
    exact second
  | cons a rest ih =>
    simp only [observe, Option.bind_eq_bind, Option.bind_eq_some_iff] at first
    obtain ⟨⟨next, o⟩, stepped, ⟨ended, further⟩, tail, same⟩ := first
    cases same
    simp [observe, stepped, ih tail]

theorem observe_total {step : S → A → Option (S × O)} (always : ∀ s a, (step s a).isSome)
    (s : S) (ops : List A) : ∃ s' os, observe step s ops = some (s', os) := by
  induction ops generalizing s with
  | nil => exact ⟨s, [], rfl⟩
  | cons a rest ih =>
    obtain ⟨⟨next, o⟩, stepped⟩ := Option.isSome_iff_exists.1 (always s a)
    obtain ⟨s', os, ran⟩ := ih next
    exact ⟨s', o :: os, by simp [observe, stepped, ran]⟩

/-- A machine that takes every step of another one, with the same observation and into a
related state, takes every run of it. -/
theorem same_observations {step : S → A → Option (S × O)} {spec : M → A → Option (M × O)}
    {rel : S → M → Prop}
    (matched : ∀ s m a m' o, rel s m → spec m a = some (m', o) →
      ∃ s', step s a = some (s', o) ∧ rel s' m')
    {s : S} {m m' : M} {ops : List A} {os : List O} (start : rel s m)
    (ran : observe spec m ops = some (m', os)) :
    ∃ s', observe step s ops = some (s', os) ∧ rel s' m' := by
  induction ops generalizing s m os with
  | nil =>
    cases ran
    exact ⟨s, rfl, start⟩
  | cons a rest ih =>
    simp only [observe, Option.bind_eq_bind, Option.bind_eq_some_iff] at ran
    obtain ⟨⟨next, o⟩, stepped, ⟨ended, further⟩, tail, same⟩ := ran
    cases same
    obtain ⟨s₁, first, related⟩ := matched s m a next o start stepped
    obtain ⟨s₂, behind, last⟩ := ih related tail
    exact ⟨s₂, by simp [observe, first, behind], last⟩

theorem observed_cons (step : S → A → Option (S × O)) (s : S) (a : A) (rest : List A) :
    (observe step s (a :: rest)).map Prod.snd = (step s a).bind fun next =>
      ((observe step next.1 rest).map Prod.snd).map (next.2 :: ·) := by
  rw [observe]
  cases step s a with
  | none => rfl
  | some next =>
    rw [Option.bind_eq_bind, Option.bind_some, Option.bind_some]
    cases observe step next.1 rest <;> rfl

/-- Machines whose steps end alike, in related states and with the same observation, make the
same observations in every run. -/
theorem observe_same {step : S → A → Option (S × O)} {spec : M → A → Option (M × O)}
    {rel : S → M → Prop}
    (matched : ∀ s m a, rel s m →
      Option.Rel (fun next next' => rel next.1 next'.1 ∧ next.2 = next'.2) (step s a) (spec m a))
    {s : S} {m : M} (start : rel s m) (ops : List A) :
    (observe step s ops).map Prod.snd = (observe spec m ops).map Prod.snd := by
  induction ops generalizing s m with
  | nil => rfl
  | cons a rest ih =>
    have both := matched s m a start
    rw [observed_cons, observed_cons]
    generalize step s a = next, spec m a = next' at both
    cases both with
    | none => rfl
    | some related => rw [Option.bind_some, Option.bind_some, ih related.1, related.2]

end Lib.Run
