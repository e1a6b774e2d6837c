import Mathlib.Data.Multiset.Filter
import Mathlib.Data.Multiset.UnionInter

/-! Programs that allocate and free blocks. A rule says which blocks are there before and after, and
leaves those of the others alone. -/
namespace Lib.Memory

structure Heap where
  next : Nat
  live : Nat → Bool

/-- What has no meaning has no result. -/
abbrev Mem := StateT Heap Option

def fault {α : Type} : Mem α := fun _ => none

def alloc : Mem Nat := fun h => some (h.next, ⟨h.next + 1, fun p => p = h.next || h.live p⟩)

/-- NULL may be freed, and a live block once. -/
def free : Option Nat → Mem Unit
  | none => pure ()
  | some p => fun h =>
    if h.live p then some ((), ⟨h.next, fun q => q ≠ p && h.live q⟩) else none

def freeAll : List (Option Nat) → Mem Unit
  | [] => pure ()
  | p :: rest => do
    free p
    freeAll rest

/-- The blocks are ours since the heap was as before, and what was live then still is. -/
structure Owned (before h : Heap) (blocks : Multiset Nat) : Prop where
  grown : before.next ≤ h.next
  nodup : blocks.Nodup
  ours : ∀ p ∈ blocks, before.next ≤ p ∧ p < h.next ∧ h.live p = true
  kept : ∀ p < before.next, h.live p = before.live p

variable {α β : Type}

/-- The program has a result, which is as it should be, and then owns these blocks. -/
def Triple (pre : Multiset Nat) (m : Mem α) (post : α → Prop) (blocks : α → Multiset Nat) : Prop :=
  ∀ before h frame, Owned before h (pre + frame) →
    ∃ a h', m h = some (a, h') ∧ post a ∧ Owned before h' (blocks a + frame)

def Faults (m : Mem α) : Prop := ∀ h, m h = none

section
variable {before h : Heap} {blocks fewer pre extra : Multiset Nat} {m : Mem α} {next : α → Mem β}
  {post mid : α → Prop} {owned owned' : α → Multiset Nat}

theorem owned_start (h : Heap) : Owned h h 0 :=
  ⟨Nat.le_refl _, Multiset.nodup_zero, fun _ inside => absurd inside (Multiset.notMem_zero _),
    fun _ _ => rfl⟩

theorem Owned.leak (own : Owned before h blocks) (le : fewer ≤ blocks) : Owned before h fewer :=
  ⟨own.grown, Multiset.nodup_of_le le own.nodup,
    fun p inside => own.ours p (Multiset.mem_of_le le inside), own.kept⟩

theorem triple_pure {a : α} (same : owned a = pre) (ok : post a) : Triple pre (pure a) post owned :=
  fun _ h _ own => ⟨a, h, rfl, ok, same ▸ own⟩

theorem triple_bind {post' : β → Prop} {owned' : β → Multiset Nat} (first : Triple pre m mid owned)
    (further : ∀ a, mid a → Triple (owned a) (next a) post' owned') :
    Triple pre (m >>= next) post' owned' := by
  intro before h frame own
  obtain ⟨a, h', ran, ok, own'⟩ := first before h frame own
  obtain ⟨b, h'', ran', ok', own''⟩ := further a ok before h' frame own'
  refine ⟨b, h'', ?_, ok', own''⟩
  change (m h >>= fun result => next result.1 result.2) = some (b, h'')
  rw [ran]
  exact ran'

theorem Triple.frame (triple : Triple pre m post owned) (extra : Multiset Nat) :
    Triple (pre + extra) m post fun a => owned a + extra := by
  intro before h frame own
  rw [Multiset.add_assoc] at own
  obtain ⟨a, h', ran, ok, own'⟩ := triple before h (extra + frame) own
  exact ⟨a, h', ran, ok, Multiset.add_assoc _ _ _ ▸ own'⟩

theorem Triple.weaken {post' : α → Prop} (triple : Triple pre m post owned)
    (ok : ∀ a, post a → post' a ∧ owned' a ≤ owned a) : Triple pre m post' owned' := by
  intro before h frame own
  obtain ⟨a, h', ran, done, own'⟩ := triple before h frame own
  exact ⟨a, h', ran, (ok a done).1, own'.leak (Multiset.add_le_add_right (ok a done).2)⟩

theorem Triple.leak (triple : Triple fewer m post owned) (le : fewer ≤ pre) :
    Triple pre m post owned :=
  fun before h frame own => triple before h frame (own.leak (Multiset.add_le_add_right le))

theorem triple_alloc : Triple 0 alloc (fun _ => True) fun p => {p} := by
  intro before h frame own
  rw [Multiset.zero_add] at own
  refine ⟨h.next, _, rfl, trivial, ?_⟩
  have fresh : h.next ∉ frame := fun inside => Nat.lt_irrefl _ (own.ours _ inside).2.1
  rw [Multiset.singleton_add]
  refine ⟨Nat.le_succ_of_le own.grown, Multiset.nodup_cons.2 ⟨fresh, own.nodup⟩, ?_, ?_⟩
  · intro p inside
    obtain rfl | inside := Multiset.mem_cons.1 inside
    · exact ⟨own.grown, Nat.lt_succ_self _, by simp⟩
    · obtain ⟨above, below, live⟩ := own.ours p inside
      exact ⟨above, Nat.lt_succ_of_lt below, by simp [live]⟩
  · intro p old
    have other : p ≠ h.next := Nat.ne_of_lt (Nat.lt_of_lt_of_le old own.grown)
    simp [other, own.kept p old]

theorem triple_free (p : Option Nat) : Triple p.toList (free p) (fun _ => True) fun _ => 0 := by
  cases p with
  | none => exact triple_pure rfl trivial
  | some p =>
    intro before h frame own
    rw [Option.toList_some, Multiset.coe_singleton, Multiset.singleton_add] at own
    obtain ⟨above, _, live⟩ := own.ours p (Multiset.mem_cons_self p frame)
    obtain ⟨others, nodup⟩ := Multiset.nodup_cons.1 own.nodup
    refine ⟨(), _, if_pos live, trivial, ?_⟩
    rw [Multiset.zero_add]
    refine ⟨own.grown, nodup, ?_, ?_⟩
    · intro q inside
      obtain ⟨above, below, live⟩ := own.ours q (Multiset.mem_cons_of_mem inside)
      have other : q ≠ p := fun same => others (same ▸ inside)
      exact ⟨above, below, by simp [other, live]⟩
    · intro q old
      have other : q ≠ p := Nat.ne_of_lt (Nat.lt_of_lt_of_le old above)
      simp [other, own.kept q old]

/-- A program that needs no block of ours, and then the others with ours. -/
theorem triple_before {post' : β → Prop} {owned' : β → Multiset Nat} (first : Triple 0 m mid owned)
    (further : ∀ a, mid a → Triple (owned a + pre) (next a) post' owned') :
    Triple pre (m >>= next) post' owned' := by
  have framed := first.frame pre
  rw [Multiset.zero_add] at framed
  exact triple_bind framed further

/-- A program that frees some of our blocks, and then the others with what is left. -/
theorem triple_after {post' : β → Prop} {owned' : β → Multiset Nat}
    (first : Triple extra m mid fun _ => 0) (further : ∀ a, mid a → Triple pre (next a) post' owned') :
    Triple (extra + pre) (m >>= next) post' owned' := by
  refine triple_bind (first.frame pre) fun a ok => ?_
  rw [Multiset.zero_add]
  exact further a ok

theorem triple_freeAll (ps : List (Option Nat)) :
    Triple (ps.filterMap id) (freeAll ps) (fun _ => True) fun _ => 0 := by
  induction ps with
  | nil => exact triple_pure rfl trivial
  | cons p rest ih =>
    have blocks : ((p :: rest).filterMap id : Multiset Nat) =
        p.toList + (rest.filterMap id : Multiset Nat) := by
      cases p <;> simp
    rw [blocks]
    exact triple_after (triple_free p) fun _ _ => ih

/- Programs without a result. -/

theorem faults_fault : Faults (fault : Mem α) := fun _ => rfl

theorem Faults.bind (faults : Faults m) (next : α → Mem β) : Faults (m >>= next) := by
  intro h
  change (m h >>= fun result => next result.1 result.2) = none
  rw [faults h]
  rfl

theorem Triple.faults (triple : Triple 0 m post owned) (further : ∀ a, post a → Faults (next a)) :
    Faults (m >>= next) := by
  intro h
  obtain ⟨a, h', ran, ok, _⟩ := triple h h 0 (by rw [Multiset.zero_add]; exact owned_start h)
  change (m h >>= fun result => next result.1 result.2) = none
  rw [ran]
  exact further a ok h'

end

end Lib.Memory
