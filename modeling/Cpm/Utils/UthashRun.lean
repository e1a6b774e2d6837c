import Cpm.Lib.Table
import Cpm.Utils.Uthash

/-! Whole runs on a table of `uthash.h`, and the finite map that it is while no key is added
twice. -/
namespace Cpm

open Lib

section
variable {κ ε : Type*} [DecidableEq κ] [DecidableEq ε]

/- Any additions and removals. -/

inductive UtHashEdit (κ ε : Type*) where
  | add (key : κ) (elem : ε)
  | delete (h : UtHashHandle κ ε)

def utHashEdit (hash : κ → ℕ) (head : UtHash κ ε) : UtHashEdit κ ε → UtHash κ ε
  | .add key elem => hashAdd hash head key elem
  | .delete h => hashDelete head h

/-- What the macros ask of their user: an added element is not in the table, a removed one is.
A key may be there already. -/
def UtHashEdit.Sane (held : List (UtHashHandle κ ε)) : UtHashEdit κ ε → Prop
  | add _ elem => elem ∉ held.map UtHashHandle.elem
  | delete h => h ∈ held

def UtHashEdit.onList (hash : κ → ℕ) (held : List (UtHashHandle κ ε)) :
    UtHashEdit κ ε → List (UtHashHandle κ ε)
  | add key elem => held ++ [⟨elem, key, hash key⟩]
  | delete h => held.erase h

def SaneHistory (hash : κ → ℕ) : List (UtHashHandle κ ε) → List (UtHashEdit κ ε) → Prop
  | _, [] => True
  | held, e :: rest => e.Sane held ∧ SaneHistory hash (e.onList hash held) rest

instance (held : List (UtHashHandle κ ε)) (e : UtHashEdit κ ε) : Decidable (e.Sane held) :=
  match e with
  | .add _ elem => inferInstanceAs (Decidable (elem ∉ held.map UtHashHandle.elem))
  | .delete h => inferInstanceAs (Decidable (h ∈ held))

instance decidableSaneHistory (hash : κ → ℕ) : ∀ (held : List (UtHashHandle κ ε))
    (edits : List (UtHashEdit κ ε)), Decidable (SaneHistory hash held edits)
  | _, [] => isTrue trivial
  | held, e :: rest =>
    have := decidableSaneHistory hash (e.onList hash held) rest
    inferInstanceAs (Decidable (e.Sane held ∧ SaneHistory hash (e.onList hash held) rest))

theorem utHashEdit_keeps {hash : κ → ℕ} {head : UtHash κ ε} {e : UtHashEdit κ ε}
    (wf : head.WellFormed hash) (sane : e.Sane (hashHandles head)) :
    (utHashEdit hash head e).WellFormed hash ∧
      hashHandles (utHashEdit hash head e) = e.onList hash (hashHandles head) := by
  cases e with
  | add key elem => exact ⟨hashAdd_wellFormed wf sane, handles_hashAdd head key elem⟩
  | delete h => exact ⟨hashDelete_wellFormed wf sane, handles_hashDelete head h⟩

theorem utHashEdits_keep {hash : κ → ℕ} {head : UtHash κ ε} {edits : List (UtHashEdit κ ε)}
    (wf : head.WellFormed hash) (sane : SaneHistory hash (hashHandles head) edits) :
    (edits.foldl (utHashEdit hash) head).WellFormed hash ∧
      hashHandles (edits.foldl (utHashEdit hash) head) =
        edits.foldl (UtHashEdit.onList hash) (hashHandles head) := by
  induction edits generalizing head with
  | nil => exact ⟨wf, rfl⟩
  | cons e rest ih =>
    obtain ⟨kept, handles⟩ := utHashEdit_keeps wf sane.1
    obtain ⟨ended, listed⟩ := ih kept (handles ▸ sane.2)
    exact ⟨ended, by rw [List.foldl_cons, listed, handles, List.foldl_cons]⟩

omit [DecidableEq κ] [DecidableEq ε] in
theorem empty_wellFormed (hash : κ → ℕ) : UtHash.WellFormed hash (none : UtHash κ ε) := by
  intro t made
  cases made

/-- After any sane history the counts that the header checks hold, the iteration gives the elements
in the order of their addition, and a lookup finds one with its key or there is none. -/
theorem utHash_history (hash : κ → ℕ) (edits : List (UtHashEdit κ ε))
    (sane : SaneHistory hash [] edits) :
    let head := edits.foldl (utHashEdit hash) none
    let held := edits.foldl (UtHashEdit.onList hash) []
    hashFsckCounts head = true ∧ hashIter head = held.map UtHashHandle.elem ∧
      hashCount head = held.length ∧
      ∀ key, (hashFind hash head key = none ∧ ∀ h ∈ held, h.key ≠ key) ∨
        ∃ h ∈ held, hashFind hash head key = some h ∧ h.key = key := by
  obtain ⟨wf, handles⟩ := utHashEdits_keep (empty_wellFormed hash) sane
  refine ⟨wf.fsck, congrArg _ handles, ?_, fun key => ?_⟩
  · refine Eq.trans ?_ (congrArg List.length handles)
    cases made : edits.foldl (utHashEdit hash) none with
    | none => rfl
    | some t => exact (wf t made).indexed.numItems
  · have found := hashFind_cases wf key
    rwa [handles] at found

/-- Ten elements of one hash value, the last of which makes the table expand. -/
theorem utHash_history_expanded :
    let head := ((List.range 10).map fun n => UtHashEdit.add n n).foldl
      (utHashEdit fun _ : ℕ => 7) none
    hashFsckCounts head = true ∧ hashIter head = List.range 10 := by
  have all := utHash_history (fun _ => 7) ((List.range 10).map fun n => UtHashEdit.add n n)
    (by decide)
  exact ⟨all.1, all.2.1.trans (by decide)⟩

/- Tables whose users look for a key before they add it. -/

inductive UtHashOp (κ ε : Type*) where
  | add (key : κ) (elem : ε)
  | replace (key : κ) (elem : ε)
  | del (key : κ)
  | find (key : κ)
  | iter
  | count

inductive UtHashSeen (ε : Type*) where
  | nothing
  | element (found : Option ε)
  | elements (all : List ε)
  | number (n : ℕ)
  deriving DecidableEq

def hashFindDelete (hash : κ → ℕ) (head : UtHash κ ε) (key : κ) : UtHash κ ε × Option ε :=
  match hashFind hash head key with
  | none => (head, none)
  | some h => (hashDelete head h, some h.elem)

def hashReplace (hash : κ → ℕ) (head : UtHash κ ε) (key : κ) (elem : ε) :
    UtHash κ ε × Option ε :=
  let removed := hashFindDelete hash head key
  (hashAdd hash removed.1 key elem, removed.2)

def utHashStep (hash : κ → ℕ) (head : UtHash κ ε) :
    UtHashOp κ ε → Option (UtHash κ ε × UtHashSeen ε)
  | .add key elem => some (hashAdd hash head key elem, .nothing)
  | .replace key elem =>
    let replaced := hashReplace hash head key elem
    some (replaced.1, .element replaced.2)
  | .del key =>
    let removed := hashFindDelete hash head key
    some (removed.1, .element removed.2)
  | .find key => some (head, .element ((hashFind hash head key).map UtHashHandle.elem))
  | .iter => some (head, .elements (hashIter head))
  | .count => some (head, .number (hashCount head))

/-- The same on a finite map. The user adds no key and no element that is there. -/
def tableStep (t : Table κ ε) : UtHashOp κ ε → Option (Table κ ε × UtHashSeen ε)
  | .add key elem =>
    if t.find key = none ∧ elem ∉ t.values then some (t.insert key elem, .nothing) else none
  | .replace key elem =>
    if elem ∉ (t.erase key).values then
      some ((t.erase key).insert key elem, .element (t.find key))
    else none
  | .del key => some (t.erase key, .element (t.find key))
  | .find key => some (t, .element (t.find key))
  | .iter => some (t, .elements t.values)
  | .count => some (t, .number t.values.length)

section
variable {α : Type*}

/-- The table is well formed and holds the pairs of the map in the same order. What an element
is worth is seen through the memory it points to. -/
structure HoldsPairs (hash : κ → ℕ) (view : ε → α) (head : UtHash κ ε) (t : Table κ α) :
    Prop where
  wellFormed : head.WellFormed hash
  pairs : (hashHandles head).map (fun h => (h.key, view h.elem)) = t.entries

variable {hash : κ → ℕ} {view view' : ε → α} {head : UtHash κ ε} {t : Table κ α}

omit [DecidableEq κ] [DecidableEq ε] in
theorem holdsPairs_empty : HoldsPairs hash view none (.empty : Table κ α) :=
  ⟨empty_wellFormed hash, rfl⟩

omit [DecidableEq κ] [DecidableEq ε] in
theorem HoldsPairs.iter (rep : HoldsPairs hash view head t) :
    (hashIter head).map view = t.values := by
  have elems := congrArg (List.map Prod.snd) rep.pairs
  rw [List.map_map] at elems
  rw [hashIter, List.map_map]
  exact elems

omit [DecidableEq κ] [DecidableEq ε] in
theorem HoldsPairs.count (rep : HoldsPairs hash view head t) :
    hashCount head = t.values.length := by
  rw [← rep.iter, List.length_map, hashIter, List.length_map]
  cases head with
  | none => rfl
  | some table => exact (rep.wellFormed table rfl).indexed.numItems

omit [DecidableEq ε] in
theorem HoldsPairs.find (rep : HoldsPairs hash view head t) (key : κ) :
    (hashFind hash head key).map (fun h => view h.elem) = t.find key := by
  obtain ⟨nothing, others⟩ | ⟨h, held, found, same⟩ := hashFind_cases rep.wellFormed key
  · rw [nothing, Option.map_none, eq_comm, Table.find_eq_none, Table.keys, ← rep.pairs]
    simpa using others
  · rw [found, Option.map_some, eq_comm, Table.find_eq_some, ← rep.pairs]
    exact List.mem_map.2 ⟨h, held, by rw [same]⟩

omit [DecidableEq κ] in
theorem update_others {held : List ε} {elem : ε} (gone : elem ∉ held) (v : α) :
    ∀ e ∈ held, Function.update view elem v e = view e := by
  intro e member
  apply Function.update_of_ne
  rintro rfl
  exact gone member

omit [DecidableEq ε] in
/-- A new element may be written before it is added, the others stay as they are. -/
theorem HoldsPairs.add (rep : HoldsPairs hash view head t) {key : κ} {elem : ε} {v : α}
    (absent : t.find key = none) (fresh : elem ∉ hashIter head)
    (same : ∀ e ∈ hashIter head, view' e = view e) (written : view' elem = v) :
    HoldsPairs hash view' (hashAdd hash head key elem) (t.insert key v) where
  wellFormed := hashAdd_wellFormed rep.wellFormed fresh
  pairs := by
    have before : (hashHandles head).map (fun h => (h.key, view' h.elem)) = t.entries := by
      rw [← rep.pairs]
      apply List.map_congr_left
      intro h held
      rw [same h.elem (List.mem_map.2 ⟨h, held, rfl⟩)]
    rw [handles_hashAdd, List.map_append, before, Table.entries_insert absent]
    simp only [List.map_cons, List.map_nil, written]

omit [DecidableEq κ] [DecidableEq ε] in
theorem HoldsPairs.keys_nodup (rep : HoldsPairs hash view head t) :
    ((hashHandles head).map UtHashHandle.key).Nodup := by
  have keys := congrArg (List.map Prod.fst) rep.pairs
  rw [List.map_map] at keys
  exact keys ▸ t.nodup

theorem HoldsPairs.delete (rep : HoldsPairs hash view head t) {h : UtHashHandle κ ε}
    (held : h ∈ hashHandles head) : HoldsPairs hash view (hashDelete head h) (t.erase h.key) where
  wellFormed := hashDelete_wellFormed rep.wellFormed held
  pairs := by
    -- Two handles with one key are the same handle.
    have others : ∀ k ∈ hashHandles head, (k != h) = decide (k.key ≠ h.key) := by
      intro k member
      have inj := List.inj_on_of_nodup_map rep.keys_nodup member held
      by_cases same : k.key = h.key
      · simp [inj same]
      · have apart : k ≠ h := fun equal => same (congrArg _ equal)
        simp [same, apart]
    rw [handles_hashDelete, (List.Nodup.of_map _ rep.keys_nodup).erase_eq_filter,
      List.filter_congr others, Table.entries_erase, ← rep.pairs, List.filter_map]
    rfl

theorem HoldsPairs.write (rep : HoldsPairs hash view head t) {h : UtHashHandle κ ε}
    (held : h ∈ hashHandles head) (f : α → α) :
    HoldsPairs hash (Function.update view h.elem (f (view h.elem))) head (t.modify h.key f) where
  wellFormed := rep.wellFormed
  pairs := by
    rw [Table.entries_modify, ← rep.pairs, List.map_map]
    apply List.map_congr_left
    intro k member
    by_cases own : k.key = h.key
    · have equal := List.inj_on_of_nodup_map rep.keys_nodup member held own
      subst equal
      simp
    · have apart : k.elem ≠ h.elem := fun same =>
        own (congrArg _ (List.inj_on_of_nodup_map rep.wellFormed.distinct member held same))
      simp [own, apart]

theorem HoldsPairs.findDelete (rep : HoldsPairs hash view head t) (key : κ) :
    HoldsPairs hash view (hashFindDelete hash head key).1 (t.erase key) ∧
      (hashFindDelete hash head key).2.map view = t.find key := by
  have seen := rep.find key
  unfold hashFindDelete
  obtain ⟨nothing, -⟩ | ⟨h, held, found, same⟩ := hashFind_cases rep.wellFormed key
  · rw [nothing] at seen ⊢
    exact ⟨(Table.erase_of_absent seen.symm).symm ▸ rep, seen⟩
  · rw [found] at seen ⊢
    exact ⟨same ▸ rep.delete held, seen⟩

end

variable {hash : κ → ℕ}

theorem utHashStep_holds (head : UtHash κ ε) (t : Table κ ε) (op : UtHashOp κ ε)
    (t' : Table κ ε) (seen : UtHashSeen ε) (rep : HoldsPairs hash id head t)
    (stepped : tableStep t op = some (t', seen)) :
    ∃ head', utHashStep hash head op = some (head', seen) ∧ HoldsPairs hash id head' t' := by
  have iter := rep.iter
  rw [List.map_id] at iter
  cases op with
  | add key elem =>
    simp only [tableStep] at stepped
    split at stepped
    · next fresh =>
      cases stepped
      exact ⟨_, rfl, rep.add fresh.1 (iter ▸ fresh.2) (fun _ _ => rfl) rfl⟩
    · cases stepped
  | replace key elem =>
    simp only [tableStep] at stepped
    split at stepped
    · next fresh =>
      cases stepped
      obtain ⟨removed, old⟩ := rep.findDelete key
      have others := removed.iter
      rw [List.map_id] at others
      rw [Option.map_id, id] at old
      have gone : (t.erase key).find key = none := by rw [Table.find_erase, if_pos rfl]
      exact ⟨_, by rw [utHashStep, hashReplace, old],
        removed.add gone (others ▸ fresh) (fun _ _ => rfl) rfl⟩
    · cases stepped
  | del key =>
    cases stepped
    obtain ⟨removed, old⟩ := rep.findDelete key
    rw [Option.map_id, id] at old
    exact ⟨_, by rw [utHashStep, old], removed⟩
  | find key =>
    cases stepped
    exact ⟨_, by rw [utHashStep, ← rep.find]; rfl, rep⟩
  | iter =>
    cases stepped
    exact ⟨_, by rw [utHashStep, iter], rep⟩
  | count =>
    cases stepped
    exact ⟨_, by rw [utHashStep, rep.count], rep⟩

/-- Over whole runs a table of `uthash.h` shows what a finite map in the order of insertion
shows, through all its expansions. -/
theorem utHash_refines_table (hash : κ → ℕ) (ops : List (UtHashOp κ ε)) (t : Table κ ε)
    (seen : List (UtHashSeen ε)) (ran : Run.observe tableStep .empty ops = some (t, seen)) :
    ∃ head, Run.observe (utHashStep hash) none ops = some (head, seen) ∧
      HoldsPairs hash id head t :=
  Run.same_observations utHashStep_holds holdsPairs_empty ran

end

theorem utHash_refines_table_replace :
    ∃ head, Run.observe (utHashStep fun _ : ℕ => 7) none
      [.add 1 10, .add 2 20, .replace 1 30, .iter, .del 2, .find 2] =
        some (head, [.nothing, .nothing, .element (some 10), .elements [20, 30],
          .element (some 20), .element none]) := by
  obtain ⟨head, ran, -⟩ := utHash_refines_table (fun _ : ℕ => 7)
    [.add 1 10, .add 2 20, .replace 1 30, .iter, .del 2, .find 2] _ _ rfl
  exact ⟨head, ran⟩

end Cpm
