import Cpm.Driver.CacheMap
import Cpm.Lib.Run

/-! The blocks behind pointer values, from `cache.c`: which are live, and what is passed to free. -/
namespace Cpm

open Lib Lib.Run

inductive Owner where
  | entry (key : TKey)
  | reader
  deriving DecidableEq

/-- A value in the table, and whether it is as `neu_driver_cache_add` copied it. -/
structure Held where
  value : NeuDvalue
  copied : Bool

structure CacheBlocks where
  table : Table TKey Held
  live : Table Nat Owner

namespace CacheBlocks

def new : CacheBlocks := ⟨.empty, .empty⟩

/-- The address and what is live then. An address that is not to be had stands for NULL. -/
def calloc (live : Table Nat Owner) (owner : Owner) (fresh : Nat) : Nat × Table Nat Owner :=
  if fresh ≠ 0 ∧ fresh < 2 ^ 64 ∧ live.find fresh = none then (fresh, live.insert fresh owner)
  else (0, live)

def freedPtrs (u : ValueU) : List Nat := if u.ptrPtr = 0 then [] else [u.ptrPtr]

def freeAll (live : Table Nat Owner) (addresses : List Nat) : Table Nat Owner :=
  addresses.foldl Table.erase live

/-- Length and type are the new ones; the other bytes stay. -/
def pointed (old new : ValueU) (address : Nat) : ValueU :=
  ((old.overlay 4 (new.window 4 2)).overlay 0 new.ptrType).overlay 8 (Block.leBlock 8 address)

section
variable (c : CacheBlocks) (ref : TagRef)

def neuDriverCacheAdd (value : NeuDvalue) : CacheBlocks :=
  { c with table := c.table.insert (keyOf ref.group ref.tag) ⟨value, true⟩ }

/-- The type is overwritten before the old pointer is looked at. -/
def neuDriverCacheUpdateChange (value : NeuDvalue) (fresh : Nat) : CacheBlocks × List Nat :=
  match c.table.find (keyOf ref.group ref.tag) with
  | none => (c, [])
  | some held =>
    if value.type = .ptr then
      let frees := freedPtrs held.value.value
      let block := calloc (freeAll c.live frees) (.entry (keyOf ref.group ref.tag)) fresh
      let u := pointed held.value.value value.value block.1
      (⟨c.table.insert (keyOf ref.group ref.tag) ⟨⟨value.type, u, held.value.precision⟩, false⟩,
        block.2⟩, frees)
    else
      let stored : Held := ⟨⟨value.type, value.value, held.value.precision⟩, false⟩
      ({ c with table := c.table.insert (keyOf ref.group ref.tag) stored }, [])

/-- A reader of a pointer value gets a block of its own. -/
def neuDriverCacheGet (fresh : Nat) : CacheBlocks :=
  match c.table.find (keyOf ref.group ref.tag) with
  | none => c
  | some held =>
    if held.value.type = .ptr then { c with live := (calloc c.live .reader fresh).2 } else c

def neuDriverCacheDel : CacheBlocks × List Nat :=
  match c.table.find (keyOf ref.group ref.tag) with
  | none => (c, [])
  | some held =>
    let frees := if held.value.type = .ptr then freedPtrs held.value.value else []
    (⟨c.table.erase (keyOf ref.group ref.tag), freeAll c.live frees⟩, frees)

end

def readerFree (c : CacheBlocks) (address : Nat) : CacheBlocks :=
  if c.live.find address = some .reader then { c with live := c.live.erase address } else c

end CacheBlocks

inductive BlockOp where
  | add (ref : TagRef) (value : NeuDvalue)
  | update (ref : TagRef) (value : NeuDvalue) (fresh : Nat)
  | get (ref : TagRef) (fresh : Nat)
  | del (ref : TagRef)
  | readerFree (address : Nat)

def BlockOp.replaced : BlockOp → Option TKey
  | .add ref _ | .update ref _ _ | .del ref => some (keyOf ref.group ref.tag)
  | .get _ _ | .readerFree _ => none

def CacheBlocks.step (c : CacheBlocks) : BlockOp → CacheBlocks × List Nat
  | .add ref value => (c.neuDriverCacheAdd ref value, [])
  | .update ref value fresh => c.neuDriverCacheUpdateChange ref value fresh
  | .get ref fresh => (c.neuDriverCacheGet ref fresh, [])
  | .del ref => c.neuDriverCacheDel ref
  | .readerFree address => (c.readerFree address, [])

def blockStep (c : CacheBlocks) (op : BlockOp) : Option CacheBlocks := some (c.step op).1

/-- Only live blocks of the entry are freed, and all of them where its value goes. -/
structure StepSound (c : CacheBlocks) (op : BlockOp) : Prop where
  owned : ∀ address ∈ (c.step op).2,
    ∃ key, op.replaced = some key ∧ c.live.find address = some (.entry key)
  released : ∀ key address, op.replaced = some key → c.live.find address = some (.entry key) →
    address ∈ (c.step op).2

def Held.owns (held : Held) : Bool :=
  held.value.type = .ptr && !held.copied && held.value.value.ptrPtr ≠ 0

/-- A pointer value that an update stored is followed by a pointer value or deleted, never added
over or followed by another type; what is freed otherwise is NULL. -/
def BlocksAllowed (c : CacheBlocks) : BlockOp → Prop
  | .add ref _ => ∀ held, c.table.find (keyOf ref.group ref.tag) = some held → held.owns = false
  | .update ref value _ => ∀ held, c.table.find (keyOf ref.group ref.tag) = some held →
    if value.type = .ptr then held.value.value.ptrPtr = 0 ∨ held.owns = true
    else held.owns = false
  | .del ref => ∀ held, c.table.find (keyOf ref.group ref.tag) = some held →
    held.value.type = .ptr → held.value.value.ptrPtr = 0 ∨ held.owns = true
  | .get _ _ | .readerFree _ => True

/-- The invariant: the live blocks of an entry are the one that its value points to. -/
def BlocksInv (c : CacheBlocks) : Prop :=
  ∀ key address, c.live.find address = some (.entry key) ↔
    ∃ held, c.table.find key = some held ∧ held.owns = true ∧ held.value.value.ptrPtr = address

namespace CacheBlocks

section
variable {c : CacheBlocks} {key : TKey} {held : Held}

theorem ptrPtr_pointed (old new : ValueU) {address : Nat} (fits : address < 2 ^ 64) :
    (pointed old new address).ptrPtr = address := by
  rw [ValueU.ptrPtr, pointed, Block.window_overlay _ _ (by decide), Block.leValue_leBlock]
  exact Nat.mod_eq_of_lt fits

theorem owns_pointer (owns : held.owns = true) :
    held.value.type = .ptr ∧ held.copied = false ∧ held.value.value.ptrPtr ≠ 0 := by
  simpa [Held.owns, and_assoc] using owns

theorem copied_owns (value : NeuDvalue) : (Held.mk value true).owns = false := by
  simp [Held.owns]

theorem plain_owns (plain : held.value.type ≠ .ptr) : held.owns = false := by
  simp [Held.owns, plain]

theorem idle_live (inv : BlocksInv c)
    (idle : ∀ held, c.table.find key = some held → held.owns = false) (address : Nat) :
    c.live.find address ≠ some (.entry key) := by
  intro live
  obtain ⟨held, found, owns, -⟩ := (inv key address).mp live
  exact absurd (owns.symm.trans (idle held found)) (by decide)

theorem owned_live (inv : BlocksInv c) (found : c.table.find key = some held)
    (owns : held.owns = true) : c.live.find held.value.value.ptrPtr = some (.entry key) :=
  (inv key _).mpr ⟨held, found, owns, rfl⟩

theorem live_owned (inv : BlocksInv c) (found : c.table.find key = some held) {address : Nat}
    (live : c.live.find address = some (.entry key)) :
    held.owns = true ∧ held.value.value.ptrPtr = address := by
  obtain ⟨other, same, owns⟩ := (inv key address).mp live
  cases found.symm.trans same
  exact owns

/-- What an entry frees where it gives up its value: the block it owns, if it owns one. -/
def Settled (held : Held) (frees : List Nat) : Prop :=
  frees = [] ∧ held.owns = false ∨ frees = [held.value.value.ptrPtr] ∧ held.owns = true

theorem settled_freedPtrs (null : held.value.value.ptrPtr = 0 ∨ held.owns = true) :
    Settled held (freedPtrs held.value.value) := by
  rcases null with null | owns
  · exact .inl ⟨if_pos null, by simp [Held.owns, null]⟩
  · exact .inr ⟨if_neg (owns_pointer owns).2.2, owns⟩

theorem settled_live (inv : BlocksInv c) (found : c.table.find key = some held)
    {frees : List Nat} (settled : Settled held frees) (k : TKey) (address : Nat) :
    (freeAll c.live frees).find address = some (.entry k) ↔
      k ≠ key ∧ c.live.find address = some (.entry k) := by
  rcases settled with ⟨none, idle⟩ | ⟨one, owns⟩
  · subst none
    constructor
    · intro live
      refine ⟨?_, live⟩
      intro same
      rw [same] at live
      exact absurd ((live_owned inv found live).1.symm.trans idle) (by decide)
    · exact And.right
  · have mine := owned_live inv found owns
    rw [one]
    change (c.live.erase _).find address = _ ↔ _
    rw [Table.find_erase_some]
    constructor
    · rintro ⟨other, live⟩
      refine ⟨?_, live⟩
      intro same
      rw [same] at live
      exact other (live_owned inv found live).2.symm
    · rintro ⟨other, live⟩
      refine ⟨?_, live⟩
      intro same
      rw [same] at live
      exact other (Owner.entry.inj (Option.some.inj (live.symm.trans mine)))

theorem put_idle (inv : BlocksInv c)
    (idle : ∀ held, c.table.find key = some held → held.owns = false) {stored : Held}
    (plain : stored.owns = false) : BlocksInv { c with table := c.table.insert key stored } := by
  intro k address
  change c.live.find address = _ ↔ ∃ held, (c.table.insert key stored).find k = some held ∧ _
  rw [Table.find_insert]
  by_cases same : k = key
  · subst same
    rw [if_pos rfl]
    apply iff_of_false (idle_live inv idle address)
    rintro ⟨held, here, owns, -⟩
    cases here
    exact absurd (owns.symm.trans plain) (by decide)
  · rw [if_neg same]
    exact inv k address

theorem drop_settled (inv : BlocksInv c) (found : c.table.find key = some held)
    {frees : List Nat} (settled : Settled held frees) :
    BlocksInv ⟨c.table.erase key, freeAll c.live frees⟩ := by
  intro k address
  change (freeAll c.live frees).find address = _ ↔
    ∃ held, (c.table.erase key).find k = some held ∧ _
  rw [settled_live inv found settled, Table.find_erase]
  by_cases same : k = key
  · rw [if_pos same]
    apply iff_of_false (fun both => both.1 same)
    rintro ⟨held, here, -⟩
    cases here
  · rw [if_neg same]
    exact (and_iff_right same).trans (inv k address)

theorem calloc_entry (key : TKey) (live : Table Nat Owner) (fresh : Nat) :
    (calloc live (.entry key) fresh).1 < 2 ^ 64 ∧
      ∀ k address, (calloc live (.entry key) fresh).2.find address = some (.entry k) ↔
        live.find address = some (.entry k) ∨
          k = key ∧ address ≠ 0 ∧ address = (calloc live (.entry key) fresh).1 := by
  unfold calloc
  by_cases had : fresh ≠ 0 ∧ fresh < 2 ^ 64 ∧ live.find fresh = none
  · rw [if_pos had]
    refine ⟨had.2.1, fun k address => ?_⟩
    rw [Table.find_insert]
    by_cases here : address = fresh
    · rw [if_pos here, Option.some.injEq, Owner.entry.injEq, here, had.2.2]
      simp [had.1, eq_comm]
    · simp [here]
  · rw [if_neg had]
    refine ⟨Nat.two_pow_pos 64, fun k address => ?_⟩
    simp

theorem calloc_reader (live : Table Nat Owner) (fresh : Nat) (k : TKey) (address : Nat) :
    (calloc live .reader fresh).2.find address = some (.entry k) ↔
      live.find address = some (.entry k) := by
  unfold calloc
  by_cases had : fresh ≠ 0 ∧ fresh < 2 ^ 64 ∧ live.find fresh = none
  · rw [if_pos had, Table.find_insert]
    by_cases here : address = fresh
    · rw [if_pos here, here, had.2.2]
      simp
    · rw [if_neg here]
  · rw [if_neg had]

theorem put_block (inv : BlocksInv c) (found : c.table.find key = some held)
    {frees : List Nat} (settled : Settled held frees) {value : NeuDvalue}
    (pointer : value.type = .ptr) (fresh : Nat) :
    BlocksInv ⟨c.table.insert key ⟨⟨value.type, pointed held.value.value value.value
      (calloc (freeAll c.live frees) (.entry key) fresh).1, held.value.precision⟩, false⟩,
      (calloc (freeAll c.live frees) (.entry key) fresh).2⟩ := by
  obtain ⟨fits, live⟩ := calloc_entry key (freeAll c.live frees) fresh
  intro k address
  change (calloc (freeAll c.live frees) (.entry key) fresh).2.find address = _ ↔
    ∃ held, (c.table.insert key _).find k = some held ∧ _
  rw [live, settled_live inv found settled, Table.find_insert]
  by_cases same : k = key
  · subst same
    rw [if_pos rfl]
    have place := ptrPtr_pointed held.value.value value.value fits
    constructor
    · rintro (⟨other, -⟩ | ⟨-, real, here⟩)
      · exact absurd rfl other
      · refine ⟨_, rfl, ?_, place.trans here.symm⟩
        rw [here] at real
        simp [Held.owns, pointer, place, real]
    · rintro ⟨other, here, owns, there⟩
      cases here
      have real := (owns_pointer owns).2.2
      have target := place.symm.trans there
      exact .inr ⟨rfl, there ▸ real, target.symm⟩
  · rw [if_neg same]
    have others : (k ≠ key ∧ c.live.find address = some (.entry k) ∨
        k = key ∧ address ≠ 0 ∧ address = (calloc (freeAll c.live frees) (.entry key) fresh).1) ↔
        c.live.find address = some (.entry k) := by
      simp [same]
    exact others.trans (inv k address)

/- What a step frees. -/

theorem stepSound_replaced {op : BlockOp} {frees : List Nat} (replaced : op.replaced = some key)
    (freed : (c.step op).2 = frees) :
    StepSound c op ↔ (∀ address ∈ frees, c.live.find address = some (.entry key)) ∧
      ∀ address, c.live.find address = some (.entry key) → address ∈ frees := by
  subst freed
  constructor
  · rintro ⟨owned, released⟩
    refine ⟨fun address inside => ?_, fun address => released key address replaced⟩
    obtain ⟨other, same, live⟩ := owned address inside
    cases replaced.symm.trans same
    exact live
  · rintro ⟨owned, released⟩
    refine ⟨fun address inside => ⟨key, replaced, owned address inside⟩, ?_⟩
    intro other address same
    cases replaced.symm.trans same
    exact released address

theorem sound_nothing (inv : BlocksInv c) {op : BlockOp} (replaced : op.replaced = some key)
    (freed : (c.step op).2 = []) :
    StepSound c op ↔ ∀ held, c.table.find key = some held → held.owns = false := by
  rw [stepSound_replaced replaced freed]
  constructor
  · rintro ⟨-, released⟩ held found
    cases owns : held.owns with
    | false => rfl
    | true => cases released _ (owned_live inv found owns)
  · intro idle
    exact ⟨List.forall_mem_nil _, fun address live => absurd live (idle_live inv idle address)⟩

theorem sound_freed (inv : BlocksInv c) (found : c.table.find key = some held) {op : BlockOp}
    (replaced : op.replaced = some key) (freed : (c.step op).2 = freedPtrs held.value.value) :
    StepSound c op ↔ held.value.value.ptrPtr = 0 ∨ held.owns = true := by
  rw [stepSound_replaced replaced freed]
  constructor
  · rintro ⟨owned, -⟩
    by_cases null : held.value.value.ptrPtr = 0
    · exact .inl null
    · have inside : held.value.value.ptrPtr ∈ freedPtrs held.value.value := by
        rw [freedPtrs, if_neg null]
        exact List.mem_singleton_self _
      exact .inr (live_owned inv found (owned _ inside)).1
  · intro null
    rcases settled_freedPtrs null with ⟨none, idle⟩ | ⟨one, owns⟩
    · rw [none]
      refine ⟨List.forall_mem_nil _, fun address live => ?_⟩
      exact absurd ((live_owned inv found live).1.symm.trans idle) (by decide)
    · rw [one]
      refine ⟨List.forall_mem_singleton.mpr (owned_live inv found owns), fun address live => ?_⟩
      exact List.mem_singleton.mpr (live_owned inv found live).2.symm

end

section
variable {c : CacheBlocks} {ref : TagRef} {held : Held} {value : NeuDvalue} {fresh : Nat}

theorem update_absent (absent : c.table.find (keyOf ref.group ref.tag) = none) :
    c.neuDriverCacheUpdateChange ref value fresh = (c, []) := by
  rw [neuDriverCacheUpdateChange, absent]

theorem update_plain (found : c.table.find (keyOf ref.group ref.tag) = some held)
    (plain : value.type ≠ .ptr) : c.neuDriverCacheUpdateChange ref value fresh =
      (⟨c.table.insert (keyOf ref.group ref.tag)
        ⟨⟨value.type, value.value, held.value.precision⟩, false⟩, c.live⟩, []) := by
  rw [neuDriverCacheUpdateChange, found]
  exact if_neg plain

theorem update_pointer (found : c.table.find (keyOf ref.group ref.tag) = some held)
    (pointer : value.type = .ptr) : c.neuDriverCacheUpdateChange ref value fresh =
      (⟨c.table.insert (keyOf ref.group ref.tag) ⟨⟨value.type, pointed held.value.value value.value
          (calloc (freeAll c.live (freedPtrs held.value.value))
            (.entry (keyOf ref.group ref.tag)) fresh).1, held.value.precision⟩, false⟩,
        (calloc (freeAll c.live (freedPtrs held.value.value))
          (.entry (keyOf ref.group ref.tag)) fresh).2⟩, freedPtrs held.value.value) := by
  rw [neuDriverCacheUpdateChange, found]
  exact if_pos pointer

theorem del_absent (absent : c.table.find (keyOf ref.group ref.tag) = none) :
    c.neuDriverCacheDel ref = (c, []) := by
  rw [neuDriverCacheDel, absent]

theorem del_found (found : c.table.find (keyOf ref.group ref.tag) = some held) :
    c.neuDriverCacheDel ref = (⟨c.table.erase (keyOf ref.group ref.tag),
      freeAll c.live (if held.value.type = .ptr then freedPtrs held.value.value else [])⟩,
      if held.value.type = .ptr then freedPtrs held.value.value else []) := by
  rw [neuDriverCacheDel, found]

end

end CacheBlocks

section
variable {c : CacheBlocks}

open CacheBlocks

theorem one_held {key : TKey} {held : Held} (found : c.table.find key = some held)
    (condition : Held → Prop) :
    (∀ other, c.table.find key = some other → condition other) ↔ condition held := by
  constructor
  · exact fun all => all held found
  · intro met other here
    cases found.symm.trans here
    exact met

theorem no_held {key : TKey} (absent : c.table.find key = none) (condition : Held → Prop) :
    ∀ held, c.table.find key = some held → condition held := by
  intro held here
  cases absent.symm.trans here

variable {ref : TagRef} {value : NeuDvalue} {fresh : Nat}

theorem update_sound (inv : BlocksInv c) :
    StepSound c (.update ref value fresh) ↔ BlocksAllowed c (.update ref value fresh) := by
  have replaced : (BlockOp.update ref value fresh).replaced = some (keyOf ref.group ref.tag) := rfl
  cases found : c.table.find (keyOf ref.group ref.tag) with
  | none =>
    have freed : (c.step (.update ref value fresh)).2 = [] := by
      rw [CacheBlocks.step, update_absent found]
    rw [sound_nothing inv replaced freed]
    exact iff_of_true (no_held found _) (no_held found _)
  | some held =>
    rw [BlocksAllowed, one_held found]
    by_cases pointer : value.type = .ptr
    · have freed : (c.step (.update ref value fresh)).2 = freedPtrs held.value.value := by
        rw [CacheBlocks.step, update_pointer found pointer]
      rw [if_pos pointer]
      exact sound_freed inv found replaced freed
    · have freed : (c.step (.update ref value fresh)).2 = [] := by
        rw [CacheBlocks.step, update_plain found pointer]
      rw [if_neg pointer, sound_nothing inv replaced freed]
      exact one_held found _

theorem del_sound (inv : BlocksInv c) : StepSound c (.del ref) ↔ BlocksAllowed c (.del ref) := by
  have replaced : (BlockOp.del ref).replaced = some (keyOf ref.group ref.tag) := rfl
  cases found : c.table.find (keyOf ref.group ref.tag) with
  | none =>
    have freed : (c.step (.del ref)).2 = [] := by rw [CacheBlocks.step, del_absent found]
    rw [sound_nothing inv replaced freed]
    exact iff_of_true (no_held found _) (no_held found _)
  | some held =>
    rw [BlocksAllowed, one_held found]
    by_cases pointer : held.value.type = .ptr
    · have freed : (c.step (.del ref)).2 = freedPtrs held.value.value := by
        rw [CacheBlocks.step, del_found found, if_pos pointer]
      rw [sound_freed inv found replaced freed]
      exact ⟨fun met _ => met, fun met => met pointer⟩
    · have freed : (c.step (.del ref)).2 = [] := by
        rw [CacheBlocks.step, del_found found, if_neg pointer]
      rw [sound_nothing inv replaced freed, one_held found]
      exact iff_of_true (plain_owns pointer) fun type => absurd type pointer

theorem quiet_sound {op : BlockOp} (replaced : op.replaced = none) (freed : (c.step op).2 = []) :
    StepSound c op := by
  constructor
  · rw [freed]
    exact List.forall_mem_nil _
  · intro key address same
    cases replaced.symm.trans same

theorem stepSound_iff (inv : BlocksInv c) (op : BlockOp) : StepSound c op ↔ BlocksAllowed c op := by
  cases op with
  | add ref value =>
    have replaced : (BlockOp.add ref value).replaced = some (keyOf ref.group ref.tag) := rfl
    exact sound_nothing inv replaced rfl
  | update ref value fresh => exact update_sound inv
  | get ref fresh => exact iff_of_true (quiet_sound rfl rfl) trivial
  | del ref => exact del_sound inv
  | readerFree address => exact iff_of_true (quiet_sound rfl rfl) trivial

theorem update_inv (inv : BlocksInv c) (allowed : BlocksAllowed c (.update ref value fresh)) :
    BlocksInv (c.neuDriverCacheUpdateChange ref value fresh).1 := by
  cases found : c.table.find (keyOf ref.group ref.tag) with
  | none =>
    rw [update_absent found]
    exact inv
  | some held =>
    have settled := allowed held found
    by_cases pointer : value.type = .ptr
    · rw [update_pointer found pointer]
      rw [if_pos pointer] at settled
      exact put_block inv found (settled_freedPtrs settled) pointer fresh
    · rw [update_plain found pointer]
      rw [if_neg pointer] at settled
      have plain : (Held.mk ⟨value.type, value.value, held.value.precision⟩ false).owns = false :=
        plain_owns pointer
      exact put_idle inv ((one_held found _).mpr settled) plain

theorem get_inv (inv : BlocksInv c) : BlocksInv (c.neuDriverCacheGet ref fresh) := by
  unfold CacheBlocks.neuDriverCacheGet
  split
  · exact inv
  · split
    · intro key address
      exact (calloc_reader c.live fresh key address).trans (inv key address)
    · exact inv

theorem del_inv (inv : BlocksInv c) (allowed : BlocksAllowed c (.del ref)) :
    BlocksInv (c.neuDriverCacheDel ref).1 := by
  cases found : c.table.find (keyOf ref.group ref.tag) with
  | none =>
    rw [del_absent found]
    exact inv
  | some held =>
    rw [del_found found]
    by_cases pointer : held.value.type = .ptr
    · rw [if_pos pointer]
      exact drop_settled inv found (settled_freedPtrs (allowed held found pointer))
    · rw [if_neg pointer]
      exact drop_settled inv found (.inl ⟨rfl, plain_owns pointer⟩)

theorem readerFree_inv (inv : BlocksInv c) (address : Nat) : BlocksInv (c.readerFree address) := by
  unfold readerFree
  split
  · next mine =>
    intro key other
    rw [← inv key other]
    change (c.live.erase address).find other = _ ↔ _
    rw [Table.find_erase_some]
    apply and_iff_right_of_imp
    intro live same
    subst same
    cases live.symm.trans mine
  · exact inv

theorem blockStep_inv {c' : CacheBlocks} (inv : BlocksInv c) {op : BlockOp}
    (allowed : BlocksAllowed c op) (stepped : blockStep c op = some c') : BlocksInv c' := by
  cases stepped
  cases op with
  | add ref value => exact put_idle inv allowed (copied_owns value)
  | update ref value fresh => exact update_inv inv allowed
  | get ref fresh => exact get_inv inv
  | del ref => exact del_inv inv allowed
  | readerFree address => exact readerFree_inv inv address

theorem blocksNew_inv : BlocksInv CacheBlocks.new := by
  intro key address
  apply iff_of_false
  · intro live
    cases live
  · rintro ⟨held, found, -⟩
    cases found

end

/-- Over every run: each step frees the blocks of its entry and no other pointer exactly when each
step keeps to the condition. -/
theorem blocks_owned (ops : List BlockOp) :
    Along blockStep StepSound CacheBlocks.new ops ↔
      Along blockStep BlocksAllowed CacheBlocks.new ops :=
  along_iff (fun _ op inv => stepSound_iff inv op) (fun _ _ _ inv => blockStep_inv inv)
    blocksNew_inv

/-- Sixteen characters, of which the last eight stand where a pointer would. -/
def textValue : NeuDvalue :=
  ⟨.string, Block.ofList 136 ("abcdefghijklmnop".toList.map fun c => c.toNat.toUInt8), 0⟩

def pointerValue : NeuDvalue := ⟨.ptr, .ofU32 0, 0⟩

/-- A text and then a pointer: eight characters are freed. A pointer and then an integer: the block
is lost. -/
theorem text_bytes_freed :
    ¬ Along blockStep StepSound CacheBlocks.new
        [.add groupTag ⟨.error, .ofU32 0, 0⟩, .update groupTag textValue 0,
          .update groupTag pointerValue 4096] ∧
      ¬ Along blockStep StepSound CacheBlocks.new
        [.add groupTag ⟨.error, .ofU32 0, 0⟩, .update groupTag pointerValue 4096,
          .update groupTag ⟨.int8, .ofU32 7, 0⟩ 0] := by
  constructor
  · rintro ⟨-, added⟩
    obtain ⟨-, updated⟩ := added _ rfl
    obtain ⟨last, -⟩ := updated _ rfl
    obtain ⟨key, -, live⟩ := last.owned 0x706f6e6d6c6b6a69 (by decide +kernel)
    cases live
  · rintro ⟨-, added⟩
    obtain ⟨-, updated⟩ := added _ rfl
    obtain ⟨last, -⟩ := updated _ rfl
    cases last.released _ 4096 rfl (by decide +kernel)

/- The values are those of the cache. -/

def CacheOp.blocks : CacheOp → BlockOp
  | .add ref v => .add ref v.value
  | .update ref _ v _ _ fresh => .update ref v.value fresh
  | .get ref | .metaGet ref _ | .getChanged ref | .metaGetChanged ref _ => .get ref 0
  | .del ref => .del ref

/-- The same values, and no block that the cache does not have. -/
structure Mirrors (cache : NeuDriverCache) (c : CacheBlocks) : Prop where
  values : ∀ key, (c.table.find key).map Held.value = (cache.table.find key).map Elem.value
  live : ∀ address, cache.heap.find address = none → c.live.find address = none

section
variable {cache : NeuDriverCache} {c : CacheBlocks} {key : TKey} {elem : Elem}

open CacheBlocks

theorem mirrors_insert (mirrors : Mirrors cache c) (held : Held) (same : held.value = elem.value)
    {heap : Heap} {live : Table Nat Owner}
    (fewer : ∀ address, heap.find address = none → live.find address = none) :
    Mirrors ⟨cache.table.insert key elem, heap⟩ ⟨c.table.insert key held, live⟩ where
  values other := by
    change ((c.table.insert key held).find other).map _ =
      ((cache.table.insert key elem).find other).map _
    rw [Table.find_insert, Table.find_insert]
    by_cases here : other = key
    · rw [if_pos here, if_pos here, Option.map_some, Option.map_some, same]
    · rw [if_neg here, if_neg here]
      exact mirrors.values other
  live := fewer

theorem mirrors_erase (mirrors : Mirrors cache c) {heap : Heap} {live : Table Nat Owner}
    (fewer : ∀ address, heap.find address = none → live.find address = none) :
    Mirrors ⟨cache.table.erase key, heap⟩ ⟨c.table.erase key, live⟩ where
  values other := by
    change ((c.table.erase key).find other).map _ = ((cache.table.erase key).find other).map _
    rw [Table.find_erase, Table.find_erase]
    by_cases here : other = key
    · rw [if_pos here, if_pos here]
      rfl
    · rw [if_neg here, if_neg here]
      exact mirrors.values other
  live := fewer

theorem mirrors_absent (mirrors : Mirrors cache c) (absent : cache.table.find key = none) :
    c.table.find key = none := by
  have same := mirrors.values key
  rw [absent] at same
  exact Option.map_eq_none_iff.mp same

theorem mirrors_found (mirrors : Mirrors cache c) (found : cache.table.find key = some elem) :
    ∃ held, c.table.find key = some held ∧ held.value = elem.value := by
  have same := mirrors.values key
  rw [found] at same
  exact Option.map_eq_some_iff.mp same

theorem mirrors_freed (mirrors : Mirrors cache c) {u : ValueU} {heap : Heap}
    (freed : freePtr cache.heap u.ptrPtr = some heap) (address : Nat)
    (gone : heap.find address = none) : (freeAll c.live (freedPtrs u)).find address = none := by
  unfold freePtr at freed
  by_cases null : u.ptrPtr = 0
  · rw [if_pos null] at freed
    cases freed
    rw [freedPtrs, if_pos null]
    exact mirrors.live address gone
  · rw [if_neg null] at freed
    obtain ⟨-, erased⟩ := Option.ite_none_right_eq_some.mp freed
    cases erased
    rw [freedPtrs, if_neg null]
    change (c.live.erase _).find address = none
    rw [Table.find_erase] at gone ⊢
    by_cases here : address = u.ptrPtr
    · rw [if_pos here]
    · rw [if_neg here] at gone ⊢
      exact mirrors.live address gone

theorem mirrors_get (mirrors : Mirrors cache c) (ref : TagRef) :
    Mirrors cache (c.neuDriverCacheGet ref 0) := by
  unfold CacheBlocks.neuDriverCacheGet
  split
  · exact mirrors
  · split
    · exact ⟨mirrors.values, mirrors.live⟩
    · exact mirrors

theorem mirrors_reported (mirrors : Mirrors cache c) (found : cache.table.find key = some elem) :
    Mirrors { cache with table := cache.table.insert key elem.reported } c where
  values other := by
    change _ = ((cache.table.insert key elem.reported).find other).map _
    rw [Table.find_insert]
    by_cases here : other = key
    · subst here
      rw [if_pos rfl, mirrors.values other, found]
      rfl
    · rw [if_neg here]
      exact mirrors.values other
  live := mirrors.live

variable {cache' : NeuDriverCache} {ref : TagRef}

theorem mirrors_add (mirrors : Mirrors cache c) {value : NeuDvalue} {data : List UInt8}
    (added : Cpm.neuDriverCacheAdd cache ref.group ref.tag value data = some cache') :
    Mirrors cache' (c.neuDriverCacheAdd ref value) := by
  simp only [Cpm.neuDriverCacheAdd, toKey_ref, Option.bind_eq_bind, Option.bind_some] at added
  obtain ⟨heap, adopted, put⟩ := Option.bind_eq_some_iff.mp added
  cases put
  apply mirrors_insert mirrors _ rfl
  intro address absent
  apply mirrors.live
  unfold adoptPtr at adopted
  split at adopted
  · obtain ⟨-, inserted⟩ := Option.ite_none_right_eq_some.mp adopted
    cases inserted
    rw [Table.find_insert] at absent
    split at absent
    · cases absent
    · exact absent
  · cases adopted
    exact absent

theorem mirrors_stored (mirrors : Mirrors cache c)
    (found : cache.table.find (keyOf ref.group ref.tag) = some elem) {value : NeuDvalue}
    {data : List UInt8} {fresh : Nat} {u : ValueU} {heap : Heap}
    (stored : storeValue cache.heap elem.value.value value data fresh = some (u, heap))
    (timestamp : Int) (changed : Bool) (metas : Metas) :
    Mirrors ⟨cache.table.insert (keyOf ref.group ref.tag)
        ⟨timestamp, changed, ⟨value.type, u, elem.value.precision⟩, metas⟩, heap⟩
      (c.neuDriverCacheUpdateChange ref value fresh).1 := by
  obtain ⟨held, here, same⟩ := mirrors_found mirrors found
  unfold storeValue at stored
  by_cases pointer : value.type = .ptr
  · rw [if_pos pointer] at stored
    obtain ⟨bytes, -, stored⟩ := Option.bind_eq_some_iff.mp stored
    obtain ⟨freed, release, stored⟩ := Option.bind_eq_some_iff.mp stored
    obtain ⟨unused, put⟩ := Option.ite_none_right_eq_some.mp stored
    cases put
    simp only [freshAddress, Bool.and_eq_true, decide_eq_true_eq] at unused
    rw [← same] at release
    have gone := mirrors_freed mirrors release
    have had : fresh ≠ 0 ∧ fresh < 2 ^ 64 ∧
        (freeAll c.live (freedPtrs held.value.value)).find fresh = none :=
      ⟨unused.1.1, unused.1.2, gone fresh unused.2⟩
    rw [update_pointer here pointer, calloc, if_pos had]
    apply mirrors_insert mirrors
    · rw [same]
      rfl
    · intro address absent
      rw [Table.find_insert] at absent ⊢
      by_cases new : address = fresh
      · rw [if_pos new] at absent
        cases absent
      · rw [if_neg new] at absent ⊢
        exact gone address absent
  · rw [if_neg pointer] at stored
    cases stored
    rw [update_plain here pointer]
    apply mirrors_insert mirrors
    · rw [same]
    · exact mirrors.live

theorem mirrors_update {band : DeadBand} (mirrors : Mirrors cache c) {timestamp : Int}
    {value : NeuDvalue}
    {data : List UInt8} {metas : List NeuTagMeta} {change : Bool} {fresh : Nat}
    (updated : Cpm.neuDriverCacheUpdateChange band cache ref.group ref.tag timestamp value data metas
      change fresh = some cache') :
    Mirrors cache' (c.neuDriverCacheUpdateChange ref value fresh).1 := by
  simp only [Cpm.neuDriverCacheUpdateChange, toKey_ref, Option.bind_eq_bind,
    Option.bind_some] at updated
  cases found : cache.table.find (keyOf ref.group ref.tag) with
  | none =>
    simp only [found] at updated
    cases updated
    rw [update_absent (mirrors_absent mirrors found)]
    exact mirrors
  | some elem =>
    simp only [found] at updated
    obtain ⟨changed, -, updated⟩ := Option.bind_eq_some_iff.mp updated
    obtain ⟨⟨u, heap⟩, stored, updated⟩ := Option.bind_eq_some_iff.mp updated
    obtain ⟨-, put⟩ := Option.ite_none_right_eq_some.mp updated
    cases put
    exact mirrors_stored mirrors found stored _ _ _

theorem mirrors_getChanged (mirrors : Mirrors cache c) {value : Option NeuDriverCacheValue}
    (read : neuDriverCacheGetChanged cache ref.group ref.tag = some (cache', value)) :
    Mirrors cache' c := by
  simp only [neuDriverCacheGetChanged, toKey_ref, Option.bind_eq_bind, Option.bind_some] at read
  split at read
  · cases read
    exact mirrors
  · next elem marked =>
    obtain ⟨_, -, put⟩ := Option.bind_eq_some_iff.mp read
    cases put
    exact mirrors_reported mirrors (Option.filter_eq_some_iff.mp marked).1

theorem mirrors_metaGetChanged (mirrors : Mirrors cache c) {nMeta : Nat}
    {value : Option (NeuDriverCacheValue × Metas)}
    (read : neuDriverCacheMetaGetChanged cache ref.group ref.tag nMeta = some (cache', value)) :
    Mirrors cache' c := by
  simp only [neuDriverCacheMetaGetChanged, toKey_ref, Option.bind_eq_bind, Option.bind_some] at read
  split at read
  · cases read
    exact mirrors
  · next elem marked =>
    obtain ⟨-, read⟩ := Option.ite_none_right_eq_some.mp read
    obtain ⟨_, -, put⟩ := Option.bind_eq_some_iff.mp read
    cases put
    exact mirrors_reported mirrors (Option.filter_eq_some_iff.mp marked).1

theorem mirrors_del (mirrors : Mirrors cache c)
    (deleted : Cpm.neuDriverCacheDel cache ref.group ref.tag = some cache') :
    Mirrors cache' (c.neuDriverCacheDel ref).1 := by
  simp only [Cpm.neuDriverCacheDel, toKey_ref, Option.bind_eq_bind, Option.bind_some] at deleted
  cases found : cache.table.find (keyOf ref.group ref.tag) with
  | none =>
    simp only [found] at deleted
    cases deleted
    rw [del_absent (mirrors_absent mirrors found)]
    exact mirrors
  | some elem =>
    obtain ⟨held, here, value⟩ := mirrors_found mirrors found
    simp only [found] at deleted
    obtain ⟨heap, released, put⟩ := Option.bind_eq_some_iff.mp deleted
    cases put
    rw [del_found here]
    apply mirrors_erase mirrors
    rw [value]
    unfold releasePtr at released
    by_cases pointer : elem.value.type = .ptr
    · rw [if_pos pointer] at released ⊢
      exact mirrors_freed mirrors released
    · rw [if_neg pointer] at released ⊢
      cases released
      exact mirrors.live

theorem cacheStep_mirrors {band : DeadBand} {op : CacheOp} {seen : Option View}
    (mirrors : Mirrors cache c)
    (stepped : cacheStep band cache op = some (cache', seen)) :
    Mirrors cache' (c.step op.blocks).1 := by
  cases op with
  | add ref v =>
    obtain ⟨after, added, same⟩ := Option.map_eq_some_iff.mp stepped
    cases same
    exact mirrors_add mirrors added
  | update ref timestamp v metas change fresh =>
    obtain ⟨after, updated, same⟩ := Option.map_eq_some_iff.mp stepped
    cases same
    exact mirrors_update mirrors updated
  | get ref =>
    obtain ⟨_, -, same⟩ := Option.map_eq_some_iff.mp stepped
    cases same
    exact mirrors_get mirrors ref
  | metaGet ref nMeta =>
    obtain ⟨_, -, same⟩ := Option.map_eq_some_iff.mp stepped
    cases same
    exact mirrors_get mirrors ref
  | getChanged ref =>
    obtain ⟨⟨after, value⟩, read, same⟩ := Option.map_eq_some_iff.mp stepped
    cases same
    exact mirrors_get (mirrors_getChanged mirrors read) ref
  | metaGetChanged ref nMeta =>
    obtain ⟨⟨after, value⟩, read, same⟩ := Option.map_eq_some_iff.mp stepped
    cases same
    exact mirrors_get (mirrors_metaGetChanged mirrors read) ref
  | del ref =>
    obtain ⟨after, deleted, same⟩ := Option.map_eq_some_iff.mp stepped
    cases same
    exact mirrors_del mirrors deleted

end

/-- A run of the cache is a run of its blocks. -/
theorem cache_blocks {band : DeadBand} {ops : List CacheOp} {cache : NeuDriverCache}
    {seen : List (Option View)}
    (ran : observe (cacheStep band) neuDriverCacheNew ops = some (cache, seen)) :
    ∃ c, (ops.map CacheOp.blocks).foldlM blockStep CacheBlocks.new = some c ∧ Mirrors cache c := by
  have start : Mirrors neuDriverCacheNew CacheBlocks.new := ⟨fun _ => rfl, fun _ _ => rfl⟩
  generalize neuDriverCacheNew = before, CacheBlocks.new = c at ran start
  induction ops generalizing before c seen with
  | nil =>
    cases ran
    exact ⟨c, rfl, start⟩
  | cons op rest ih =>
    obtain ⟨⟨next, view⟩, stepped, ran⟩ := Option.bind_eq_some_iff.mp ran
    obtain ⟨⟨ended, views⟩, further, same⟩ := Option.bind_eq_some_iff.mp ran
    cases same
    obtain ⟨last, tail, mirrors⟩ := ih _ _ further (cacheStep_mirrors start stepped)
    exact ⟨last, run_cons rfl tail, mirrors⟩

end Cpm
