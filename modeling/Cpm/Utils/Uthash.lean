import Cpm.Lib.Chains
import Cpm.Lib.Run
import Mathlib.Algebra.GroupWithZero.Nat
import Mathlib.Algebra.Order.Ring.Nat
import Mathlib.Tactic.SplitIfs

/-! The tables of `uthash.h`. An element is known by its address; the hash function and the
keys are arbitrary. A table without elements is the NULL head. -/
namespace Cpm

open Lib

/-- The handle inside an element. Its links are the two lists it stands in. -/
structure UtHashHandle (κ ε : Type*) where
  elem : ε
  key : κ
  hashv : ℕ
  deriving DecidableEq, Repr

structure UtHashBucket (κ ε : Type*) where
  chain : List (UtHashHandle κ ε)
  count : ℕ
  expandMult : ℕ
  deriving DecidableEq, Repr

/-- `items` is the list of the elements in the order of their addition. The counters do not
wrap, which would take four billion elements. -/
structure UtHashTable (κ ε : Type*) where
  items : List (UtHashHandle κ ε)
  buckets : List (UtHashBucket κ ε)
  numBuckets : ℕ
  log2NumBuckets : ℕ
  numItems : ℕ
  idealChainMaxlen : ℕ
  nonidealItems : ℕ
  ineffExpands : ℕ
  noexpand : Bool
  deriving DecidableEq, Repr

abbrev UtHash (κ ε : Type*) := Option (UtHashTable κ ε)

def HASH_INITIAL_NUM_BUCKETS : ℕ := 32
def HASH_INITIAL_NUM_BUCKETS_LOG2 : ℕ := 5
def HASH_BKT_CAPACITY_THRESH : ℕ := 10

def hashToBkt (hashv numBkts : ℕ) : ℕ := hashv &&& (numBkts - 1)

section
variable {κ ε : Type*}

def emptyBucket : UtHashBucket κ ε := ⟨[], 0, 0⟩

def hashMakeTable (h : UtHashHandle κ ε) : UtHashTable κ ε where
  items := [h]
  buckets := List.replicate HASH_INITIAL_NUM_BUCKETS emptyBucket
  numBuckets := HASH_INITIAL_NUM_BUCKETS
  log2NumBuckets := HASH_INITIAL_NUM_BUCKETS_LOG2
  numItems := 0
  idealChainMaxlen := 0
  nonidealItems := 0
  ineffExpands := 0
  noexpand := false

/-- An element that an expansion moves. A chain beyond its ideal length is remembered. -/
def UtHashBucket.moveIn (ideal : ℕ) (b : UtHashBucket κ ε) (h : UtHashHandle κ ε) :
    UtHashBucket κ ε where
  chain := h :: b.chain
  count := b.count + 1
  expandMult :=
    if b.count + 1 > ideal ∧ b.count + 1 > b.expandMult * ideal then b.expandMult + 1
    else b.expandMult

/-- The inner loop of `HASH_EXPAND_BUCKETS`: the new buckets, and the elements beyond the
ideal length so far. -/
def hashMove (ideal num : ℕ) (moved : List (UtHashBucket κ ε) × ℕ) (h : UtHashHandle κ ε) :
    List (UtHashBucket κ ε) × ℕ :=
  let bkt := hashToBkt h.hashv num
  (moved.1.modify bkt fun b => b.moveIn ideal h,
    match moved.1[bkt]? with
    | some b => if b.count + 1 > ideal then moved.2 + 1 else moved.2
    | none => moved.2)

/-- `HASH_EXPAND_BUCKETS`. Two expansions in a row that leave more than half of the elements
beyond the ideal length are the last ones. -/
def hashExpandBuckets (t : UtHashTable κ ε) : UtHashTable κ ε :=
  let num := t.numBuckets * 2
  let ideal := (t.numItems >>> (t.log2NumBuckets + 1)) +
    if t.numItems &&& (num - 1) ≠ 0 then 1 else 0
  let moved := (t.buckets.flatMap UtHashBucket.chain).foldl (hashMove ideal num)
    (List.replicate num emptyBucket, 0)
  let ineff := if moved.2 > t.numItems >>> 1 then t.ineffExpands + 1 else 0
  { t with
    buckets := moved.1
    numBuckets := num
    log2NumBuckets := t.log2NumBuckets + 1
    idealChainMaxlen := ideal
    nonidealItems := moved.2
    ineffExpands := ineff
    noexpand := t.noexpand || ineff > 1 }

def hashAddToTable (t : UtHashTable κ ε) (h : UtHashHandle κ ε) : UtHashTable κ ε :=
  let bkt := hashToBkt h.hashv t.numBuckets
  let added :=
    { t with
      numItems := t.numItems + 1
      buckets := t.buckets.modify bkt fun b => { b with chain := h :: b.chain, count := b.count + 1 } }
  let full : Bool :=
    match added.buckets[bkt]? with
    | some b => b.count ≥ (b.expandMult + 1) * HASH_BKT_CAPACITY_THRESH
    | none => false
  if full && !t.noexpand then hashExpandBuckets added else added

/-- `HASH_ADD_KEYPTR`. Nothing looks for an element with the same key. -/
def hashAdd (hash : κ → ℕ) (head : UtHash κ ε) (key : κ) (elem : ε) : UtHash κ ε :=
  let h := ⟨elem, key, hash key⟩
  match head with
  | none => some (hashAddToTable (hashMakeTable h) h)
  | some t => some (hashAddToTable { t with items := t.items ++ [h] } h)

def hashCount (head : UtHash κ ε) : ℕ :=
  match head with
  | none => 0
  | some t => t.numItems

def hashHandles (head : UtHash κ ε) : List (UtHashHandle κ ε) :=
  match head with
  | none => []
  | some t => t.items

def hashIter (head : UtHash κ ε) : List ε := (hashHandles head).map UtHashHandle.elem

variable [DecidableEq κ]

def hashFind (hash : κ → ℕ) (head : UtHash κ ε) (key : κ) : Option (UtHashHandle κ ε) :=
  match head with
  | none => none
  | some t =>
    match t.buckets[hashToBkt (hash key) t.numBuckets]? with
    | some b => b.chain.find? fun h => h.hashv = hash key ∧ h.key = key
    | none => none

variable [DecidableEq ε]

/-- `HASH_DELETE_HH`. The last element takes the table with it. -/
def hashDelete (head : UtHash κ ε) (h : UtHashHandle κ ε) : UtHash κ ε :=
  match head with
  | none => none
  | some t =>
    if t.items = [h] then none
    else
      some { t with
        items := t.items.erase h
        buckets := t.buckets.modify (hashToBkt h.hashv t.numBuckets) fun b =>
          { b with chain := b.chain.erase h, count := b.count - 1 }
        numItems := t.numItems - 1 }

end

/-- The counts of `HASH_FSCK`, which stops the program where one is wrong: every count is the length
of its chain, and both ways to count the elements give their number. A list has no links back that
could be. -/
def hashFsckCounts {κ ε : Type*} (head : UtHash κ ε) : Bool :=
  match head with
  | none => true
  | some t =>
    (t.buckets.all fun b => b.count = b.chain.length) &&
      (t.buckets.map fun b => b.chain.length).sum = t.numItems &&
      t.items.length = t.numItems

section
variable {κ ε : Type*} {hash : κ → ℕ}

/-- Every bucket has the elements whose hash value leads to it, and the counts are true. -/
structure UtHashTable.Indexed (t : UtHashTable κ ε) (items : List (UtHashHandle κ ε)) : Prop where
  numBuckets : t.numBuckets = 2 ^ t.log2NumBuckets
  length : t.buckets.length = t.numBuckets
  filed : Chains.Filed (fun h => hashToBkt h.hashv t.numBuckets)
    (t.buckets.map UtHashBucket.chain) items
  counts : ∀ b ∈ t.buckets, b.count = b.chain.length
  numItems : t.numItems = items.length

/-- The list of the elements is not empty, no element is in it twice, and each has the hash
value of its key. -/
structure UtHashTable.WellFormed (hash : κ → ℕ) (t : UtHashTable κ ε) : Prop where
  indexed : t.Indexed t.items
  held : t.items ≠ []
  hashed : ∀ h ∈ t.items, h.hashv = hash h.key
  distinct : (t.items.map UtHashHandle.elem).Nodup

def UtHash.WellFormed (hash : κ → ℕ) (head : UtHash κ ε) : Prop :=
  ∀ t, head = some t → t.WellFormed hash

theorem hashToBkt_pow (hashv k : ℕ) : hashToBkt hashv (2 ^ k) = hashv % 2 ^ k :=
  Nat.and_two_pow_sub_one_eq_mod hashv k

theorem hashToBkt_lt (hashv k : ℕ) : hashToBkt hashv (2 ^ k) < 2 ^ k :=
  hashToBkt_pow hashv k ▸ Nat.mod_lt _ (Nat.two_pow_pos k)

theorem map_chain_modify {f : UtHashBucket κ ε → UtHashBucket κ ε}
    {g : List (UtHashHandle κ ε) → List (UtHashHandle κ ε)} (same : ∀ b, (f b).chain = g b.chain)
    (bkts : List (UtHashBucket κ ε)) (i : ℕ) :
    (bkts.modify i f).map UtHashBucket.chain = (bkts.map UtHashBucket.chain).modify i g := by
  apply List.ext_getElem?
  intro j
  simp only [List.getElem?_map, List.getElem?_modify, Option.map_eq_map, Option.map_map]
  apply congrArg (fun k => Option.map k bkts[j]?)
  funext b
  by_cases here : i = j <;> simp [here, same]

/-- Counts stay true where the bucket that changes counts its change. -/
theorem counts_modify {f : UtHashBucket κ ε → UtHashBucket κ ε} {bkts : List (UtHashBucket κ ε)}
    {i : ℕ} (counts : ∀ b ∈ bkts, b.count = b.chain.length)
    (own : ∀ b, bkts[i]? = some b → (f b).count = (f b).chain.length) :
    ∀ b ∈ bkts.modify i f, b.count = b.chain.length := by
  intro b member
  obtain ⟨j, here⟩ := List.mem_iff_getElem?.1 member
  obtain ⟨old, found, rfl⟩ := Chains.modified_cases here
  split
  · next same => exact own old (same ▸ found)
  · exact counts old (List.mem_of_getElem? found)

/-- The moves of an expansion file the elements and count them. -/
theorem hashMove_all (ideal num : ℕ) (hs : List (UtHashHandle κ ε))
    (moved : List (UtHashBucket κ ε) × ℕ) (counts : ∀ b ∈ moved.1, b.count = b.chain.length) :
    let after := (hs.foldl (hashMove ideal num) moved).1
    after.map UtHashBucket.chain =
        hs.foldl (Chains.file fun h => hashToBkt h.hashv num)
          (moved.1.map UtHashBucket.chain) ∧
      after.length = moved.1.length ∧ ∀ b ∈ after, b.count = b.chain.length := by
  induction hs generalizing moved with
  | nil => exact ⟨rfl, rfl, counts⟩
  | cons h rest ih =>
    have step : ∀ b ∈ (hashMove ideal num moved h).1, b.count = b.chain.length :=
      counts_modify counts fun b here =>
        congrArg (· + 1) (counts b (List.mem_of_getElem? here))
    obtain ⟨chains, length, counted⟩ := ih (hashMove ideal num moved h) step
    refine ⟨?_, ?_, counted⟩
    · rw [List.foldl_cons, List.foldl_cons, chains]
      have first := map_chain_modify (f := fun b => b.moveIn ideal h) (g := (h :: ·))
        (fun _ => rfl) moved.1 (hashToBkt h.hashv num)
      exact congrArg (fun chains => rest.foldl
        (Chains.file fun h => hashToBkt h.hashv num) chains) first
    · rw [List.foldl_cons, length]
      exact List.length_modify ..

theorem hashExpandBuckets_indexed {t : UtHashTable κ ε} {items : List (UtHashHandle κ ε)}
    (indexed : t.Indexed items) : (hashExpandBuckets t).Indexed items := by
  have all : (t.buckets.flatMap UtHashBucket.chain).Perm items := by
    rw [List.flatMap_def]
    apply indexed.filed.flatten
    intro h _
    rw [List.length_map, indexed.length, indexed.numBuckets]
    exact hashToBkt_lt h.hashv _
  have zero : ∀ b ∈ List.replicate (t.numBuckets * 2) (emptyBucket : UtHashBucket κ ε),
      b.count = b.chain.length := fun b member => by rw [List.eq_of_mem_replicate member]; rfl
  obtain ⟨chains, length, counts⟩ := hashMove_all
    ((t.numItems >>> (t.log2NumBuckets + 1)) +
      if t.numItems &&& (t.numBuckets * 2 - 1) ≠ 0 then 1 else 0)
    (t.numBuckets * 2) (t.buckets.flatMap UtHashBucket.chain)
    (List.replicate (t.numBuckets * 2) emptyBucket, 0) zero
  constructor
  · exact (congrArg (· * 2) indexed.numBuckets).trans (Nat.pow_succ ..).symm
  · exact length.trans List.length_replicate
  · have filed := (@Chains.filed_empty _
      (fun h : UtHashHandle κ ε => hashToBkt h.hashv (t.numBuckets * 2)) (t.numBuckets * 2)).file_all
        (t.buckets.flatMap UtHashBucket.chain)
    rw [List.append_nil] at filed
    rw [List.map_replicate] at chains
    exact (chains ▸ filed.perm all :)
  · exact counts
  · exact indexed.numItems

@[simp] theorem items_hashExpandBuckets (t : UtHashTable κ ε) :
    (hashExpandBuckets t).items = t.items := rfl

@[simp] theorem items_hashAddToTable (t : UtHashTable κ ε) (h : UtHashHandle κ ε) :
    (hashAddToTable t h).items = t.items := by
  unfold hashAddToTable
  dsimp only
  split_ifs <;> rfl

/-- An element is in its bucket afterwards, whether or not the addition expands the table. -/
theorem hashAddToTable_indexed {t : UtHashTable κ ε} {items : List (UtHashHandle κ ε)}
    (indexed : t.Indexed items) (h : UtHashHandle κ ε) :
    (hashAddToTable t h).Indexed (h :: items) := by
  have added : UtHashTable.Indexed
      { t with
        numItems := t.numItems + 1
        buckets := t.buckets.modify (hashToBkt h.hashv t.numBuckets) fun b =>
          { b with chain := h :: b.chain, count := b.count + 1 } } (h :: items) := by
    constructor
    · exact indexed.numBuckets
    · exact (List.length_modify ..).trans indexed.length
    · rw [map_chain_modify (g := (h :: ·)) (fun _ => rfl)]
      exact indexed.filed.file_one h
    · exact counts_modify indexed.counts fun b here =>
        congrArg (· + 1) (indexed.counts b (List.mem_of_getElem? here))
    · exact congrArg (· + 1) indexed.numItems
  unfold hashAddToTable
  dsimp only
  split_ifs
  · exact hashExpandBuckets_indexed added
  · exact added

theorem UtHashTable.Indexed.perm {t : UtHashTable κ ε} {items others : List (UtHashHandle κ ε)}
    (indexed : t.Indexed items) (same : items.Perm others) : t.Indexed others :=
  ⟨indexed.numBuckets, indexed.length, indexed.filed.perm same, indexed.counts,
    indexed.numItems.trans same.length_eq⟩

theorem hashMakeTable_indexed (h : UtHashHandle κ ε) : (hashMakeTable h).Indexed [] := by
  constructor
  · rfl
  · exact List.length_replicate
  · rw [hashMakeTable, List.map_replicate]
    exact Chains.filed_empty _
  · intro b member
    rw [List.eq_of_mem_replicate member]
    rfl
  · rfl

theorem handles_hashAdd (head : UtHash κ ε) (key : κ) (elem : ε) :
    hashHandles (hashAdd hash head key elem) =
      hashHandles head ++ [⟨elem, key, hash key⟩] := by
  cases head with
  | none => exact items_hashAddToTable _ _
  | some t => exact items_hashAddToTable _ _

theorem UtHash.WellFormed.hashed {head : UtHash κ ε} (wf : head.WellFormed hash) :
    ∀ h ∈ hashHandles head, h.hashv = hash h.key := by
  cases head with
  | none => exact fun h member => nomatch member
  | some t => exact (wf t rfl).hashed

theorem UtHash.WellFormed.distinct {head : UtHash κ ε} (wf : head.WellFormed hash) :
    (hashIter head).Nodup := by
  cases head with
  | none => exact List.nodup_nil
  | some t => exact (wf t rfl).distinct

theorem hashAdd_wellFormed {head : UtHash κ ε} (wf : head.WellFormed hash) {key : κ} {elem : ε}
    (fresh : elem ∉ hashIter head) : (hashAdd hash head key elem).WellFormed hash := by
  have handles := @handles_hashAdd κ ε hash head key elem
  intro t made
  have items : t.items = hashHandles head ++ [⟨elem, key, hash key⟩] := by
    rw [made] at handles
    exact handles
  have indexed : t.Indexed (⟨elem, key, hash key⟩ :: hashHandles head) := by
    cases head with
    | none =>
      cases made
      exact hashAddToTable_indexed (hashMakeTable_indexed _) _
    | some old =>
      cases made
      have before := (wf old rfl).indexed
      have appended : UtHashTable.Indexed
          { old with items := old.items ++ [⟨elem, key, hash key⟩] } old.items :=
        ⟨before.numBuckets, before.length, before.filed, before.counts, before.numItems⟩
      exact hashAddToTable_indexed appended _
  constructor
  · rw [items]
    exact indexed.perm (List.perm_append_singleton _ _).symm
  · simp [items]
  · rw [items, List.forall_mem_append]
    exact ⟨wf.hashed, by simp⟩
  · rw [items, List.map_append]
    apply List.nodup_append.2
    refine ⟨wf.distinct, List.pairwise_singleton .., fun e held f new same => ?_⟩
    rw [same, List.mem_singleton.1 new] at held
    exact fresh held

theorem UtHash.WellFormed.fsck {head : UtHash κ ε} (wf : head.WellFormed hash) :
    hashFsckCounts head = true := by
  cases head with
  | none => rfl
  | some t =>
    have indexed := (wf t rfl).indexed
    have all : (t.buckets.map UtHashBucket.chain).flatten.length = t.items.length := by
      apply List.Perm.length_eq
      apply indexed.filed.flatten
      intro h _
      rw [List.length_map, indexed.length, indexed.numBuckets]
      exact hashToBkt_lt h.hashv _
    rw [List.length_flatten, List.map_map] at all
    simp only [hashFsckCounts, Bool.and_eq_true, List.all_eq_true, decide_eq_true_iff]
    exact ⟨⟨indexed.counts, all.trans indexed.numItems.symm⟩, indexed.numItems.symm⟩

variable [DecidableEq κ]

/-- A lookup sees every element of the table: it gives one with the key, or there is none. -/
theorem hashFind_cases {head : UtHash κ ε} (wf : head.WellFormed hash) (key : κ) :
    (hashFind hash head key = none ∧ ∀ h ∈ hashHandles head, h.key ≠ key) ∨
      ∃ h ∈ hashHandles head, hashFind hash head key = some h ∧ h.key = key := by
  cases head with
  | none => exact .inl ⟨rfl, fun h member => nomatch member⟩
  | some t =>
    have indexed := (wf t rfl).indexed
    have inside : hashToBkt (hash key) t.numBuckets < t.buckets.length := by
      rw [indexed.length, indexed.numBuckets]
      exact hashToBkt_lt _ _
    obtain ⟨b, here⟩ : ∃ b, t.buckets[hashToBkt (hash key) t.numBuckets]? = some b :=
      ⟨_, List.getElem?_eq_getElem inside⟩
    have chain : (t.buckets.map UtHashBucket.chain)[hashToBkt (hash key) t.numBuckets]? =
        some b.chain := by rw [List.getElem?_map, here, Option.map_some]
    simp only [hashFind, here]
    cases found : b.chain.find? fun h => h.hashv = hash key ∧ h.key = key with
    | none =>
      refine .inl ⟨rfl, fun h member same => ?_⟩
      have value : h.hashv = hash key := same ▸ (wf t rfl).hashed h member
      have linked := (indexed.filed.mem chain).2 ⟨member, by rw [value]⟩
      simpa [value, same] using List.find?_eq_none.1 found h linked
    | some h =>
      have linked := (indexed.filed.mem chain).1 (List.mem_of_find?_eq_some found)
      have same : h.hashv = hash key ∧ h.key = key := by simpa using List.find?_some found
      exact .inr ⟨h, linked.1, rfl, same.2⟩

variable [DecidableEq ε]

theorem handles_hashDelete (head : UtHash κ ε) (h : UtHashHandle κ ε) :
    hashHandles (hashDelete head h) = (hashHandles head).erase h := by
  cases head with
  | none => rfl
  | some t =>
    unfold hashDelete
    by_cases last : t.items = [h]
    · simp [last, hashHandles]
    · simp [last, hashHandles]

theorem hashDelete_wellFormed {head : UtHash κ ε} (wf : head.WellFormed hash)
    {h : UtHashHandle κ ε} (held : h ∈ hashHandles head) :
    (hashDelete head h).WellFormed hash := by
  intro t made
  cases head with
  | none => cases made
  | some old =>
    have before := wf old rfl
    unfold hashDelete at made
    dsimp only at made
    split_ifs at made with last
    cases made
    have indexed := before.indexed
    constructor
    · constructor
      · exact indexed.numBuckets
      · exact (List.length_modify ..).trans indexed.length
      · rw [map_chain_modify (g := (·.erase h)) (fun _ => rfl)]
        exact indexed.filed.remove h
      · apply counts_modify indexed.counts
        intro b here
        have chain : (old.buckets.map UtHashBucket.chain)[hashToBkt h.hashv old.numBuckets]? =
            some b.chain := by rw [List.getElem?_map, here, Option.map_some]
        have linked := (indexed.filed.mem chain).2 ⟨held, rfl⟩
        rw [List.length_erase_of_mem linked, ← indexed.counts b (List.mem_of_getElem? here)]
      · exact (congrArg (· - 1) indexed.numItems).trans (List.length_erase_of_mem held).symm
    · intro empty
      obtain none | only := List.erase_eq_nil_iff.1 empty
      · exact before.held none
      · exact last only
    · exact fun k member => before.hashed k (List.mem_of_mem_erase member)
    · exact before.distinct.sublist (List.erase_sublist.map _)

end

end Cpm
