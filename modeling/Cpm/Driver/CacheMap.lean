import Cpm.Driver.Cache

/-! The cache as a finite map: the operations and what readers see, the map that a cache stands
for, and what an entry owns. -/
namespace Cpm

open Lib

structure TagRef where
  group : CStr
  tag : CStr
  groupFits : group.strlen < NEU_GROUP_NAME_LEN
  tagFits : tag.strlen < NEU_TAG_NAME_LEN
  deriving DecidableEq

def TagRef.names (ref : TagRef) : CStr × CStr := (ref.group, ref.tag)

def groupTag : TagRef := ⟨.lit "group", .lit "tag", by decide, by decide⟩

/-- A value a caller can pass: the length of bytes is in range, and behind a pointer stand as
many bytes as it says, none behind NULL. -/
structure CallerValue where
  value : NeuDvalue
  data : List UInt8
  bytesFit : value.type = .bytes → value.value.bytesLength ≤ NEU_VALUE_SIZE
  dataFits : value.type = .ptr → data.length = value.value.ptrLength
  nullEmpty : value.type = .ptr → value.value.ptrPtr = 0 → value.value.ptrLength = 0

def CallerValue.payload (v : CallerValue) : Payload :=
  Cpm.payload v.value.type v.value.value v.data

def CallerValue.plain (type : NeuType) (u : ValueU) (plain : type ≠ .bytes ∧ type ≠ .ptr) :
    CallerValue where
  value := ⟨type, u, 0⟩
  data := []
  bytesFit is := absurd is plain.1
  dataFits is := absurd is plain.2
  nullEmpty is := absurd is plain.2

theorem float_plain : NeuType.float ≠ .bytes ∧ NeuType.float ≠ .ptr := by decide

theorem int8_plain : NeuType.int8 ≠ .bytes ∧ NeuType.int8 ≠ .ptr := by decide

theorem noMetas_fit : ([] : List NeuTagMeta).length ≤ NEU_TAG_META_SIZE := by decide

inductive CacheOp where
  | add (ref : TagRef) (v : CallerValue)
  | update (ref : TagRef) (timestamp : Int) (v : CallerValue)
      (metas : { l : List NeuTagMeta // l.length ≤ NEU_TAG_META_SIZE }) (change : Bool)
      (fresh : Nat)
  | get (ref : TagRef)
  | metaGet (ref : TagRef) (nMeta : Fin 4)
  | getChanged (ref : TagRef)
  | metaGetChanged (ref : TagRef) (nMeta : Fin 4)
  | del (ref : TagRef)

def CacheOp.ref : CacheOp → TagRef
  | .add ref _ | .update ref _ _ _ _ _ | .get ref | .metaGet ref _ | .getChanged ref
  | .metaGetChanged ref _ | .del ref => ref

/-- What a reader sees; the last part is the array that the meta readers fill as well. -/
structure View where
  type : NeuType
  payload : Payload
  precision : UInt8
  timestamp : Int
  metas : Metas
  allMetas : Option Metas

def NeuDriverCacheValue.view (v : NeuDriverCacheValue) (allMetas : Option Metas) : View :=
  ⟨v.value.type, payload v.value.type v.value.value v.data, v.value.precision, v.timestamp,
    v.metas, allMetas⟩

def viewPlain (result : Option NeuDriverCacheValue) : Option View := result.map (·.view none)

def viewMeta (result : Option (NeuDriverCacheValue × Metas)) : Option View :=
  result.map fun r => r.1.view (some r.2)

/-- One call of the cache with what it returned; −1 and no result are `none`. -/
def cacheStep (band : DeadBand) (cache : NeuDriverCache) : CacheOp →
    Option (NeuDriverCache × Option View)
  | .add ref v => (neuDriverCacheAdd cache ref.group ref.tag v.value v.data).map (·, none)
  | .update ref timestamp v metas change fresh =>
    (neuDriverCacheUpdateChange band cache ref.group ref.tag timestamp v.value v.data metas.val change
      fresh).map (·, none)
  | .get ref => (neuDriverCacheGet cache ref.group ref.tag).map fun r => (cache, viewPlain r)
  | .metaGet ref nMeta =>
    (neuDriverCacheMetaGet cache ref.group ref.tag nMeta).map fun r => (cache, viewMeta r)
  | .getChanged ref =>
    (neuDriverCacheGetChanged cache ref.group ref.tag).map fun r => (r.1, viewPlain r.2)
  | .metaGetChanged ref nMeta =>
    (neuDriverCacheMetaGetChanged cache ref.group ref.tag nMeta).map fun r => (r.1, viewMeta r.2)
  | .del ref => (neuDriverCacheDel cache ref.group ref.tag).map (·, none)

/- The abstract cache. -/

structure Entry where
  type : NeuType
  payload : Payload
  precision : UInt8
  timestamp : Int
  metas : Metas
  changed : Bool

abbrev TagMap := CStr × CStr → Option Entry

def Entry.view (e : Entry) (allMetas : Option Metas) : View :=
  ⟨e.type, e.payload, e.precision, e.timestamp, namedMetas e.metas, allMetas⟩

def Entry.viewMeta (e : Entry) : View := e.view (some e.metas)

def Entry.reported (e : Entry) : Entry := { e with changed := e.changed && e.type = .error }

/-- A reader of changes takes an entry that is marked and reports it. -/
def TakesChanged (m : TagMap) (names : CStr × CStr) (view : Entry → View) (m' : TagMap)
    (seen : Option View) : Prop :=
  match (m names).filter Entry.changed with
  | none => seen = none ∧ m' = m
  | some e => seen = some (view e) ∧ m' = Function.update m names (some e.reported)

/- The map that a cache stands for. -/

def entryOf (heap : Heap) (elem : Elem) : Entry :=
  let u := elem.value.value
  ⟨elem.value.type, payload elem.value.type u ((readPtr heap u.ptrPtr u.ptrLength).getD []),
    elem.value.precision, elem.timestamp, elem.metas, elem.changed⟩

def mapOf (cache : NeuDriverCache) : TagMap := fun names =>
  (cache.table.find (keyOf names.1 names.2)).map (entryOf cache.heap)

def Owns (elem : Elem) (address : Nat) : Prop :=
  elem.value.type = .ptr ∧ elem.value.value.ptrPtr = address ∧ address ≠ 0

/-- A stored value can be read: its byte count is in range, and its pointer leads to a live
block of its length. -/
structure Stored (heap : Heap) (elem : Elem) : Prop where
  bytes : elem.value.type = .bytes → elem.value.value.bytesLength ≤ NEU_VALUE_SIZE
  null : elem.value.type = .ptr → elem.value.value.ptrPtr = 0 → elem.value.value.ptrLength = 0
  live : ∀ address, Owns elem address →
    ∃ block, heap.find address = some block ∧ elem.value.value.ptrLength ≤ block.length

/-- The invariant: every value can be read, and no two entries own one block. -/
structure CacheInv (cache : NeuDriverCache) : Prop where
  stored : ∀ key elem, cache.table.find key = some elem → Stored cache.heap elem
  owner : ∀ key key' elem elem' address, cache.table.find key = some elem →
    cache.table.find key' = some elem' → Owns elem address → Owns elem' address → key = key'

theorem keyOf_injective {names names' : CStr × CStr}
    (same : keyOf names.1 names.2 = keyOf names'.1 names'.2) : names = names' := by
  injection same with group tag
  exact Prod.ext (CStr.field_injective _ group) (CStr.field_injective _ tag)

theorem names_injective {ref other : TagRef} (same : ref.names = other.names) : ref = other := by
  obtain ⟨group, tag, _, _⟩ := ref
  obtain ⟨group', tag', _, _⟩ := other
  obtain ⟨rfl, rfl⟩ := Prod.mk.inj same
  rfl

theorem toKey_ref (ref : TagRef) : toKey ref.group ref.tag = some (keyOf ref.group ref.tag) :=
  if_pos ⟨ref.groupFits, ref.tagFits⟩

theorem Stored.readable {heap : Heap} {elem : Elem} (stored : Stored heap elem)
    (pointer : elem.value.type = .ptr) :
    ∃ data, readPtr heap elem.value.value.ptrPtr elem.value.value.ptrLength = some data := by
  unfold readPtr
  by_cases null : elem.value.value.ptrPtr = 0
  · exact ⟨[], if_pos (stored.null pointer null)⟩
  · obtain ⟨block, found, long⟩ := stored.live _ ⟨pointer, rfl, null⟩
    by_cases empty : elem.value.value.ptrLength = 0
    · exact ⟨[], if_pos empty⟩
    · exact ⟨block.take _, by rw [if_neg empty, found, Option.bind_some, if_pos long]⟩

/-- What an entry stands for depends only on the block it owns. -/
theorem entryOf_frame {heap heap' : Heap} {elem : Elem} (stored : Stored heap elem)
    (frame : ∀ address, Owns elem address → heap'.find address = heap.find address) :
    entryOf heap' elem = entryOf heap elem := by
  unfold entryOf
  by_cases pointer : elem.value.type = .ptr
  · by_cases null : elem.value.value.ptrPtr = 0
    · simp [readPtr, stored.null pointer null]
    · simp only [readPtr, frame _ ⟨pointer, rfl, null⟩]
  · simp [payload, pointer]

theorem Stored.frame {heap heap' : Heap} {elem : Elem} (stored : Stored heap elem)
    (frame : ∀ address, Owns elem address → heap'.find address = heap.find address) :
    Stored heap' elem where
  bytes := stored.bytes
  null := stored.null
  live address owns := by
    rw [frame address owns]
    exact stored.live address owns

/-- Writing one entry: the others keep what they own, and the new one owns a block of its own.
Invariant and map follow. -/
theorem put_entry {cache : NeuDriverCache} {ref : TagRef} {elem : Elem} {heap : Heap}
    (inv : CacheInv cache) (stored : Stored heap elem)
    (frame : ∀ key other address, key ≠ keyOf ref.group ref.tag →
      cache.table.find key = some other → Owns other address →
      heap.find address = cache.heap.find address ∧ ¬ Owns elem address) :
    CacheInv ⟨cache.table.insert (keyOf ref.group ref.tag) elem, heap⟩ ∧
      mapOf ⟨cache.table.insert (keyOf ref.group ref.tag) elem, heap⟩ =
        Function.update (mapOf cache) ref.names (some (entryOf heap elem)) := by
  refine ⟨⟨?_, ?_⟩, ?_⟩
  · intro key other found
    rw [Table.find_insert] at found
    split at found
    · cases found
      exact stored
    · next away =>
      exact (inv.stored key other found).frame fun address owns =>
        (frame key other address away found owns).1
  · intro key key' other other' address found found' owns owns'
    rw [Table.find_insert] at found found'
    split at found <;> split at found'
    · next here here' => rw [here, here']
    · next away =>
      cases found
      exact absurd owns (frame key' other' address away found' owns').2
    · next away _ =>
      cases found'
      exact absurd owns' (frame key other address away found owns).2
    · exact inv.owner key key' other other' address found found' owns owns'
  · funext names
    unfold mapOf
    rw [Table.find_insert]
    by_cases here : names = ref.names
    · subst here
      simp [TagRef.names]
    · have away : keyOf names.1 names.2 ≠ keyOf ref.group ref.tag :=
        fun same => here (keyOf_injective same)
      rw [if_neg away, Function.update_of_ne here]
      cases found : cache.table.find (keyOf names.1 names.2) with
      | none => rfl
      | some other =>
        rw [Option.map_some, Option.map_some, entryOf_frame (inv.stored _ other found)
          fun address owns => (frame _ other address away found owns).1]

theorem copyValue_payload {heap : Heap} {elem : Elem} (stored : Stored heap elem) :
    ∃ u data, copyValue heap elem.value = some (u, data) ∧
      payload elem.value.type u data = (entryOf heap elem).payload := by
  obtain ⟨timestamp, changed, ⟨type, u, precision⟩, metas⟩ := elem
  by_cases ofBytes : type = .bytes
  · subst ofBytes
    have inRange : u.bytesLength ≤ NEU_VALUE_SIZE := stored.bytes rfl
    have fits : 0 + u.bytesLength ≤ 136 := by unfold NEU_VALUE_SIZE at inRange; omega
    let sized : ValueU := Block.zero.overlay NEU_VALUE_SIZE (u.window NEU_VALUE_SIZE 1)
    let copy : ValueU := sized.overlay 0 (u.window 0 u.bytesLength)
    have length : copy.bytesLength = u.bytesLength := by
      have apart : ¬ (0 ≤ NEU_VALUE_SIZE ∧ NEU_VALUE_SIZE < 0 + u.bytesLength) := by omega
      unfold ValueU.bytesLength
      rw [Block.byte_overlay _ _ _ (by decide), if_neg apart,
        Block.byte_overlay _ _ _ (by decide), if_pos (by decide),
        Block.byte_window _ _ (by decide)]
      rfl
    have front : copy.window 0 u.bytesLength = u.window 0 u.bytesLength :=
      Block.window_overlay sized _ fits
    refine ⟨copy, [], if_pos inRange, ?_⟩
    simp only [payload, entryOf, NeuType.width, if_true, reduceCtorEq, if_false]
    rw [length, front]
  · by_cases pointer : type = .ptr
    · subst pointer
      obtain ⟨data, read⟩ := stored.readable rfl
      have front : (Block.zero.overlay 0 (u.window 0 6) : ValueU).window 0 6 = u.window 0 6 :=
        Block.window_overlay _ _ (by decide)
      refine ⟨Block.zero.overlay 0 (u.window 0 6), data, ?_, ?_⟩
      · exact Option.bind_eq_some_iff.2 ⟨data, read, rfl⟩
      · simp only [payload, entryOf, NeuType.width, front, read, Option.getD_some, reduceCtorEq,
          if_false]
    · have front (n : Nat) (fits : 0 + n ≤ 136) :
          (Block.zero.overlay 0 (u.window 0 n) : ValueU).window 0 n = u.window 0 n :=
        Block.window_overlay _ _ fits
      refine ⟨Block.zero.overlay 0 (u.window 0 (type.width u)), [], ?_, ?_⟩
      · cases type <;> first | rfl | contradiction
      · cases type <;> first | contradiction |
          simp [payload, entryOf, NeuType.width, front, NEU_VALUE_SIZE]

theorem readElem_view {heap : Heap} {elem : Elem} (stored : Stored heap elem) :
    ∃ value, readElem heap elem = some value ∧
      ∀ allMetas, value.view allMetas = (entryOf heap elem).view allMetas := by
  obtain ⟨u, data, copied, same⟩ := copyValue_payload stored
  refine ⟨⟨⟨elem.value.type, u, elem.value.precision⟩, data, elem.timestamp,
    namedMetas elem.metas⟩, Option.bind_eq_some_iff.2 ⟨_, copied, rfl⟩, fun allMetas => ?_⟩
  simp only [NeuDriverCacheValue.view, Entry.view, same]
  rfl

end Cpm
