import Cpm.Base.Value
import Cpm.Lib.Table

/-! The tag value cache of `cache.c`. A result `none` is undefined behaviour: a name or a byte
count that does not fit its array, a block that is not live. -/
namespace Cpm

open Lib

def NEU_GROUP_NAME_LEN : Nat := 128
def NEU_TAG_NAME_LEN : Nat := 64

/-- `tkey_t`: two arrays, compared as memory. -/
structure TKey where
  group : List Char
  tag : List Char
  deriving DecidableEq, Repr

def keyOf (group tag : CStr) : TKey :=
  ⟨group.field NEU_GROUP_NAME_LEN, tag.field NEU_TAG_NAME_LEN⟩

def toKey (group tag : CStr) : Option TKey :=
  if group.strlen < NEU_GROUP_NAME_LEN ∧ tag.strlen < NEU_TAG_NAME_LEN then some (keyOf group tag)
  else none

structure Elem where
  timestamp : Int
  changed : Bool
  value : NeuDvalue
  metas : Metas

/-- The live blocks behind pointer values, by address. -/
abbrev Heap := Table Nat (List UInt8)

structure NeuDriverCache where
  table : Table TKey Elem
  heap : Heap

def neuDriverCacheNew : NeuDriverCache := ⟨.empty, .empty⟩

def readPtr (heap : Heap) (address length : Nat) : Option (List UInt8) :=
  if length = 0 then some []
  else (heap.find address).bind fun block =>
    if length ≤ block.length then some (block.take length) else none

def readCaller (data : List UInt8) (length : Nat) : Option (List UInt8) :=
  if length ≤ data.length then some (data.take length) else none

def freePtr (heap : Heap) (address : Nat) : Option Heap :=
  if address = 0 then some heap
  else if (heap.find address).isSome then some (heap.erase address) else none

def releasePtr (heap : Heap) (value : NeuDvalue) : Option Heap :=
  if value.type = .ptr then freePtr heap value.value.ptrPtr else some heap

def freshAddress (heap : Heap) (address : Nat) : Bool :=
  address ≠ 0 && address < 2 ^ 64 && heap.find address = none

/-- The block a caller hands over with a pointer value becomes the cache's. -/
def adoptPtr (heap : Heap) (value : NeuDvalue) (data : List UInt8) : Option Heap :=
  if value.type = .ptr ∧ value.value.ptrPtr ≠ 0 then
    if heap.find value.value.ptrPtr = none then some (heap.insert value.value.ptrPtr data)
    else none
  else some heap

/-- The metas of an entry that exists already stay. -/
def neuDriverCacheAdd (cache : NeuDriverCache) (group tag : CStr) (value : NeuDvalue)
    (data : List UInt8) : Option NeuDriverCache := do
  let key ← toKey group tag
  let metas := ((cache.table.find key).map Elem.metas).getD noMetas
  let heap ← adoptPtr cache.heap value data
  return ⟨cache.table.insert key ⟨0, false, value, metas⟩, heap⟩

/-- The flag after the comparison with the stored value. For BYTES the test is a memcpy, which
is never NULL; for FLOAT and DOUBLE without precision the flag is overwritten. -/
def compareChanged (band : DeadBand) (heap : Heap) (elem : Elem) (value : NeuDvalue)
    (data : List UInt8) : Option Bool :=
  let old := elem.value.value
  let new := value.value
  if elem.value.type ≠ value.type then some true
  else match value.type with
  | .int8 | .uint8 | .int16 | .uint16 | .int32 | .uint32 | .int64 | .uint64 | .bit | .bool
  | .string | .word | .dword | .lword => some (elem.changed || old ≠ new)
  | .bytes =>
    if old.bytesLength ≠ new.bytesLength then some true
    else if new.bytesLength ≤ NEU_VALUE_SIZE then some true else none
  | .ptr =>
    if old.ptrLength ≠ new.ptrLength then some true
    else do
      let before ← readPtr heap old.ptrPtr new.ptrLength
      let after ← readCaller data new.ptrLength
      return elem.changed || before ≠ after
  | .float =>
    if elem.value.precision = 0 then some (Ieee.binary32.ne old.f32 new.f32)
    else some (elem.changed || band.float elem.value.precision old.f32 new.f32)
  | .double =>
    if elem.value.precision = 0 then some (Ieee.binary64.ne old.d64 new.d64)
    else some (elem.changed || band.double elem.value.precision old.d64 new.d64)
  | .error => some true
  | .unlisted _ => some elem.changed

/-- A pointer value is copied into a new block. The old pointer is read from the union
whatever was stored there before. -/
def storeValue (heap : Heap) (old : ValueU) (value : NeuDvalue) (data : List UInt8)
    (fresh : Nat) : Option (ValueU × Heap) :=
  if value.type = .ptr then do
    let bytes ← readCaller data value.value.ptrLength
    let heap ← freePtr heap old.ptrPtr
    if freshAddress heap fresh then
      let sized := (old.overlay 4 (value.value.window 4 2)).overlay 0 value.value.ptrType
      return (sized.overlay 8 (Block.leBlock 8 fresh), heap.insert fresh bytes)
    else none
  else some (value.value, heap)

def neuDriverCacheUpdateChange (band : DeadBand) (cache : NeuDriverCache) (group tag : CStr)
    (timestamp : Int) (value : NeuDvalue) (data : List UInt8) (metas : List NeuTagMeta)
    (change : Bool) (fresh : Nat) : Option NeuDriverCache := do
  let key ← toKey group tag
  match cache.table.find key with
  | none => return cache
  | some elem =>
    let changed ← compareChanged band cache.heap elem value data
    let stored ← storeValue cache.heap elem.value.value value data fresh
    if metas.length ≤ NEU_TAG_META_SIZE then
      return ⟨cache.table.insert key ⟨timestamp, changed || change,
        ⟨value.type, stored.1, elem.value.precision⟩, metasOf metas⟩, stored.2⟩
    else none

def neuDriverCacheUpdate (band : DeadBand) (cache : NeuDriverCache) (group tag : CStr)
    (timestamp : Int) (value : NeuDvalue) (data : List UInt8) (metas : List NeuTagMeta)
    (fresh : Nat) : Option NeuDriverCache :=
  neuDriverCacheUpdateChange band cache group tag timestamp value data metas false fresh

/-- `neu_driver_cache_value_t` as a reader fills it in a cleared struct. The pointer of a
pointer value is the reader's own block, whose bytes are `data`. -/
structure NeuDriverCacheValue where
  value : NeuDvalue
  data : List UInt8
  timestamp : Int
  metas : Metas

def copyValue (heap : Heap) (value : NeuDvalue) : Option (ValueU × List UInt8) :=
  let u := value.value
  match value.type with
  | .bytes =>
    if u.bytesLength ≤ NEU_VALUE_SIZE then
      some ((Block.zero.overlay NEU_VALUE_SIZE (u.window NEU_VALUE_SIZE 1)).overlay 0
        (u.window 0 u.bytesLength), [])
    else none
  | .ptr => do
    let data ← readPtr heap u.ptrPtr u.ptrLength
    return (Block.zero.overlay 0 (u.window 0 6), data)
  | type => some (Block.zero.overlay 0 (u.window 0 (type.width u)), [])

def readElem (heap : Heap) (elem : Elem) : Option NeuDriverCacheValue := do
  let copied ← copyValue heap elem.value
  return ⟨⟨elem.value.type, copied.1, elem.value.precision⟩, copied.2, elem.timestamp,
    namedMetas elem.metas⟩

/-- The flag of an ERROR value stays. -/
def Elem.reported (elem : Elem) : Elem :=
  { elem with changed := elem.changed && elem.value.type = .error }

/-- The result −1 is the inner `none`. -/
def neuDriverCacheGet (cache : NeuDriverCache) (group tag : CStr) :
    Option (Option NeuDriverCacheValue) := do
  let key ← toKey group tag
  match cache.table.find key with
  | none => return none
  | some elem => return some (← readElem cache.heap elem)

def neuDriverCacheMetaGet (cache : NeuDriverCache) (group tag : CStr) (nMeta : Nat) :
    Option (Option (NeuDriverCacheValue × Metas)) := do
  let key ← toKey group tag
  match cache.table.find key with
  | none => return none
  | some elem =>
    if nMeta ≤ NEU_TAG_META_SIZE then return some (← readElem cache.heap elem, elem.metas)
    else none

def neuDriverCacheGetChanged (cache : NeuDriverCache) (group tag : CStr) :
    Option (NeuDriverCache × Option NeuDriverCacheValue) := do
  let key ← toKey group tag
  match (cache.table.find key).filter Elem.changed with
  | none => return (cache, none)
  | some elem =>
    let value ← readElem cache.heap elem
    return ({ cache with table := cache.table.insert key elem.reported }, some value)

def neuDriverCacheMetaGetChanged (cache : NeuDriverCache) (group tag : CStr) (nMeta : Nat) :
    Option (NeuDriverCache × Option (NeuDriverCacheValue × Metas)) := do
  let key ← toKey group tag
  match (cache.table.find key).filter Elem.changed with
  | none => return (cache, none)
  | some elem =>
    if nMeta ≤ NEU_TAG_META_SIZE then
      let value ← readElem cache.heap elem
      return ({ cache with table := cache.table.insert key elem.reported },
        some (value, elem.metas))
    else none

def neuDriverCacheDel (cache : NeuDriverCache) (group tag : CStr) : Option NeuDriverCache := do
  let key ← toKey group tag
  match cache.table.find key with
  | none => return cache
  | some elem =>
    let heap ← releasePtr cache.heap elem.value
    return ⟨cache.table.erase key, heap⟩

end Cpm
