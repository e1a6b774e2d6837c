import Cpm.Driver.CacheEffect
import Cpm.Driver.Driver

/-! The requests about groups and tags, the read timer and the plugin's updates as steps of a
driver. -/
namespace Cpm

open Lib

abbrev GroupName := { name : CStr // name.strlen < NEU_GROUP_NAME_LEN }

/-- A tag as the decoders build it: `neu_tag_set_static_value_json` refuses BYTES and PTR. -/
structure DecodedTag where
  tag : NeuDatatag
  decoded : tag.staticValue.isSome → tag.type ≠ .bytes ∧ tag.type ≠ .ptr

abbrev TagMetas := { l : List NeuTagMeta // l.length ≤ NEU_TAG_META_SIZE }

inductive GroupOp where
  | addGroup (name : GroupName) (interval : UInt32)
  | updateGroup (name newName : GroupName) (interval : UInt32) (copied : Bool)
  | delGroup (name : GroupName)
  | addTags (plugin : TagReturns) (group : GroupName) (tags : List DecodedTag) (now : Nat → Int)
  | updateTags (plugin : TagReturns) (group : GroupName) (tags : List DecodedTag)
      (now : Nat → Int)
  | delTags (group : GroupName) (tags : List CStr) (now : Nat → Int)
  | readTick (name : CStr)
  | update (band : DeadBand) (ref : TagRef) (timestamp : Int) (v : CallerValue) (metas : TagMetas)
      (fresh : Nat)
  | updateError (band : DeadBand) (group : GroupName) (timestamp : Int) (value : ValueU)
      (precision : UInt8)

def groupStep (driver : NeuAdapterDriver) : GroupOp → Option NeuAdapterDriver
  | .addGroup name interval => some (neuReqAddGroup driver name interval).1
  | .updateGroup name newName interval copied =>
    some (neuAdapterDriverUpdateGroup driver name newName interval copied).1
  | .delGroup name => (neuAdapterDriverDelGroup driver name).map Prod.fst
  | .addTags plugin group tags now =>
    some (neuReqAddTag plugin driver group (tags.map DecodedTag.tag) now).1
  | .updateTags plugin group tags now =>
    some (neuReqUpdateTag plugin driver group (tags.map DecodedTag.tag) now).1
  | .delTags group tags now => some (neuReqDelTag group now 0 tags driver)
  | .readTick name => readCallback driver name
  | .update band ref timestamp v metas fresh =>
    updateWithMeta band driver ref.group (some ref.tag) timestamp v.value v.data metas.val fresh
  | .updateError band group timestamp value precision =>
    updateWithMeta band driver group none timestamp ⟨.error, value, precision⟩ [] [] 0

def newDriver : NeuAdapterDriver :=
  neuAdapterDriverCreate ⟨.lit "node", none, .running, .driver⟩ ⟨false, false, false⟩

def groupA : GroupName := ⟨.lit "a", by decide⟩

theorem groupA_fits : groupA.val.strlen < NEU_GROUP_NAME_LEN := groupA.property

def groupB : GroupName := ⟨.lit "b", by decide⟩

def accepting : TagReturns := ⟨fun _ => 0, 0⟩

def readTemp : DecodedTag :=
  ⟨⟨.lit "temp", .empty, NEU_ATTRIBUTE_READ, .int8, 0, 0, .empty, .zero, none⟩, by simp⟩

def readPressure : DecodedTag :=
  ⟨{ readTemp.tag with name := .lit "pressure" }, by simp [readTemp]⟩

/- What single operations leave in the cache: its invariant, and which keys it has. -/

def Cacheable (value : NeuDvalue) : Prop :=
  value.type ≠ .ptr ∧ (value.type = .bytes → value.value.bytesLength ≤ NEU_VALUE_SIZE)

theorem add_keys {cache : NeuDriverCache} (ref : TagRef) {value : NeuDvalue}
    (inv : CacheInv cache) (plain : Cacheable value) :
    ∃ cache', neuDriverCacheAdd cache ref.group ref.tag value [] = some cache' ∧ CacheInv cache' ∧
      ∀ key, key ∈ cache'.table.keys ↔
        key ∈ cache.table.keys ∨ key = keyOf ref.group ref.tag := by
  let v : CallerValue := ⟨value, [], plain.2, fun is => absurd is plain.1,
    fun is => absurd is plain.1⟩
  have foreign : CacheSafe cache (.add ref v) := fun is => absurd is plain.1
  obtain ⟨cache', seen, stepped, kept, _⟩ := add_done exactBand inv foreign
  obtain ⟨after, added, same⟩ := Option.map_eq_some_iff.1 stepped
  cases same
  refine ⟨cache', added, kept, fun key => ?_⟩
  simp only [neuDriverCacheAdd, toKey_ref, Option.bind_eq_bind, Option.bind_some,
    Option.bind_eq_some_iff, Option.pure_def, Option.some.injEq] at added
  obtain ⟨heap, _, rfl⟩ := added
  exact Table.mem_keys_insert

theorem del_keys {cache : NeuDriverCache} (ref : TagRef) (inv : CacheInv cache) :
    ∃ cache', neuDriverCacheDel cache ref.group ref.tag = some cache' ∧ CacheInv cache' ∧
      ∀ key, key ∈ cache'.table.keys ↔
        key ∈ cache.table.keys ∧ key ≠ keyOf ref.group ref.tag := by
  obtain ⟨cache', seen, stepped, kept, _⟩ := del_done exactBand ref inv
  obtain ⟨after, deleted, same⟩ := Option.map_eq_some_iff.1 stepped
  cases same
  refine ⟨cache', deleted, kept, fun key => ?_⟩
  simp only [neuDriverCacheDel, toKey_ref, Option.bind_eq_bind, Option.bind_some] at deleted
  split at deleted
  · next absent =>
    cases deleted
    have away (here : key ∈ cache.table.keys) : key ≠ keyOf ref.group ref.tag := by
      rintro rfl
      exact Table.find_eq_none.1 absent here
    exact ⟨fun here => ⟨here, away here⟩, fun here => here.1⟩
  · obtain ⟨heap, _, same⟩ := Option.bind_eq_some_iff.1 deleted
    cases same
    exact Table.mem_keys_erase

theorem update_keys (band : DeadBand) {cache : NeuDriverCache} {ref : TagRef} {timestamp : Int}
    {v : CallerValue} {metas : TagMetas} {fresh : Nat} (inv : CacheInv cache)
    (safe : CacheSafe cache (.update ref timestamp v metas false fresh)) :
    ∃ cache', neuDriverCacheUpdate band cache ref.group ref.tag timestamp v.value v.data metas.val
        fresh = some cache' ∧ CacheInv cache' ∧
      ∀ key, key ∈ cache'.table.keys ↔ key ∈ cache.table.keys := by
  obtain ⟨cache', seen, stepped, kept, _⟩ := update_done band inv safe
  obtain ⟨after, updated, same⟩ := Option.map_eq_some_iff.1 stepped
  cases same
  refine ⟨cache', updated, kept, fun key => ?_⟩
  simp only [neuDriverCacheUpdateChange, toKey_ref, Option.bind_eq_bind, Option.bind_some]
    at updated
  split at updated
  · cases updated
    rfl
  · next elem found =>
    simp only [Option.bind_eq_some_iff] at updated
    obtain ⟨_, _, _, _, rest⟩ := updated
    split at rest
    · cases rest
      have here := Table.mem_keys_of_find found
      rw [Table.mem_keys_insert]
      exact ⟨fun or => or.elim id fun same => same ▸ here, .inl⟩
    · cases rest

end Cpm
