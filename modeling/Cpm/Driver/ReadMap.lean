import Cpm.Driver.ReadTick
import Cpm.Lib.Decode

/-! A read of a group as a function of the map that the cache stands for. -/
namespace Cpm

open Lib

def Payload.union (type : NeuType) (p : Payload) : ValueU :=
  let front := Block.ofList 136 p.front
  if type = .bytes then front.overlay NEU_VALUE_SIZE (Block.leBlock 1 p.length) else front

def Entry.copied (e : Entry) : NeuDriverCacheValue :=
  ⟨⟨e.type, e.payload.union e.type, e.precision⟩, e.payload.data, e.timestamp, namedMetas e.metas⟩

def answer (fl : FloatOps) (timestamp timeout : Int) (tag : NeuDatatag) :
    Option Entry → NeuRespTagValueMeta
  | none => ⟨tag.name, errorValue 0 NEU_ERR_PLUGIN_TAG_NOT_READY, [], noMetas⟩
  | some e =>
    ⟨tag.name, tagValue fl tag e.copied (timestamp - e.timestamp > timeout), e.payload.data, e.metas⟩

@[simp] theorem answer_tag (fl : FloatOps) (timestamp timeout : Int) (tag : NeuDatatag)
    (e : Option Entry) : (answer fl timestamp timeout tag e).tag = tag.name := by
  cases e <;> rfl

theorem overlay_zero {len : Nat} (field : Block len) :
    (Block.zero.overlay 0 field : ValueU) = Block.ofList 136 field.toList := by
  funext i
  by_cases inside : i.val < len
  · simp [Block.overlay, Block.ofList, Block.toList, inside]
  · simp [Block.overlay, Block.ofList, Block.toList, Block.zero, inside]

theorem copyValue_union {heap : Heap} {elem : Elem} (stored : Stored heap elem) :
    copyValue heap elem.value = some ((entryOf heap elem).payload.union elem.value.type,
      (entryOf heap elem).payload.data) := by
  obtain ⟨timestamp, changed, ⟨type, u, precision⟩, metas⟩ := elem
  have front (len : Nat) : (Block.zero.overlay 0 (u.window 0 len) : ValueU) =
      Block.ofList 136 (u.window 0 len).toList := overlay_zero _
  cases type with
  | bytes =>
    have inRange : u.bytesLength ≤ NEU_VALUE_SIZE := stored.bytes rfl
    have length : Block.leBlock 1 u.bytesLength = u.window NEU_VALUE_SIZE 1 := by
      rw [← Block.leBlock_leValue (u.window NEU_VALUE_SIZE 1)]
      simp [ValueU.bytesLength, Block.leValue, Block.toList, Block.window, -Block.byte_lt]
    simp only [copyValue, if_pos inRange, entryOf, payload, Payload.union, NeuType.width, if_true,
      reduceCtorEq, if_false]
    rw [← front, length, Block.overlay_comm _ _ _ (.inr (by omega))]
  | ptr =>
    obtain ⟨data, read⟩ := stored.readable rfl
    simp [copyValue, entryOf, payload, Payload.union, NeuType.width, read, front]
  | _ => simp [copyValue, entryOf, payload, Payload.union, NeuType.width, front]

theorem metaGet_map {cache : NeuDriverCache} (ref : TagRef) (inv : CacheInv cache) :
    neuDriverCacheMetaGet cache ref.group ref.tag NEU_TAG_META_SIZE =
      some ((mapOf cache ref.names).map fun e => (e.copied, e.metas)) := by
  unfold neuDriverCacheMetaGet
  rw [toKey_ref, mapOf_ref rfl]
  cases found : cache.table.find (keyOf ref.group ref.tag) with
  | none => simp [found]
  | some elem =>
    have copied := copyValue_union (inv.stored _ elem found)
    simp only [found, Option.bind_eq_bind, Option.bind_some, le_refl, if_true, readElem, copied,
      Option.pure_def, Option.map_some]
    rfl

theorem readTag_map (fl : FloatOps) (timestamp timeout : Int) {cache : NeuDriverCache} {group : CStr}
    {tag : NeuDatatag} (named : group.strlen < NEU_GROUP_NAME_LEN) (fits : TagFits tag)
    (inv : CacheInv cache) : readTag fl timestamp timeout cache group tag =
      some (answer fl timestamp timeout tag (mapOf cache (group, tag.name))) := by
  let ref : TagRef := ⟨group, tag.name, named, fits.name⟩
  have got := metaGet_map ref inv
  unfold readTag
  rw [got]
  show _ = some (answer fl timestamp timeout tag (mapOf cache ref.names))
  cases mapOf cache ref.names with
  | none => rfl
  | some e => rfl

/-- A read of a running group answers for each of its tags from the map. -/
theorem readGroup_map (fl : FloatOps) {driver : NeuAdapterDriver} {group : CStr} {g : GroupT}
    (fitting : Fitting driver.cache driver.groups) (running : driver.adapter.state = .running)
    (found : findGroup driver group = some g) (cmdDriver : CStr) (timestamp : Int) :
    neuAdapterDriverReadGroup fl driver cmdDriver group timestamp =
      some (.group cmdDriver group ((neuGroupGetReadTag g.group).length % 2 ^ 16)
        ((neuGroupGetReadTag g.group).map fun tag =>
          answer fl timestamp (readTimeout g.group) tag (mapOf driver.cache (group, tag.name)))) := by
  obtain ⟨_, short⟩ := fitting.named group g found
  have each : ∀ tag ∈ neuGroupGetReadTag g.group,
      readTag fl timestamp (readTimeout g.group) driver.cache group tag =
        some (answer fl timestamp (readTimeout g.group) tag (mapOf driver.cache (group, tag.name))) := by
    intro tag member
    have inside := List.mem_append_left g.cachedTags (List.mem_of_mem_filter member)
    exact readTag_map fl timestamp _ short (fitting.fits group g found tag inside) fitting.inv
  have ran : readGroup fl timestamp (readTimeout g.group) driver.cache group
      (neuGroupGetReadTag g.group) = some ((neuGroupGetReadTag g.group).map fun tag =>
        answer fl timestamp (readTimeout g.group) tag (mapOf driver.cache (group, tag.name))) := by
    rw [readGroup, Decode.mapM_eq_some_iff, List.map_map]
    exact List.map_congr_left each
  simp [neuAdapterDriverReadGroup, found, running, ran]

/- The entries of some tags. -/

def onTags (f : Entry → Entry) (group : CStr) (tags : List NeuDatatag) (m : TagMap) : TagMap :=
  fun names => if names.1 = group ∧ ∃ tag ∈ tags, tag.name = names.2 then (m names).map f else m names

@[simp] theorem onTags_nil (f : Entry → Entry) (group : CStr) (m : TagMap) :
    onTags f group [] m = m := by
  funext names
  simp [onTags]

theorem onTags_single (f : Entry → Entry) (group : CStr) (tag : NeuDatatag) (m : TagMap) :
    onTags f group [tag] m =
      Function.update m (group, tag.name) ((m (group, tag.name)).map f) := by
  funext names
  by_cases same : names = (group, tag.name)
  · rw [same, Function.update_self, onTags, if_pos ⟨rfl, tag, List.mem_singleton_self tag, rfl⟩]
  · rw [Function.update_of_ne same, onTags, if_neg]
    rintro ⟨here, other, inside, name⟩
    rw [List.mem_singleton.1 inside] at name
    exact same (Prod.ext here name.symm)

theorem onTags_cons {f : Entry → Entry} (twice : ∀ e, f (f e) = f e) (group : CStr)
    (tag : NeuDatatag) (rest : List NeuDatatag) (m : TagMap) :
    onTags f group rest (onTags f group [tag] m) = onTags f group (tag :: rest) m := by
  funext names
  unfold onTags
  by_cases here : names.1 = group
  · by_cases first : tag.name = names.2
    · by_cases later : ∃ other ∈ rest, other.name = names.2
      · simp [here, first, later, twice, Function.comp_def]
      · simp [here, first, later]
    · simp [here, first]
  · simp [here]

/- What of an answer belongs to the value. -/

/-- Type, value and error of an answer; the precision and the metas are left out. -/
structure Shown where
  type : NeuType
  value : ValueU
  data : List UInt8
  deriving DecidableEq

def NeuRespTagValueMeta.shown (answered : NeuRespTagValueMeta) : Shown :=
  ⟨answered.value.type, answered.value.value, answered.data⟩

/-- The age of a static tag's value does not matter. -/
theorem answer_static {fl : FloatOps} {tag : NeuDatatag}
    (static : neuTagAttributeTest tag NEU_ATTRIBUTE_STATIC = true) (time timeout : Int)
    (e : Option Entry) :
    (answer fl time timeout tag e).shown = (answer fl 0 0 tag e).shown := by
  cases e with
  | none => rfl
  | some e => simp [answer, NeuRespTagValueMeta.shown, tagValue, static]

/-- A static tag without a decimal is answered under the type of its value. -/
theorem tagValue_type {fl : FloatOps} {tag : NeuDatatag} (value : NeuDriverCacheValue)
    (static : neuTagAttributeTest tag NEU_ATTRIBUTE_STATIC = true)
    (unscaled : Ieee.binary64.isZero tag.decimal = true) (expired : Bool) :
    (tagValue fl tag value expired).type = value.value.type := by
  simp only [tagValue, scaled, static, unscaled, Bool.not_true, Bool.false_and, Bool.false_eq_true,
    if_false, if_true]
  split
  · rfl
  · by_cases pointer : value.value.type = .ptr
    · rw [if_pos pointer, pointer]
    · rw [if_neg pointer]

theorem answer_plain {fl : FloatOps} {tag : NeuDatatag} {e : Entry}
    (static : neuTagAttributeTest tag NEU_ATTRIBUTE_STATIC = true)
    (unscaled : Ieee.binary64.isZero tag.decimal = true) (plain : e.type ≠ .error ∧ e.type ≠ .ptr)
    (time timeout : Int) : (answer fl time timeout tag (some e)).value =
      ⟨e.type, orderBytes tag (e.payload.union e.type), e.precision⟩ := by
  simp [answer, Entry.copied, tagValue, scaled, static, unscaled, plain.1, plain.2]

def ReadGroupResp.answers : ReadGroupResp → List NeuRespTagValueMeta
  | .error _ => []
  | .group _ _ _ tags => tags

def ReadGroupResp.others (name : CStr) : ReadGroupResp → List (CStr × Shown)
  | .error _ => []
  | .group _ _ _ tags => (tags.filter fun answered => answered.tag ≠ name).map fun answered =>
      (answered.tag, answered.shown)

end Cpm
