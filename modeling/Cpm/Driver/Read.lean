import Mathlib.Tactic.IntervalCases
import Cpm.Driver.Driver

/-! Reading a group, from `driver.c`: `read_group` and the request around it. -/
namespace Cpm

open Lib

def NEU_ERR_PLUGIN_TAG_VALUE_EXPIRED : Int := 3008
def NEU_ERR_PLUGIN_NOT_RUNNING : Int := 3010

def NEU_DRIVER_TAG_CACHE_EXPIRE_TIME : UInt32 := 60

def swap32 (u : ValueU) (endian : Nat) : ValueU :=
  if endian = NEU_DATATAG_ENDIAN_LB32 then (u.swapAt 0 2).swapAt 2 2
  else if endian = NEU_DATATAG_ENDIAN_BB32 then u.swapAt 0 4
  else if endian = NEU_DATATAG_ENDIAN_BL32 then ((u.swapAt 0 4).swapAt 0 2).swapAt 2 2
  else u

theorem swap32_swap32 (u : ValueU) (endian : Nat) : swap32 (swap32 u endian) endian = u := by
  unfold swap32
  split
  · refine Block.ext_byte fun i inside => ?_
    by_cases front : i < 4
    · interval_cases i <;> simp [Block.byte_swapAt, -Block.byte_lt]
    · have outside : ¬ i < 2 := by omega
      simp [Block.byte_swapAt, -Block.byte_lt, inside, front, outside]
  · split
    · exact Block.swapAt_swapAt u (by decide)
    · split
      · refine Block.ext_byte fun i inside => ?_
        by_cases front : i < 4
        · interval_cases i <;> simp [Block.byte_swapAt, -Block.byte_lt]
        · have outside : ¬ i < 2 := by omega
          simp [Block.byte_swapAt, -Block.byte_lt, inside, front, outside]
      · rfl

def orderBytes (tag : NeuDatatag) (u : ValueU) : ValueU :=
  match tag.type with
  | .uint16 | .int16 =>
    if tag.option.endian = NEU_DATATAG_ENDIAN_B16 then u.swapAt 0 2 else u
  | .float | .uint32 | .int32 => swap32 u tag.option.endian
  | .double | .int64 | .uint64 =>
    if tag.option.endian = NEU_DATATAG_ENDIAN_B64 then u.swapAt 0 8 else u
  | _ => u

theorem orderBytes_orderBytes (tag : NeuDatatag) (u : ValueU) :
    orderBytes tag (orderBytes tag u) = u := by
  have plain {len : Nat} (fits : 0 + len ≤ 136) (big : Prop) [Decidable big] :
      (if big then (if big then u.swapAt 0 len else u).swapAt 0 len
        else if big then u.swapAt 0 len else u) = u := by
    split
    · exact Block.swapAt_swapAt u fits
    · rfl
  unfold orderBytes
  cases tag.type
  case int16 | uint16 => exact plain (by decide) _
  case int32 | uint32 | float => exact swap32_swap32 u _
  case int64 | uint64 | double => exact plain (by decide) _
  all_goals rfl

/-- The member of the tag's type as a double; other types have none. -/
def asDouble (fl : FloatOps) (type : NeuType) (u : ValueU) : Option Nat :=
  match type with
  | .int8 => some (fl.ofInt (u.signed 1))
  | .uint8 => some (fl.ofInt (u.unsigned 1))
  | .int16 => some (fl.ofInt (u.signed 2))
  | .uint16 => some (fl.ofInt (u.unsigned 2))
  | .int32 => some (fl.ofInt (u.signed 4))
  | .uint32 => some (fl.ofInt (u.unsigned 4))
  | .int64 => some (fl.ofInt (u.signed 8))
  | .uint64 => some (fl.ofInt (u.unsigned 8))
  | .float => some (fl.ofFloat u.f32)
  | .double => some u.d64
  | _ => none

def scaled (fl : FloatOps) (tag : NeuDatatag) (value : NeuDvalue) : NeuDvalue :=
  if Ieee.binary64.isZero tag.decimal then value
  else match asDouble fl tag.type value.value with
  | some number =>
    { value with type := .double, value := value.value.setFront 8 (fl.mul number tag.decimal) }
  | none => { value with type := tag.type }

/-- What a reader answers for a cached value. `expired` is the caller's test of its age. -/
def tagValue (fl : FloatOps) (tag : NeuDatatag) (value : NeuDriverCacheValue) (expired : Bool) :
    NeuDvalue :=
  if value.value.type = .error then value.value
  else if !neuTagAttributeTest tag NEU_ATTRIBUTE_STATIC && expired then
    errorValue 0 NEU_ERR_PLUGIN_TAG_VALUE_EXPIRED
  else
    let u := orderBytes tag value.value.value
    -- Of a pointer value only the members of `ptr` are copied.
    let copied : NeuDvalue :=
      if value.value.type = .ptr then ⟨.ptr, Block.zero.overlay 0 (u.window 0 6), 0⟩
      else { value.value with value := u }
    scaled fl tag copied

structure NeuRespTagValueMeta where
  tag : CStr
  value : NeuDvalue
  data : List UInt8
  metas : Metas

def readTag (fl : FloatOps) (timestamp timeout : Int) (cache : NeuDriverCache) (group : CStr)
    (tag : NeuDatatag) : Option NeuRespTagValueMeta := do
  match ← neuDriverCacheMetaGet cache group tag.name NEU_TAG_META_SIZE with
  | none => return ⟨tag.name, errorValue 0 NEU_ERR_PLUGIN_TAG_NOT_READY, [], noMetas⟩
  | some (value, metas) =>
    return ⟨tag.name, tagValue fl tag value (timestamp - value.timestamp > timeout), value.data,
      metas⟩

def readGroup (fl : FloatOps) (timestamp timeout : Int) (cache : NeuDriverCache) (group : CStr)
    (tags : List NeuDatatag) : Option (List NeuRespTagValueMeta) :=
  tags.mapM (readTag fl timestamp timeout cache group)

inductive ReadGroupResp where
  | error (error : Int)
  | group (driver group : CStr) (nTag : Nat) (tags : List NeuRespTagValueMeta)

/-- The timeout is a product of 32 bits. -/
def readTimeout (group : NeuGroup) : Int :=
  (group.interval * NEU_DRIVER_TAG_CACHE_EXPIRE_TIME).toNat

def neuAdapterDriverReadGroup (fl : FloatOps) (driver : NeuAdapterDriver) (cmdDriver cmdGroup : CStr)
    (timestamp : Int) : Option ReadGroupResp :=
  match findGroup driver cmdGroup with
  | none => some (.error NEU_ERR_GROUP_NOT_EXIST)
  | some g => do
    let tags := neuGroupGetReadTag g.group
    let datas ←
      if driver.adapter.state ≠ .running then some (tags.map fun tag =>
        ⟨tag.name, errorValue 0 NEU_ERR_PLUGIN_NOT_RUNNING, [], noMetas⟩)
      else readGroup fl timestamp (readTimeout g.group) driver.cache cmdGroup tags
    return .group cmdDriver cmdGroup (tags.length % 2 ^ 16) datas

end Cpm
