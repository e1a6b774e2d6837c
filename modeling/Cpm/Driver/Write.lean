import Cpm.Driver.Read

/-! Writing tags, from `driver.c`: requests are checked and queued with their group, and a timer
hands the queue to the plugin. A result `none` is a failed assertion of `fix_value`, or comes from
the cache. -/
namespace Cpm

open Lib

def NEU_ERR_PLUGIN_TAG_NOT_ALLOW_WRITE : Int := 3004
def NEU_ERR_PLUGIN_NOT_SUPPORT_WRITE_TAGS : Int := 3017

/-- The bytes in the order that the tag asks for, under the type that goes to the plugin. -/
def fixValue (fl : FloatOps) (tag : NeuDatatag) (valueType : NeuType) (value : NeuDvalue) :
    Option NeuDvalue :=
  let u := value.value
  let u64 := u.unsigned 8
  match tag.type with
  | .bool | .string | .bytes => some value
  | .bit => some { value with type := .bit, value := u.setFront 1 u64 }
  | .uint8 | .int8 => some { value with type := .uint8, value := u.setFront 1 u64 }
  | .int16 | .uint16 | .word =>
    let u16 := u.setFront 2 u64
    some { value with
      type := .uint16
      value := if tag.option.endian = NEU_DATATAG_ENDIAN_B16 then u16.swapAt 0 2 else u16 }
  | .uint32 | .int32 | .dword =>
    some { value with type := .uint32, value := swap32 (u.setFront 4 u64) tag.option.endian }
  | .float =>
    let f32 := if valueType = .float then value
      else { value with type := .float, value := u.setFront 4 (fl.toFloat u.d64) }
    some { f32 with value := swap32 f32.value tag.option.endian }
  | .double | .uint64 | .int64 | .lword =>
    some { value with
      value := if tag.option.endian = NEU_DATATAG_ENDIAN_B64 then u.swapAt 0 8 else u }
  | .error | .ptr | .unlisted _ => none

def calDecimal (fl : FloatOps) (tagType valueType : NeuType) (u : ValueU) (decimal : Nat) :
    ValueU :=
  match tagType with
  | .int8 | .uint8 | .int16 | .uint16 | .int32 | .uint32 | .int64 | .uint64 | .word | .lword
  | .dword =>
    if valueType = .int64 ∨ valueType = .lword then
      u.setFront 8 (fl.toU64 (fl.div (fl.ofInt (u.unsigned 8)) decimal))
    else if valueType = .double then u.setFront 8 (fl.toU64 (fl.round (fl.div u.d64 decimal)))
    else u
  | .float | .double =>
    if valueType = .int64 ∨ valueType = .double then u.setFront 8 (fl.div u.d64 decimal)
    else if valueType = .float then
      u.setFront 4 (fl.toFloat (fl.div (fl.ofFloat u.f32) decimal))
    else u
  | _ => u

def calTagDecimal (fl : FloatOps) (tag : NeuDatatag) (value : NeuDvalue) : NeuDvalue :=
  if Ieee.binary64.isZero tag.decimal then value
  else { value with value := calDecimal fl tag.type value.type value.value tag.decimal }

/-- An integer for a floating tag; only the request for one tag converts it. -/
def intToDouble (fl : FloatOps) (tag : NeuDatatag) (value : NeuDvalue) : NeuDvalue :=
  if (tag.type = .float ∨ tag.type = .double) ∧ value.type = .int64 then
    { value with value := value.value.setFront 8 (fl.ofInt (value.value.unsigned 8)) }
  else value

def storeWriteTag (driver : NeuAdapterDriver) (name : CStr) (group : GroupT)
    (wtag : ToBeWriteTag) : NeuAdapterDriver :=
  (driver.setGroup name { group with wtTags := group.wtTags ++ [wtag] }).record
    [.stored group.serial wtag]

def respond (driver : NeuAdapterDriver) (req : Nat) (error : Int) : NeuAdapterDriver :=
  driver.record [.response req error]

/-- A static tag is written here and answered at once. -/
def writeStatic (band : DeadBand) (driver : NeuAdapterDriver) (req : Nat) (name : CStr)
    (group : GroupT) (tag : NeuDatatag) (value : NeuDvalue)
    (timestamp now : Int) : Option NeuAdapterDriver := do
  let cache ← neuDriverCacheUpdate band driver.cache group.name tag.name timestamp value [] [] 0
  let updated := neuGroupUpdateTag group.group (neuTagSetStaticValue tag value.value) now
  return respond ({ driver with cache }.setGroup name { group with group := updated.1 }) req
    NEU_ERR_SUCCESS

def neuAdapterDriverWriteTag (fl : FloatOps) (driver : NeuAdapterDriver) (req : Nat)
    (cmdGroup cmdTag : CStr) (value : NeuDvalue) (timestamp now : Int) :
    Option NeuAdapterDriver :=
  if driver.adapter.state ≠ .running then some (respond driver req NEU_ERR_PLUGIN_NOT_RUNNING)
  else match findGroup driver cmdGroup with
  | none => some (respond driver req NEU_ERR_GROUP_NOT_EXIST)
  | some g =>
    match neuGroupFindTag g.group cmdTag with
    | none => some (respond driver req NEU_ERR_TAG_NOT_EXIST)
    | some tag =>
      if neuTagAttributeTest tag NEU_ATTRIBUTE_WRITE then do
        let fixed ← fixValue fl tag value.type (calTagDecimal fl tag (intToDouble fl tag value))
        if neuTagAttributeTest tag NEU_ATTRIBUTE_STATIC then
          writeStatic fl.band driver req cmdGroup g tag fixed timestamp now
        else some (storeWriteTag driver cmdGroup g (.single req tag fixed.value))
      else some (respond driver req NEU_ERR_PLUGIN_TAG_NOT_ALLOW_WRITE)

/-- One tag of a request for several; what cannot be written is left out. -/
def pluginTagValue (fl : FloatOps) (group : NeuGroup) (cmd : CStr × NeuDvalue) :
    Option (Option NeuPluginTagValue) :=
  match neuGroupFindTag group cmd.1 with
  | none => some none
  | some tag =>
    if neuTagAttributeTest tag NEU_ATTRIBUTE_WRITE && !neuTagAttributeTest tag NEU_ATTRIBUTE_STATIC
    then (fixValue fl tag cmd.2.type (calTagDecimal fl tag cmd.2)).map fun fixed =>
      some ⟨tag, fixed.value⟩
    else some none

def neuAdapterDriverWriteTags (fl : FloatOps) (driver : NeuAdapterDriver) (req : Nat)
    (cmdGroup : CStr) (tags : List (CStr × NeuDvalue)) : Option NeuAdapterDriver :=
  if driver.adapter.state ≠ .running then some (respond driver req NEU_ERR_PLUGIN_NOT_RUNNING)
  else if driver.intfFuns.writeTags = false then
    some (respond driver req NEU_ERR_PLUGIN_NOT_SUPPORT_WRITE_TAGS)
  else match findGroup driver cmdGroup with
  | none => some (respond driver req NEU_ERR_GROUP_NOT_EXIST)
  | some g => do
    let tvs ← tags.mapM (pluginTagValue fl g.group)
    let tvs := tvs.filterMap id
    if tvs.length ≠ tags.length then return respond driver req NEU_ERR_TAG_NOT_EXIST
    else return storeWriteTag driver cmdGroup g (.batch req tvs)

def writeCallback (driver : NeuAdapterDriver) (name : CStr) : NeuAdapterDriver :=
  match findGroup driver name with
  | none => driver
  | some g =>
    if driver.adapter.state ≠ .running then driver
    else (driver.setGroup name { g with wtTags := [] }).record (g.wtTags.map (.written g.serial))

/- What `fix_value` leaves: a plain value stays plain, and the length of bytes stays. -/

theorem overlay_bytesLength {len : Nat} (u : ValueU) (offset : Nat) (field : Block len)
    (low : offset + len ≤ NEU_VALUE_SIZE) :
    ValueU.bytesLength (u.overlay offset field) = u.bytesLength := by
  unfold NEU_VALUE_SIZE at low
  unfold ValueU.bytesLength NEU_VALUE_SIZE
  rw [Block.byte_overlay u offset field (by omega), if_neg (by omega)]

theorem setFront_bytesLength (u : ValueU) {bytes : Nat} (n : Nat) (low : bytes ≤ NEU_VALUE_SIZE) :
    (u.setFront bytes n).bytesLength = u.bytesLength :=
  overlay_bytesLength u 0 _ (by omega)

theorem swapAt_bytesLength (u : ValueU) {offset len : Nat} (low : offset + len ≤ NEU_VALUE_SIZE) :
    ValueU.bytesLength (u.swapAt offset len) = u.bytesLength :=
  overlay_bytesLength u offset _ low

theorem swap32_bytesLength (u : ValueU) (endian : Nat) :
    (swap32 u endian).bytesLength = u.bytesLength := by
  have two (v : ValueU) : ValueU.bytesLength (v.swapAt 0 2) = v.bytesLength :=
    swapAt_bytesLength v (by decide)
  have next (v : ValueU) : ValueU.bytesLength (v.swapAt 2 2) = v.bytesLength :=
    swapAt_bytesLength v (by decide)
  have four (v : ValueU) : ValueU.bytesLength (v.swapAt 0 4) = v.bytesLength :=
    swapAt_bytesLength v (by decide)
  unfold swap32
  repeat' split
  · rw [next, two]
  · rw [four]
  · rw [next, two, four]
  · rfl

theorem calTagDecimal_plain (fl : FloatOps) (tag : NeuDatatag) (value : NeuDvalue) :
    (calTagDecimal fl tag value).type = value.type ∧
      (calTagDecimal fl tag value).value.bytesLength = value.value.bytesLength := by
  have eight (n : Nat) : (value.value.setFront 8 n).bytesLength = value.value.bytesLength :=
    setFront_bytesLength _ n (by decide)
  have four (n : Nat) : (value.value.setFront 4 n).bytesLength = value.value.bytesLength :=
    setFront_bytesLength _ n (by decide)
  unfold calTagDecimal
  split
  · exact ⟨rfl, rfl⟩
  · refine ⟨rfl, ?_⟩
    unfold calDecimal
    repeat' split
    all_goals simp only [eight, four]

theorem intToDouble_plain (fl : FloatOps) (tag : NeuDatatag) (value : NeuDvalue) :
    (intToDouble fl tag value).type = value.type ∧
      (intToDouble fl tag value).value.bytesLength = value.value.bytesLength := by
  unfold intToDouble
  split
  · exact ⟨rfl, setFront_bytesLength _ _ (by decide)⟩
  · exact ⟨rfl, rfl⟩

def Orderable (tag : NeuDatatag) : Prop :=
  tag.type ≠ .error ∧ tag.type ≠ .ptr ∧ tag.type.listed = true

theorem fixValue_total (fl : FloatOps) (tag : NeuDatatag) (valueType : NeuType) (value : NeuDvalue)
    (orderable : Orderable tag) : ∃ fixed, fixValue fl tag valueType value = some fixed := by
  obtain ⟨error, ptr, listed⟩ := orderable
  unfold fixValue
  cases type : tag.type with
  | error => exact absurd type error
  | ptr => exact absurd type ptr
  | unlisted other =>
    rw [type] at listed
    cases listed
  | _ => exact ⟨_, rfl⟩

theorem fixValue_plain {fl : FloatOps} {tag : NeuDatatag} {valueType : NeuType}
    {value fixed : NeuDvalue} (done : fixValue fl tag valueType value = some fixed) :
    tag.type ≠ .ptr ∧ (value.type ≠ .ptr → fixed.type ≠ .ptr) ∧
      fixed.value.bytesLength = value.value.bytesLength := by
  have one (n : Nat) : (value.value.setFront 1 n).bytesLength = value.value.bytesLength :=
    setFront_bytesLength _ n (by decide)
  have two (n : Nat) : (value.value.setFront 2 n).bytesLength = value.value.bytesLength :=
    setFront_bytesLength _ n (by decide)
  have swapped (u : ValueU) {len : Nat} (low : 0 + len ≤ NEU_VALUE_SIZE) (big : Prop)
      [Decidable big] : ValueU.bytesLength (if big then u.swapAt 0 len else u) = u.bytesLength := by
    split
    · exact swapAt_bytesLength u low
    · rfl
  have four (n : Nat) : (value.value.setFront 4 n).bytesLength = value.value.bytesLength :=
    setFront_bytesLength _ n (by decide)
  unfold fixValue at done
  cases type : tag.type
  all_goals simp only [type, reduceCtorEq, Option.some.injEq] at done
  all_goals
    subst done
    refine ⟨by simp, ?_, ?_⟩
  case float.refine_1 =>
    intro plain
    dsimp only
    split
    · exact plain
    · simp
  case float.refine_2 =>
    rw [swap32_bytesLength]
    split
    · rfl
    · exact four _
  case int8.refine_2 | uint8.refine_2 | bit.refine_2 => exact one _
  case int16.refine_2 | uint16.refine_2 | word.refine_2 =>
    rw [swapped, two]
    decide
  case int32.refine_2 | uint32.refine_2 | dword.refine_2 => rw [swap32_bytesLength, four]
  case int64.refine_2 | uint64.refine_2 | double.refine_2 | lword.refine_2 =>
    rw [swapped]
    decide
  all_goals simp

end Cpm
