import Cpm.Driver.Orderly
import Cpm.Driver.ReadMap

/-! The report tick, from `driver.c`: `read_report_group` and the timer around it. -/
namespace Cpm

open Lib

/- The switches of `read_report_group`, a copy of those of `read_group`. -/

def reportOrder (tag : NeuDatatag) (u : ValueU) : ValueU :=
  match tag.type with
  | .uint16 | .int16 =>
    if tag.option.endian = NEU_DATATAG_ENDIAN_B16 then u.swapAt 0 2 else u
  | .float | .uint32 | .int32 =>
    if tag.option.endian = NEU_DATATAG_ENDIAN_LB32 then (u.swapAt 0 2).swapAt 2 2
    else if tag.option.endian = NEU_DATATAG_ENDIAN_BB32 then u.swapAt 0 4
    else if tag.option.endian = NEU_DATATAG_ENDIAN_BL32 then
      let turned := u.swapAt 0 4
      (turned.swapAt 0 2).swapAt 2 2
    else u
  | .double | .int64 | .uint64 =>
    if tag.option.endian = NEU_DATATAG_ENDIAN_B64 then u.swapAt 0 8 else u
  | _ => u

/-- The type is set to DOUBLE first; a type without a case takes it back. -/
def reportDecimal (fl : FloatOps) (tag : NeuDatatag) (data : NeuDvalue) : NeuDvalue :=
  let double (number : Nat) : NeuDvalue :=
    { data with type := .double, value := data.value.setFront 8 (fl.mul number tag.decimal) }
  match tag.type with
  | .int8 => double (fl.ofInt (data.value.signed 1))
  | .uint8 => double (fl.ofInt (data.value.unsigned 1))
  | .int16 => double (fl.ofInt (data.value.signed 2))
  | .uint16 => double (fl.ofInt (data.value.unsigned 2))
  | .int32 => double (fl.ofInt (data.value.signed 4))
  | .uint32 => double (fl.ofInt (data.value.unsigned 4))
  | .int64 => double (fl.ofInt (data.value.signed 8))
  | .uint64 => double (fl.ofInt (data.value.unsigned 8))
  | .float => double (fl.ofFloat data.value.f32)
  | .double => double data.value.d64
  | type => { data with type }

def reportValue (fl : FloatOps) (timestamp timeout : Int) (tag : NeuDatatag)
    (value : NeuDriverCacheValue) : NeuDvalue :=
  if value.value.type = .error then value.value
  else
    let u := reportOrder tag value.value.value
    if !neuTagAttributeTest tag NEU_ATTRIBUTE_STATIC && timestamp - value.timestamp > timeout &&
        timeout > 0 then errorValue 0 NEU_ERR_PLUGIN_TAG_VALUE_EXPIRED
    else
      let data : NeuDvalue :=
        if value.value.type = .ptr then ⟨.ptr, Block.zero.overlay 0 (u.window 0 6), 0⟩
        else { value.value with value := u }
      if Ieee.binary64.isZero tag.decimal then data else reportDecimal fl tag data

/-- What a pass of the loop fills in, nothing for a tag that is skipped. -/
def readReportTag (fl : FloatOps) (timestamp timeout : Int) (group : CStr) (cache : NeuDriverCache)
    (tag : NeuDatatag) : Option (NeuDriverCache × Option NeuRespTagValueMeta) := do
  let found ←
    if neuTagAttributeTest tag NEU_ATTRIBUTE_SUBSCRIBE then
      neuDriverCacheMetaGetChanged cache group tag.name NEU_TAG_META_SIZE
    else (neuDriverCacheMetaGet cache group tag.name NEU_TAG_META_SIZE).map (cache, ·)
  match found.2 with
  | none =>
    if neuTagAttributeTest tag NEU_ATTRIBUTE_SUBSCRIBE then return (found.1, none)
    else return (found.1,
      some ⟨tag.name, errorValue 0 NEU_ERR_PLUGIN_TAG_NOT_READY, [], noMetas⟩)
  | some (value, metas) =>
    return (found.1, some ⟨tag.name, reportValue fl timestamp timeout tag value, value.data, metas⟩)

/-- The result is the front of the array up to the index that is returned. -/
def readReportGroup (fl : FloatOps) (timestamp timeout : Int) (group : CStr) :
    NeuDriverCache → List NeuDatatag → Option (NeuDriverCache × List NeuRespTagValueMeta)
  | cache, [] => some (cache, [])
  | cache, tag :: rest => do
    let first ← readReportTag fl timestamp timeout group cache tag
    let further ← readReportGroup fl timestamp timeout group first.1 rest
    return (further.1, first.2.toList ++ further.2)

structure NeuReqrespTransData where
  driver : CStr
  group : CStr
  nTag : Nat
  tags : List NeuRespTagValueMeta

/-- The report timer of the group that has this name. Nothing is sent if there is nothing to
report. -/
def reportCallback (fl : FloatOps) (driver : NeuAdapterDriver) (name : CStr) (timestamp : Int) :
    Option (NeuAdapterDriver × Option NeuReqrespTransData) :=
  match findGroup driver name with
  | none => some (driver, none)
  | some group =>
    if driver.adapter.state ≠ .running then some (driver, none)
    else do
      let (cache, datas) ← readReportGroup fl timestamp (readTimeout group.group) name driver.cache
        (neuGroupGetReadTag group.group)
      let nTag := datas.length % 2 ^ 16
      return ({ driver with cache },
        if nTag > 0 then some ⟨driver.adapter.name, name, nTag, datas⟩ else none)

/- The switches agree. -/

theorem reportOrder_eq (tag : NeuDatatag) (u : ValueU) : reportOrder tag u = orderBytes tag u := by
  unfold reportOrder orderBytes
  cases tag.type
  case float | uint32 | int32 =>
    simp only [swap32]
  all_goals rfl

theorem reportDecimal_eq (fl : FloatOps) (tag : NeuDatatag) (data : NeuDvalue) :
    (if Ieee.binary64.isZero tag.decimal then data else reportDecimal fl tag data) =
      scaled fl tag data := by
  unfold scaled
  split
  · rfl
  · unfold reportDecimal
    cases type : tag.type <;> simp only [asDouble]

theorem reportValue_eq (fl : FloatOps) (timestamp timeout : Int) (tag : NeuDatatag)
    (value : NeuDriverCacheValue) : reportValue fl timestamp timeout tag value =
      tagValue fl tag value (timestamp - value.timestamp > timeout && timeout > 0) := by
  unfold reportValue tagValue
  by_cases error : value.value.type = .error
  · rw [if_pos error, if_pos error]
  · simp only [if_neg error, Bool.and_assoc, reportOrder_eq, reportDecimal_eq]

/- Tags that are not subscribed. -/

theorem readReportTag_plain (fl : FloatOps) (timestamp : Int) {timeout : Int} (group : CStr)
    (cache : NeuDriverCache) {tag : NeuDatatag}
    (plain : neuTagAttributeTest tag NEU_ATTRIBUTE_SUBSCRIBE = false) (positive : 0 < timeout) :
    readReportTag fl timestamp timeout group cache tag =
      (readTag fl timestamp timeout cache group tag).map fun answered => (cache, some answered) := by
  unfold readReportTag readTag
  cases neuDriverCacheMetaGet cache group tag.name NEU_TAG_META_SIZE with
  | none => simp [plain]
  | some found =>
    cases found with
    | none => simp [plain]
    | some entry => simp [plain, positive, reportValue_eq]

theorem readReportGroup_read (fl : FloatOps) (timestamp : Int) {timeout : Int} (group : CStr)
    (cache : NeuDriverCache) {tags : List NeuDatatag}
    (plain : ∀ tag ∈ tags, neuTagAttributeTest tag NEU_ATTRIBUTE_SUBSCRIBE = false)
    (positive : 0 < timeout) :
    readReportGroup fl timestamp timeout group cache tags =
      (readGroup fl timestamp timeout cache group tags).map (cache, ·) := by
  induction tags with
  | nil => rfl
  | cons tag rest ih =>
    have here := readReportTag_plain fl timestamp group cache (plain tag List.mem_cons_self)
      positive
    have further := ih fun tag inside => plain tag (List.mem_cons_of_mem _ inside)
    unfold readReportGroup readGroup
    rw [here, List.mapM_cons]
    cases readTag fl timestamp timeout cache group tag with
    | none => rfl
    | some answered =>
      have rest_ran : readReportGroup fl timestamp timeout group cache rest =
          (rest.mapM (readTag fl timestamp timeout cache group)).map (cache, ·) := further
      simp only [Option.map_some, Option.bind_eq_bind, Option.bind_some, rest_ran]
      cases rest.mapM (readTag fl timestamp timeout cache group) <;> rfl

theorem readTag_names {fl : FloatOps} {timestamp timeout : Int} {cache : NeuDriverCache}
    {group : CStr} {tag : NeuDatatag} {answered : NeuRespTagValueMeta}
    (read : readTag fl timestamp timeout cache group tag = some answered) :
    answered.tag = tag.name := by
  obtain ⟨found, _, rest⟩ := Option.bind_eq_some_iff.1 read
  split at rest <;> cases rest <;> rfl

theorem readGroup_names {fl : FloatOps} {timestamp timeout : Int} {cache : NeuDriverCache}
    {group : CStr} {tags : List NeuDatatag} {datas : List NeuRespTagValueMeta}
    (read : readGroup fl timestamp timeout cache group tags = some datas) :
    datas.map NeuRespTagValueMeta.tag = tags.map NeuDatatag.name := by
  have each := Decode.mapM_eq_some_iff.1 read
  induction tags generalizing datas with
  | nil =>
    cases datas with
    | nil => rfl
    | cons data datas => cases each
  | cons tag rest ih =>
    cases datas with
    | nil => cases each
    | cons data datas =>
      obtain ⟨first, others⟩ := List.cons.inj each
      rw [List.map_cons, List.map_cons, readTag_names first,
        ih (Decode.mapM_eq_some_iff.2 others) others]

theorem report_agrees (fl : FloatOps) (timestamp timeout : Int) (group : CStr)
    (cache : NeuDriverCache) (tags : List NeuDatatag)
    (plain : ∀ tag ∈ tags, neuTagAttributeTest tag NEU_ATTRIBUTE_SUBSCRIBE = false)
    (positive : 0 < timeout) :
    readReportGroup fl timestamp timeout group cache tags =
        (readGroup fl timestamp timeout cache group tags).map (cache, ·) ∧
      ∀ cache' datas, readReportGroup fl timestamp timeout group cache tags = some (cache', datas) →
        datas.length = tags.length ∧
          datas.map NeuRespTagValueMeta.tag = tags.map NeuDatatag.name := by
  have same := readReportGroup_read fl timestamp group cache plain positive
  refine ⟨same, fun cache' datas ran => ?_⟩
  obtain ⟨answers, read, pair⟩ := Option.map_eq_some_iff.1 (same.symm.trans ran)
  cases pair
  have names := readGroup_names read
  refine ⟨?_, names⟩
  simpa using congrArg List.length names

def cacheTemp : NeuDriverCache :=
  ⟨Table.empty.insert (keyOf groupA.val readTemp.tag.name) ⟨5, false, ⟨.int8, .ofU32 7, 0⟩, noMetas⟩,
    .empty⟩

theorem report_agrees_two : (readReportGroup noFloats 90 60 groupA.val cacheTemp
        [readTemp.tag, readPressure.tag] =
      (readGroup noFloats 90 60 cacheTemp groupA.val [readTemp.tag, readPressure.tag]).map
        (cacheTemp, ·)) ∧
    ∀ cache' datas, readReportGroup noFloats 90 60 groupA.val cacheTemp
        [readTemp.tag, readPressure.tag] = some (cache', datas) →
      datas.length = 2 ∧ datas.map NeuRespTagValueMeta.tag =
        [readTemp.tag.name, readPressure.tag.name] :=
  report_agrees noFloats 90 60 groupA.val cacheTemp [readTemp.tag, readPressure.tag]
    (by decide) (by decide)

end Cpm
