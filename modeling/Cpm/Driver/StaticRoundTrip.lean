import Cpm.Driver.TagValue
import Cpm.Driver.WriteFrame

/-! A value that is written to a static tag and read again, from the entry that the write leaves and
from the one that a tick rebuilds. -/
namespace Cpm

open Lib Lib.Run Lib.Words

/-- The value of a write request, which `handle_write` fills in a cleared struct. Texts and bytes that
are too long are refused; no other kind of value comes out of the decoder. -/
def writeValue : NeuJsonValue → Option NeuDvalue
  | .int n => some ⟨.int64, frontOf 8 (n % 2 ^ 64).toNat, 0⟩
  | .str text => if text.strlen < NEU_VALUE_SIZE then some ⟨.string, strValue text, 0⟩ else none
  | .bytes values =>
    if values.length ≤ NEU_VALUE_SIZE then
      some ⟨.bytes,
        (Block.ofList 136 values).overlay NEU_VALUE_SIZE (Block.leBlock 1 values.length), 0⟩
    else none
  | .double bits => some ⟨.double, frontOf 8 bits, 0⟩
  | .bool b => some ⟨.bool, frontOf 1 b.toNat, 0⟩
  | _ => none

/-- The type under which `fix_value` leaves a value for a tag. -/
def writtenType (valueType : NeuType) : NeuType → NeuType
  | .bit => .bit
  | .uint8 | .int8 => .uint8
  | .int16 | .uint16 | .word => .uint16
  | .uint32 | .int32 | .dword => .uint32
  | .float => .float
  | .bool | .string | .bytes | .double | .uint64 | .int64 | .lword | .error | .ptr | .unlisted _ =>
    valueType

def keptTypes : List NeuType := [.bit, .uint8, .uint16, .uint32, .int64, .bool, .string]

theorem writeValue_decoded {value : NeuJsonValue} {v : NeuDvalue}
    (request : writeValue value = some v) :
    v.type ≠ .ptr ∧ v.value.bytesLength ≤ NEU_VALUE_SIZE := by
  have front {bytes : Nat} (short : bytes ≤ NEU_VALUE_SIZE) (n : Nat) :
      (frontOf bytes n).bytesLength ≤ NEU_VALUE_SIZE := by
    rw [frontOf, overlay_bytesLength _ _ _ (by omega)]
    decide
  unfold writeValue at request
  split at request
  · cases request
    exact ⟨by simp, front (by decide) _⟩
  · split at request
    · cases request
      refine ⟨by simp, ?_⟩
      simp [strValue, ValueU.bytesLength, Block.byte_ofList, NEU_VALUE_SIZE, -Block.byte_lt]
    · cases request
  · next values =>
    split at request
    · next short =>
      cases request
      refine ⟨by simp, ?_⟩
      have length : ((Block.leBlock 1 values.length).byte 0).toNat = values.length % 256 := by
        simp [Block.leBlock]
      rw [ValueU.bytesLength, Block.byte_overlay _ _ _ (by decide), if_pos (by decide), Nat.sub_self,
        length]
      exact (Nat.mod_le _ _).trans short
    · cases request
  · cases request
    exact ⟨by simp, front (by decide) _⟩
  · cases request
    exact ⟨by simp, front (by decide) _⟩
  · cases request

section
variable {casts : CastOps} {tag : NeuDatatag} {value : NeuJsonValue} {v fixed : NeuDvalue}

theorem fixValue_type {fl : FloatOps} (done : fixValue fl tag v.type v = some fixed) :
    fixed.type = writtenType v.type tag.type := by
  unfold fixValue at done
  cases type : tag.type
  all_goals simp only [type, reduceCtorEq, Option.some.injEq] at done
  all_goals subst done
  case float =>
    simp only [writtenType]
    split
    · next same => exact same
    · rfl
  all_goals rfl

/-- Without a decimal, and for a type that is not floating, the value comes to `fix_value` as it
was asked for. -/
theorem fixedValue_plain_type (fl : FloatOps) (unscaled : Ieee.binary64.isZero tag.decimal = true)
    (counted : tag.type ≠ .float ∧ tag.type ≠ .double) (v : NeuDvalue) :
    fixedValue fl tag v = fixValue fl tag v.type v := by
  have unconverted : intToDouble fl tag v = v :=
    if_neg fun converts => converts.1.elim counted.1 counted.2
  rw [fixedValue, unconverted, calTagDecimal, if_pos unscaled]

/-- What goes to the cache and to the tag is the value, in the order that the tag asks for. -/
theorem fixValue_denotes {fl : FloatOps} (counted : tag.type ≠ .float ∧ tag.type ≠ .double)
    (inType : InType tag.type value) (request : writeValue value = some v) :
    ∃ fixed u, fixValue fl tag v.type v = some fixed ∧ fixed.value = orderWritten tag u ∧
      Denotes casts tag.type u value := by
  obtain ⟨stored, same, means⟩ := stored_denotes casts inType
  cases value with
  | int n =>
    cases request
    let sent : ValueU := frontOf 8 (n % 2 ^ 64).toNat
    have whole : sent.unsigned 8 = (n % 2 ^ 64).toNat := by
      rw [frontOf_unsigned 8 (by decide)]
      omega
    cases kind : numKind tag.type with
    | none =>
      have bit : tag.type = .bit ∧ (n = 0 ∨ n = 1) := by simpa only [InType, kind] using inType
      obtain ⟨type, bits⟩ := bit
      let u : ValueU := sent.setFront 1 (sent.unsigned 8)
      refine ⟨⟨.bit, u, 0⟩, u, by rw [fixValue, type], by rw [orderWritten, type], ?_⟩
      have member : u.unsigned 1 = (n % 2 ^ 64).toNat % 256 ^ 1 := by
        rw [ValueU.setFront_unsigned _ _ (by decide), whole]
      simp only [Denotes, kind, member]
      omega
    | some kind' =>
      cases kind' with
      | int signed bytes =>
        have range : InRange signed (256 ^ bytes) n := by simpa only [InType, kind] using inType
        have short : bytes ≤ 8 := by
          cases type : tag.type <;> rw [type] at kind <;> cases kind <;> decide
        have number : ∃ fixed u, fixValue fl tag .int64 ⟨.int64, sent, 0⟩ = some fixed ∧
            fixed.value = orderWritten tag u ∧ u.unsigned bytes = sent.unsigned 8 % 256 ^ bytes :=
          fixValue_int kind _
        obtain ⟨fixed, u, done, ordered, member⟩ := number
        refine ⟨fixed, u, done, ordered, ?_⟩
        have word : (u.unsigned bytes : Int) = n % (256 ^ 8 : Nat) % (256 ^ bytes : Nat) := by
          rw [member, whole, Int.natCast_emod, Int.toNat_of_nonneg (Int.emod_nonneg n (by decide))]
          rfl
        simp only [Denotes, kind]
        rw [word, read_of_dvd (dvd_refl _), read_of_dvd (pow_dvd_pow 256 short),
          read_self (Nat.pow_pos (by decide)) range]
      | float =>
        cases type : tag.type <;> rw [type] at kind <;> cases kind
        exact absurd type counted.1
      | double =>
        cases type : tag.type <;> rw [type] at kind <;> cases kind
        exact absurd type counted.2
  | bool b =>
    cases request
    have type : tag.type = .bool := inType
    rw [type] at same means ⊢
    cases same
    refine ⟨_, _, by rw [fixValue, type], ?_, means⟩
    rw [orderWritten, type]
    rfl
  | str text =>
    obtain ⟨type, short, _⟩ := inType
    rw [writeValue, if_pos short] at request
    cases request
    rw [type] at same means ⊢
    cases same
    exact ⟨_, _, by rw [fixValue, type], by rw [orderWritten, type], means⟩
  | double bits => exact absurd inType (not_or.2 counted)
  | bytes values => cases inType
  | undefine | object _ | bit _ | float _ => cases request

theorem orderWritten_kept (keeps : tag.type ∈ keptTypes) (u : ValueU) :
    orderWritten tag u = orderBytes tag u := by
  unfold orderWritten orderBytes
  cases type : tag.type
  all_goals first
    | rfl
    | simp [type, keptTypes] at keeps

/-- A request for a value that the tag can hold keeps the tag's type exactly for these types. -/
theorem writtenType_iff (counted : tag.type ≠ .float ∧ tag.type ≠ .double)
    (inType : InType tag.type value) (request : writeValue value = some v) :
    writtenType v.type tag.type = tag.type ↔ tag.type ∈ keptTypes := by
  cases value with
  | int n =>
    cases request
    cases type : tag.type
    all_goals first
      | exact absurd type counted.1
      | exact absurd type counted.2
      | simp [writtenType, keptTypes]
        done
      | simp [type, InType, numKind] at inType
  | bool b =>
    cases request
    have type : tag.type = .bool := inType
    simp [type, writtenType, keptTypes]
  | str text =>
    obtain ⟨type, short, _⟩ := inType
    rw [writeValue, if_pos short] at request
    cases request
    simp [type, writtenType, keptTypes]
  | double bits => exact absurd inType (not_or.2 counted)
  | bytes values => cases inType
  | undefine | object _ | bit _ | float _ => cases request

end

/-- The write succeeds, and whatever ticks follow, reads say the value that was written. -/
def ReadsWritten (casts : CastOps) (driver : NeuAdapterDriver) (req : Nat) (group : CStr)
    (tag : NeuDatatag) (value : NeuJsonValue) (v : NeuDvalue) (timestamp now : Int) : Prop :=
  ∃ written,
    neuAdapterDriverWriteTag casts.toFloatOps driver req group tag.name v timestamp now =
      some written ∧
    ∀ ticks : List CStr, ∃ ticked, ticks.foldlM readCallback written = some ticked ∧
      Reads casts ticked group tag value

theorem static_write_read_iff (casts : CastOps) {driver : NeuAdapterDriver} {group : CStr} {g : GroupT}
    {tag : NeuDatatag} {value : NeuJsonValue} {v : NeuDvalue} (orderly : Orderly driver)
    (running : driver.adapter.state = .running) (found : findGroup driver group = some g)
    (has : neuGroupFindTag g.group tag.name = some tag)
    (static : neuTagAttributeTest tag NEU_ATTRIBUTE_STATIC = true)
    (writable : neuTagAttributeTest tag NEU_ATTRIBUTE_WRITE = true)
    (unscaled : Ieee.binary64.isZero tag.decimal = true)
    (counted : tag.type ≠ .float ∧ tag.type ≠ .double) (inType : InType tag.type value)
    (request : writeValue value = some v) (req : Nat) (timestamp now : Int) :
    ReadsWritten casts driver req group tag value v timestamp now ↔
      (mapOf driver.cache (group, tag.name)).isSome = true ∧ tag.type ∈ keptTypes := by
  have kind : ∃ fixed u, fixValue casts.toFloatOps tag v.type v = some fixed ∧
      fixed.value = orderWritten tag u ∧ Denotes casts tag.type u value :=
    fixValue_denotes counted inType request
  obtain ⟨fixed, u, fixes, ordered, means⟩ := kind
  have done : fixedValue casts.toFloatOps tag v = some fixed := by
    rw [fixedValue_plain_type casts.toFloatOps unscaled counted, fixes]
  let decoded : DecodedValue := ⟨v, writeValue_decoded request⟩
  have wrote : ∃ written, neuAdapterDriverWriteTag casts.toFloatOps driver req group tag.name
      decoded.value timestamp now = some written ∧
        Wrote driver written group g tag fixed timestamp now :=
    writeTag_wrote orderly running found has static writable done req timestamp now
  obtain ⟨written, wrote, leaves⟩ := wrote
  let given : NeuDatatag := { tag with staticValue := some fixed.value }
  have held : given ∈ (g.withStatic tag fixed.value now).group.tags.values := by
    refine Table.mem_values.2 ⟨tag.name, ?_⟩
    rw [GroupT.withStatic, Table.find_insert, if_pos rfl]
  have still : written.adapter.state = .running := by rw [leaves.adapter, running]
  have reads : Reads casts written group given value ↔
      ∃ e, mapOf written.cache (group, tag.name) = some e ∧ Tells casts given value e :=
    reads_iff leaves.orderly still leaves.stored held static unscaled inType
  have type := fixValue_type fixes
  have static' : neuTagAttributeTest given NEU_ATTRIBUTE_STATIC = true := static
  have unscaled' : Ieee.binary64.isZero given.decimal = true := unscaled
  have inType' : InType given.type value := inType
  constructor
  · rintro ⟨_, again, all⟩
    cases wrote.symm.trans again
    obtain ⟨_, ran, shown⟩ := all []
    cases ran
    obtain ⟨e, here, tells⟩ := reads.1 shown
    cases before : mapOf driver.cache (group, tag.name) with
    | none => cases (leaves.absent before).symm.trans here
    | some old =>
      obtain ⟨changed, entry⟩ := leaves.entry old before
      cases here.symm.trans entry
      have same : fixed.type = tag.type := tells.1
      exact ⟨rfl, (writtenType_iff counted inType request).1 (type.symm.trans same)⟩
  · rintro ⟨cached, keeps⟩
    obtain ⟨old, before⟩ := Option.isSome_iff_exists.1 cached
    obtain ⟨changed, entry⟩ := leaves.entry old before
    have same : fixed.type = tag.type := type.trans ((writtenType_iff counted inType request).2 keeps)
    have back : Denotes casts given.type (orderBytes given fixed.value) value := by
      have order : orderBytes given fixed.value = u := by
        rw [ordered, orderWritten_kept keeps]
        exact orderBytes_orderBytes tag u
      rw [order]
      exact means
    have start : Keeps casts group given value written := by
      refine ⟨leaves.orderly, still, ⟨_, leaves.stored, held⟩, _, entry, ?_⟩
      exact (tells_payload same (congrArg (payload · fixed.value []) same) inType).2 back
    refine ⟨written, wrote, fun ticks => ?_⟩
    obtain ⟨ticked, ran, ended⟩ := ticks_keep static' rfl inType' back start ticks
    have shown : Reads casts ticked group given value := keeps_reads static' unscaled' inType' ended
    exact ⟨ticked, ran, shown⟩

def staticLevel : DecodedTag :=
  ⟨{ staticTemp.tag with
      name := .lit "level", address := .lit "1!2#B", type := .uint16
      staticValue := some (.ofU32 3) }, by simp⟩

def staticGroup : List DriverOp :=
  [.manage (.addGroup groupA 1000),
    .manage (.addTags accepting groupA [staticTemp, staticLevel] fun _ => 5),
    .manage (.readTick groupA.val)]

theorem staticGroup_orderly : ∃ driver,
    staticGroup.foldlM (driverStep noFloats) newDriver = some driver ∧ Orderly driver :=
  reached_orderly noFloats newDriver.adapter newDriver.intfFuns staticGroup
    ⟨trivial, fun _ _ => ⟨trivial, fun _ _ => ⟨trivial, fun _ _ => trivial⟩⟩⟩

theorem static_write_read_level : ∃ driver tag v,
    staticGroup.foldlM (driverStep noFloats) newDriver = some driver ∧
    tag.name = staticLevel.tag.name ∧ writeValue (.int 258) = some v ∧
    (ReadsWritten noCasts driver 1 groupA tag (.int 258) v 10 6 ↔
      (mapOf driver.cache (groupA.val, tag.name)).isSome = true ∧ tag.type ∈ keptTypes) := by
  obtain ⟨driver, ran, orderly⟩ := staticGroup_orderly
  have state : (staticGroup.foldlM (driverStep noFloats) newDriver).bind (fun d =>
      (findGroup d groupA).bind fun g => (neuGroupFindTag g.group staticLevel.tag.name).map fun tag =>
        (d.adapter.state, tag.attributes, tag.decimal, tag.type, tag.name)) =
      some (.running, NEU_ATTRIBUTE_WRITE + NEU_ATTRIBUTE_STATIC, 0, .uint16, staticLevel.tag.name) := by
    decide +kernel
  rw [ran, Option.bind_some] at state
  obtain ⟨g, found, further⟩ := Option.bind_eq_some_iff.1 state
  obtain ⟨tag, has, all⟩ := Option.map_eq_some_iff.1 further
  simp only [Prod.mk.injEq] at all
  obtain ⟨running, attributes, decimal, type, name⟩ := all
  have inType : InType tag.type (.int 258) := by
    rw [type]
    simp only [InType, numKind, InRange]
    decide
  refine ⟨driver, tag, _, ran, name, rfl, ?_⟩
  rw [← name] at has
  exact static_write_read_iff noCasts orderly running found has
    (by rw [neuTagAttributeTest, attributes]; decide)
    (by rw [neuTagAttributeTest, attributes]; decide) (by rw [decimal]; decide)
    (by rw [type]; decide) inType rfl 1 10 6

/-- 7, written to a tag of type INT8, is read as a UINT8 before the next tick. -/
theorem static_write_retyped : ∃ driver g tag v,
    staticGroup.foldlM (driverStep noFloats) newDriver = some driver ∧
    findGroup driver groupA = some g ∧ neuGroupFindTag g.group staticTemp.tag.name = some tag ∧
    tag.type = .int8 ∧ InType .int8 (.int 7) ∧ writeValue (.int 7) = some v ∧
    ¬ ReadsWritten noCasts driver 1 groupA tag (.int 7) v 10 6 := by
  obtain ⟨driver, ran, _⟩ := staticGroup_orderly
  let v : NeuDvalue := ⟨.int64, frontOf 8 7, 0⟩
  let shown (read : ReadGroupResp) : List (CStr × NeuType) :=
    read.answers.map fun d => (d.tag, d.value.type)
  have state : (staticGroup.foldlM (driverStep noFloats) newDriver).bind (fun d =>
      (findGroup d groupA).bind fun g => (neuGroupFindTag g.group staticTemp.tag.name).map fun tag =>
        (tag.name, tag.type, (neuAdapterDriverWriteTag noFloats d 1 groupA tag.name v 10 6).bind fun w =>
          (neuAdapterDriverReadGroup noFloats w CStr.empty groupA 0).map shown)) =
      some (.lit "temp", .int8, some [(.lit "temp", .uint8), (.lit "level", .uint16)]) := by
    decide +kernel
  rw [ran, Option.bind_some] at state
  obtain ⟨g, found, further⟩ := Option.bind_eq_some_iff.1 state
  obtain ⟨tag, has, all⟩ := Option.map_eq_some_iff.1 further
  simp only [Prod.mk.injEq] at all
  obtain ⟨name, type, answers⟩ := all
  refine ⟨driver, g, tag, v, ran, found, has, type, ?_, rfl, ?_⟩
  · simp only [InType, numKind, InRange]
    decide
  · rintro ⟨written, wrote, reads⟩
    obtain ⟨_, none, shows⟩ := reads []
    cases none
    obtain ⟨n, datas, read, ⟨d, member, tagged⟩, each⟩ := shows CStr.empty 0
    have wrote' : neuAdapterDriverWriteTag noFloats driver 1 groupA tag.name v 10 6 =
      some written := wrote
    have read' : neuAdapterDriverReadGroup noFloats written CStr.empty groupA 0 = _ := read
    rw [wrote', Option.bind_some, read', Option.map_some, Option.some.injEq] at answers
    have listed : (d.tag, d.value.type) ∈ shown (.group CStr.empty groupA.val n datas) :=
      List.mem_map.2 ⟨d, member, rfl⟩
    rw [answers, tagged, (each d member tagged).1, name, type] at listed
    exact absurd listed (by decide)

end Cpm
