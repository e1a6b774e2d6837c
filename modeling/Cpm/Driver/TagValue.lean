import Cpm.Driver.Rebuild
import Cpm.Driver.Scaling
import Cpm.Rest.TagRoundTrip

/-! Values that a static tag is given in JSON, and what a union says of them. -/
namespace Cpm

open Lib Lib.Run Lib.Words

def InType (type : NeuType) : NeuJsonValue → Prop
  | .int n =>
    match numKind type with
    | some (.int signed bytes) => InRange signed (256 ^ bytes) n
    | some _ => True
    | none => type = .bit ∧ (n = 0 ∨ n = 1)
  | .bit n => type = .bit ∧ (n = 0 ∨ n = 1)
  | .float _ | .double _ => type = .float ∨ type = .double
  | .bool _ => type = .bool
  | .str text => type = .string ∧ text.strlen < NEU_VALUE_SIZE ∧ Bytewise text
  | _ => False

/-- The member of the type is this value; a floating member is the conversion of the number. -/
def Denotes (casts : CastOps) (type : NeuType) (u : ValueU) : NeuJsonValue → Prop
  | .int n =>
    match numKind type with
    | some (.int signed bytes) => read signed (256 ^ bytes) (u.unsigned bytes) = n
    | some .float => u.f32 = casts.intToFloat n % 256 ^ 4
    | some .double => u.d64 = casts.ofInt n % 256 ^ 8
    | none => u.unsigned 1 = n
  | .bit n => u.unsigned 1 = n.toNat
  | .float bits =>
    if type = .float then u.f32 = bits % 256 ^ 4 else u.d64 = casts.ofFloat bits % 256 ^ 8
  | .double bits =>
    if type = .float then u.f32 = casts.toFloat bits % 256 ^ 4 else u.d64 = bits % 256 ^ 8
  | .bool b => u.unsigned 1 ≠ 0 ↔ b = true
  | .str text => strOf u = text
  | _ => False

section
variable {casts : CastOps} {type : NeuType} {value : NeuJsonValue} {u u' : ValueU}

theorem inType_plain (inType : InType type value) : type ≠ .bytes ∧ type ≠ .error ∧ type ≠ .ptr := by
  cases type
  all_goals first
    | exact ⟨by decide, by decide, by decide⟩
    | (cases value <;> simp [InType, numKind] at inType)

theorem denotes_window {w : ValueU} (inType : InType type value)
    (same : u.window 0 (type.width w) = u'.window 0 (type.width w)) :
    Denotes casts type u value ↔ Denotes casts type u' value := by
  cases value with
  | int n =>
    cases type
    all_goals first
      | simp [InType, numKind] at inType
        done
      | simp only [Denotes, numKind, ValueU.unsigned, ValueU.f32, ValueU.d64, NeuType.width] at same ⊢
        rw [same]
  | bit n =>
    obtain ⟨rfl, _⟩ := inType
    simp only [Denotes, ValueU.unsigned, NeuType.width] at same ⊢
    rw [same]
  | float bits =>
    obtain rfl | rfl := inType
    all_goals
      simp only [Denotes, ValueU.f32, ValueU.d64, NeuType.width, if_true, reduceCtorEq,
        if_false] at same ⊢
      rw [same]
  | double bits =>
    obtain rfl | rfl := inType
    all_goals
      simp only [Denotes, ValueU.f32, ValueU.d64, NeuType.width, if_true, reduceCtorEq,
        if_false] at same ⊢
      rw [same]
  | bool b =>
    obtain rfl := inType
    simp only [Denotes, ValueU.unsigned, NeuType.width] at same ⊢
    rw [same]
  | str text =>
    obtain ⟨rfl, _⟩ := inType
    simp only [Denotes, strOf, NeuType.width] at same ⊢
    rw [same]
  | undefine | object _ | bytes _ => cases inType

theorem frontOf_read {bytes : Nat} {modulus : Int} (fits : bytes ≤ 136)
    (whole : modulus = (256 ^ bytes : Nat)) (n : Int) :
    ((frontOf bytes (n % modulus).toNat).unsigned bytes : Int) = read false (256 ^ bytes) n ∧
      (frontOf bytes (n % modulus).toNat).signed bytes = read true (256 ^ bytes) n := by
  have positive : 0 < 256 ^ bytes := Nat.pow_pos (by decide)
  have low := Int.emod_nonneg n (b := ((256 ^ bytes : Nat) : Int)) (by omega)
  have word : ((frontOf bytes (n % modulus).toNat).unsigned bytes : Int) = n % (256 ^ bytes : Nat) := by
    rw [frontOf_unsigned bytes fits, whole, Int.natCast_emod, Int.toNat_of_nonneg low,
      Int.emod_emod_of_dvd _ (dvd_refl _)]
  refine ⟨word, ?_⟩
  have reads : (frontOf bytes (n % modulus).toNat).signed bytes =
      ((frontOf bytes (n % modulus).toNat).unsigned bytes : Int).bmod (256 ^ bytes) := rfl
  rw [reads, word, Int.emod_bmod]
  rfl

theorem int_denotes {signed : Bool} {bytes : Nat} {n modulus : Int} (fits : bytes ≤ 136)
    (whole : modulus = (256 ^ bytes : Nat)) (inRange : InRange signed (256 ^ bytes) n) :
    read signed (256 ^ bytes) ((frontOf bytes (n % modulus).toNat).unsigned bytes) = n := by
  have word : ((frontOf bytes (n % modulus).toNat).unsigned bytes : Int) = n % (256 ^ bytes : Nat) :=
    (frontOf_read fits whole n).1
  rw [word, read_of_dvd (dvd_refl _), read_self (Nat.pow_pos (by decide)) inRange]

/-- Every value that the type can hold is stored, and the stored union says it. -/
theorem stored_denotes (casts : CastOps) (inType : InType type value) :
    ∃ u, staticValueOf casts type value = some u ∧ Denotes casts type u value := by
  have zero : (frontOf 1 0).unsigned 1 = 0 := frontOf_unsigned 1 (by decide) 0
  have one : (frontOf 1 1).unsigned 1 = 1 := frontOf_unsigned 1 (by decide) 1
  cases value with
  | int n =>
    cases type
    case float => exact ⟨_, rfl, frontOf_unsigned 4 (by decide) _⟩
    case double => exact ⟨_, rfl, frontOf_unsigned 8 (by decide) _⟩
    case bit =>
      obtain ⟨_, rfl | rfl⟩ := inType
      · exact ⟨_, rfl, congrArg Nat.cast zero⟩
      · exact ⟨_, rfl, congrArg Nat.cast one⟩
    all_goals first
      | simp [InType, numKind] at inType
        done
      | exact ⟨_, rfl, int_denotes (by decide) (by decide) inType⟩
  | bit n =>
    obtain ⟨rfl, rfl | rfl⟩ := inType
    · exact ⟨_, rfl, zero⟩
    · exact ⟨_, rfl, one⟩
  | float bits =>
    obtain rfl | rfl := inType
    · exact ⟨_, rfl, frontOf_unsigned 4 (by decide) _⟩
    · exact ⟨_, rfl, frontOf_unsigned 8 (by decide) _⟩
  | double bits =>
    obtain rfl | rfl := inType
    · exact ⟨_, rfl, frontOf_unsigned 4 (by decide) _⟩
    · exact ⟨_, rfl, frontOf_unsigned 8 (by decide) _⟩
  | bool b =>
    obtain rfl := inType
    cases b
    · exact ⟨_, rfl, iff_of_false (not_not.2 zero) (by decide)⟩
    · exact ⟨_, rfl, iff_of_true (ne_of_eq_of_ne one (by decide)) rfl⟩
  | str text =>
    obtain ⟨rfl, short, bytewise⟩ := inType
    refine ⟨_, rfl, (strOf_strValue bytewise).trans ?_⟩
    have whole : text.chars.take (NEU_VALUE_SIZE - 1) = text.chars :=
      List.take_of_length_le (Nat.le_sub_one_of_lt short)
    cases text
    simp only [CStr.shortened, CStr.mk.injEq]
    exact whole
  | undefine | object _ | bytes _ => cases inType

end

/- Copies of a value in another order. -/

theorem width_short {type : NeuType} (u : ValueU) (plain : type ≠ .bytes) : type.width u ≤ 128 := by
  cases type
  all_goals first
    | exact absurd rfl plain
    | exact Nat.le_of_ble_eq_true rfl

theorem union_window {type : NeuType} (u : ValueU) (data : List UInt8) (plain : type ≠ .bytes) :
    ((payload type u data).union type).window 0 (type.width u) = u.window 0 (type.width u) := by
  have short := width_short u plain
  simp only [payload, Payload.union, if_neg plain]
  rw [← overlay_zero]
  exact Block.window_overlay _ _ (by omega)

theorem swap32_window {u u' : ValueU} (endian : Nat) (same : u.window 0 4 = u'.window 0 4) :
    (swap32 u endian).window 0 4 = (swap32 u' endian).window 0 4 := by
  have low {v v' : ValueU} (same : v.window 0 4 = v'.window 0 4) :
      Block.window (v.swapAt 0 2) 0 4 = Block.window (v'.swapAt 0 2) 0 4 :=
    Block.swapAt_window (by decide) (by decide) same
  have high {v v' : ValueU} (same : v.window 0 4 = v'.window 0 4) :
      Block.window (v.swapAt 2 2) 0 4 = Block.window (v'.swapAt 2 2) 0 4 :=
    Block.swapAt_window (by decide) (by decide) same
  have all : Block.window (u.swapAt 0 4) 0 4 = Block.window (u'.swapAt 0 4) 0 4 :=
    Block.swapAt_window (by decide) (by decide) same
  unfold swap32
  split
  · exact high (low same)
  split
  · exact all
  split
  · exact high (low all)
  · exact same

theorem orderBytes_window (tag : NeuDatatag) {u u' w : ValueU}
    (same : u.window 0 (tag.type.width w) = u'.window 0 (tag.type.width w)) :
    (orderBytes tag u).window 0 (tag.type.width w) =
      (orderBytes tag u').window 0 (tag.type.width w) := by
  have swapped {len : Nat} (short : len ≤ 136) (big : Prop) [Decidable big]
      (same : u.window 0 len = u'.window 0 len) :
      Block.window (if big then u.swapAt 0 len else u) 0 len =
        Block.window (if big then u'.swapAt 0 len else u') 0 len := by
    split
    · exact Block.swapAt_window (by omega) short same
    · exact same
  unfold orderBytes
  cases type : tag.type
  all_goals rw [type] at same
  case int16 | uint16 => exact swapped (by decide) _ same
  case int32 | uint32 | float => exact swap32_window _ same
  case int64 | uint64 | double => exact swapped (by decide) _ same
  all_goals exact same

/- What reads say of a static tag. -/

def Tells (casts : CastOps) (tag : NeuDatatag) (value : NeuJsonValue) (e : Entry) : Prop :=
  e.type = tag.type ∧ Denotes casts tag.type (orderBytes tag (e.payload.union e.type)) value

/-- Every read of the group says this value of the tag, under the tag's type. -/
def Reads (casts : CastOps) (driver : NeuAdapterDriver) (group : CStr) (tag : NeuDatatag)
    (value : NeuJsonValue) : Prop :=
  ∀ cmdDriver time, ∃ nTag datas,
    neuAdapterDriverReadGroup casts.toFloatOps driver cmdDriver group time =
      some (.group cmdDriver group nTag datas) ∧
    (∃ d ∈ datas, d.tag = tag.name) ∧
    ∀ d ∈ datas, d.tag = tag.name →
      d.value.type = tag.type ∧ Denotes casts tag.type d.value.value value

section
variable {casts : CastOps} {driver : NeuAdapterDriver} {group : CStr} {g : GroupT}
  {tag : NeuDatatag} {value : NeuJsonValue}

theorem reads_answers (orderly : Orderly driver) (running : driver.adapter.state = .running)
    (found : findGroup driver group = some g) (inside : tag ∈ g.group.tags.values)
    (static : neuTagAttributeTest tag NEU_ATTRIBUTE_STATIC = true) :
    Reads casts driver group tag value ↔ ∀ time,
      let answered := answer casts.toFloatOps time (readTimeout g.group) tag
        (mapOf driver.cache (group, tag.name))
      answered.value.type = tag.type ∧ Denotes casts tag.type answered.value.value value := by
  have keyed : Keyed g.group := orderly.keyed group g found
  have readable : tag ∈ neuGroupGetReadTag g.group :=
    List.mem_filter.2 ⟨inside, by simp [isReadable, static]⟩
  have read := readGroup_map casts.toFloatOps orderly.toFitting running found
  constructor
  · intro reads time
    obtain ⟨_, datas, ran, _, each⟩ := reads CStr.empty time
    cases (read CStr.empty time).symm.trans ran
    exact each _ (List.mem_map.2 ⟨tag, readable, rfl⟩) (answer_tag ..)
  · intro tells cmdDriver time
    refine ⟨_, _, read cmdDriver time, ⟨_, List.mem_map.2 ⟨tag, readable, rfl⟩, answer_tag ..⟩,
      fun d member name => ?_⟩
    obtain ⟨other, within, rfl⟩ := List.mem_map.1 member
    rw [answer_tag] at name
    obtain rfl := keyed_apart keyed (List.mem_of_mem_filter within) inside name
    exact tells time

/-- A static tag without a decimal reads as its entry says, and without an entry as an error. -/
theorem reads_iff (orderly : Orderly driver) (running : driver.adapter.state = .running)
    (found : findGroup driver group = some g) (inside : tag ∈ g.group.tags.values)
    (static : neuTagAttributeTest tag NEU_ATTRIBUTE_STATIC = true)
    (unscaled : Ieee.binary64.isZero tag.decimal = true) (inType : InType tag.type value) :
    Reads casts driver group tag value ↔
      ∃ e, mapOf driver.cache (group, tag.name) = some e ∧ Tells casts tag value e := by
  obtain ⟨_, error, ptr⟩ := inType_plain inType
  rw [reads_answers orderly running found inside static]
  cases mapOf driver.cache (group, tag.name) with
  | none =>
    refine iff_of_false (fun all => error (all 0).1.symm) ?_
    rintro ⟨_, none, _⟩
    cases none
  | some e =>
    simp only [Option.some.injEq, exists_eq_left']
    by_cases type : e.type = tag.type
    · have plain : e.type ≠ .error ∧ e.type ≠ .ptr := by rw [type]; exact ⟨error, ptr⟩
      simp only [answer_plain static unscaled plain, forall_const, Tells]
    · refine iff_of_false (fun all => type ?_) fun tells => type tells.1
      exact (tagValue_type e.copied static unscaled _).symm.trans (all 0).1

/-- An entry with a value of the tag's type tells what the value says in the tag's order. -/
theorem tells_payload {e : Entry} {u : ValueU} (type : e.type = tag.type)
    (holds : e.payload = payload tag.type u []) (inType : InType tag.type value) :
    Tells casts tag value e ↔ Denotes casts tag.type (orderBytes tag u) value := by
  obtain ⟨plain, _⟩ := inType_plain inType
  have ordered := orderBytes_window tag (union_window u [] plain)
  rw [Tells, type, holds, denotes_window inType ordered]
  exact and_iff_right rfl

structure Keeps (casts : CastOps) (group : CStr) (tag : NeuDatatag) (value : NeuJsonValue)
    (driver : NeuAdapterDriver) : Prop where
  orderly : Orderly driver
  running : driver.adapter.state = .running
  held : ∃ g, findGroup driver group = some g ∧ tag ∈ g.group.tags.values
  entry : ∃ e, mapOf driver.cache (group, tag.name) = some e ∧ Tells casts tag value e

/-- What the tick of a changed group enters for a static tag. -/
theorem static_fresh {u : ValueU} (static : neuTagAttributeTest tag NEU_ATTRIBUTE_STATIC = true)
    (given : tag.staticValue = some u) (metas : Metas) :
    Entry.fresh (rebuiltValue tag) metas =
      ⟨tag.type, payload tag.type u [], tag.precision, 0, metas, false⟩ := by
  rw [rebuiltValue, if_pos static, staticEntry, neuTagGetStaticValue, if_pos static, given]
  rfl

theorem ticked_static {ticked : NeuAdapterDriver} {u : ValueU} (leaves : Ticked driver ticked group)
    (found : findGroup driver group = some g) (moved : g.group.timestamp ≠ g.timestamp)
    (inside : tag ∈ g.group.tags.values)
    (static : neuTagAttributeTest tag NEU_ATTRIBUTE_STATIC = true)
    (given : tag.staticValue = some u) :
    ∃ metas, mapOf ticked.cache (group, tag.name) =
      some ⟨tag.type, payload tag.type u [], tag.precision, 0, metas, false⟩ := by
  have readable : tag ∈ neuGroupGetReadTag g.group :=
    List.mem_filter.2 ⟨inside, by simp [isReadable, static]⟩
  obtain ⟨metas, fresh⟩ := leaves.rebuilt g found moved tag readable
  exact ⟨metas, by rw [fresh, static_fresh static given]⟩

/-- The tick of any group leaves the value, whether it rebuilds the entry or not. -/
theorem tick_keeps {u : ValueU} (static : neuTagAttributeTest tag NEU_ATTRIBUTE_STATIC = true)
    (given : tag.staticValue = some u) (inType : InType tag.type value)
    (means : Denotes casts tag.type (orderBytes tag u) value)
    (keeps : Keeps casts group tag value driver)
    (name : CStr) :
    ∃ ticked, readCallback driver name = some ticked ∧ Keeps casts group tag value ticked := by
  obtain ⟨orderly, running, ⟨g, found, inside⟩, e, here, tells⟩ := keeps
  obtain ⟨ticked, ran, leaves⟩ := readTick_map name orderly running
  obtain ⟨g', found', same⟩ := leaves.groups group g found
  have entry : ∃ e, mapOf ticked.cache (group, tag.name) = some e ∧ Tells casts tag value e := by
    by_cases own : group = name
    · subst own
      by_cases still : g.group.timestamp = g.timestamp
      · exact ⟨e, by rw [leaves.same g found still, here], tells⟩
      · obtain ⟨metas, fresh⟩ := ticked_static leaves found still inside static given
        exact ⟨_, fresh, (tells_payload rfl rfl inType).2 means⟩
    · exact ⟨e, by rw [leaves.others (group, tag.name) own, here], tells⟩
  exact ⟨ticked, ran, leaves.orderly, by rw [leaves.adapter, running], ⟨g', found', same ▸ inside⟩,
    entry⟩

theorem ticks_keep {u : ValueU} (static : neuTagAttributeTest tag NEU_ATTRIBUTE_STATIC = true)
    (given : tag.staticValue = some u) (inType : InType tag.type value)
    (means : Denotes casts tag.type (orderBytes tag u) value)
    (keeps : Keeps casts group tag value driver)
    (ticks : List CStr) :
    ∃ ticked, ticks.foldlM readCallback driver = some ticked ∧ Keeps casts group tag value ticked := by
  have progress (driver : NeuAdapterDriver) (name : CStr) (keeps : Keeps casts group tag value driver)
      (_ : True) :
      ∃ ticked, readCallback driver name = some ticked ∧ Keeps casts group tag value ticked :=
    tick_keeps static given inType means keeps name
  exact ends_of_step progress keeps (along_trivial driver ticks)

theorem keeps_reads (static : neuTagAttributeTest tag NEU_ATTRIBUTE_STATIC = true)
    (unscaled : Ieee.binary64.isZero tag.decimal = true) (inType : InType tag.type value)
    (keeps : Keeps casts group tag value driver) : Reads casts driver group tag value := by
  obtain ⟨orderly, running, ⟨g, found, inside⟩, entry⟩ := keeps
  exact (reads_iff orderly running found inside static unscaled inType).2 entry

end

end Cpm
