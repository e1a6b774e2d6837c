import Cpm.Driver.Given
import Cpm.Driver.StaticRoundTrip

/-! A static value that comes with its tag. It is stored as it is, and a read puts its bytes into the
order that the tag's address asks for. -/
namespace Cpm

open Lib Lib.Words

def suffixOf (address : CStr) : List Char :=
  ((findLastCharacter '#' address.chars).map List.tail).getD []

/-- The bytes of the value that the suffix of the address makes change places are equal. -/
def KeepsBytes (tag : NeuDatatag) (u : ValueU) : Prop :=
  match tag.type with
  | .int16 | .uint16 => (suffixOf tag.address).head? = some 'B' → u.byte 0 = u.byte 1
  | .int32 | .uint32 | .float =>
    match suffixOf tag.address with
    | 'B' :: 'B' :: _ => u.byte 0 = u.byte 3 ∧ u.byte 1 = u.byte 2
    | 'B' :: 'L' :: _ => u.byte 0 = u.byte 2 ∧ u.byte 1 = u.byte 3
    | 'L' :: 'B' :: _ => u.byte 0 = u.byte 1 ∧ u.byte 2 = u.byte 3
    | _ => True
  | .int64 | .uint64 | .double => (suffixOf tag.address).head? = some 'B' →
      ∀ i < 4, u.byte i = u.byte (7 - i)
  | _ => True

section
variable {casts : CastOps} {tag : NeuDatatag} {value : NeuJsonValue} {u : ValueU}

theorem setEndian_endian (option : AddrOption) {n : Nat} (small : n < 256 ^ 4) :
    (option.setEndian n).endian = n := by
  have front : (option.setEndian n).window 0 4 = Block.leBlock 4 n :=
    Block.window_overlay option _ (by decide)
  rw [AddrOption.endian, front, Block.leValue_leBlock, Nat.mod_eq_of_lt small]

theorem reversed_same {len : Nat} (short : len ≤ 136) :
    Block.window (u.swapAt 0 len) 0 len = u.window 0 len ↔
      ∀ i < len, u.byte (len - 1 - i) = u.byte i := by
  rw [Block.window_eq_iff]
  refine forall₂_congr fun i inside => ?_
  rw [Block.byte_swapAt u (by omega), if_pos (by omega), Nat.zero_add, Nat.zero_add]

/-- A tag of 16 or 64 bits reverses its bytes behind `#B`. -/
theorem reversed_iff {len big little : Nat} (short : len ≤ 136) (bigSmall : big < 256 ^ 4)
    (littleSmall : little < 256 ^ 4) (apart : little ≠ big)
    (parses : (neuDatatagParseAddrOption tag).2 = tag.option.setEndian
      (if (suffixOf tag.address).head? = some 'B' then big else little)) :
    Block.window (if tag.parsed.option.endian = big then u.swapAt 0 len else u) 0 len =
        u.window 0 len ↔
      ((suffixOf tag.address).head? = some 'B' → ∀ i < len, u.byte (len - 1 - i) = u.byte i) := by
  have endian : tag.parsed.option.endian =
      if (suffixOf tag.address).head? = some 'B' then big else little := by
    rw [NeuDatatag.parsed, parses]
    apply setEndian_endian
    split
    · exact bigSmall
    · exact littleSmall
  by_cases behind : (suffixOf tag.address).head? = some 'B'
  · rw [endian, if_pos behind, if_pos rfl, reversed_same short]
    exact ⟨fun same _ => same, fun same => same behind⟩
  · rw [endian, if_neg behind, if_neg apart]
    exact iff_of_true rfl fun is => absurd is behind

theorem swap32_same (u : ValueU) (hash : List Char) :
    (swap32 u (endian32 hash)).window 0 4 = u.window 0 4 ↔
      match hash with
      | 'B' :: 'B' :: _ => u.byte 0 = u.byte 3 ∧ u.byte 1 = u.byte 2
      | 'B' :: 'L' :: _ => u.byte 0 = u.byte 2 ∧ u.byte 1 = u.byte 3
      | 'L' :: 'B' :: _ => u.byte 0 = u.byte 1 ∧ u.byte 2 = u.byte 3
      | _ => True := by
  have four (v : ValueU) : v.window 0 4 = u.window 0 4 ↔ v.byte 0 = u.byte 0 ∧
      v.byte 1 = u.byte 1 ∧ v.byte 2 = u.byte 2 ∧ v.byte 3 = u.byte 3 := by
    rw [Block.window_eq_iff]
    refine ⟨fun same => ⟨same 0 (by decide), same 1 (by decide), same 2 (by decide),
      same 3 (by decide)⟩, fun ⟨zero, one, two, three⟩ i inside => ?_⟩
    interval_cases i
    · exact zero
    · exact one
    · exact two
    · exact three
  rw [four]
  unfold endian32
  split
  · have bytes : swap32 u NEU_DATATAG_ENDIAN_BB32 = u.swapAt 0 4 := rfl
    rw [bytes]
    grind [Block.byte_swapAt]
  · have bytes : swap32 u NEU_DATATAG_ENDIAN_BL32 = ((u.swapAt 0 4).swapAt 0 2).swapAt 2 2 := rfl
    rw [bytes]
    grind [Block.byte_swapAt]
  · have bytes : swap32 u NEU_DATATAG_ENDIAN_LB32 = (u.swapAt 0 2).swapAt 2 2 := rfl
    rw [bytes]
    grind [Block.byte_swapAt]
  · have bytes : swap32 u NEU_DATATAG_ENDIAN_LL32 = u := rfl
    rw [bytes]
    simp

theorem keepsBytes_iff (tag : NeuDatatag) (u w : ValueU) :
    KeepsBytes tag u ↔
      (orderBytes tag.parsed u).window 0 (tag.type.width w) = u.window 0 (tag.type.width w) := by
  have two : (∀ i < 2, u.byte (2 - 1 - i) = u.byte i) ↔ u.byte 0 = u.byte 1 := by grind
  have eight : (∀ i < 8, u.byte (8 - 1 - i) = u.byte i) ↔ ∀ i < 4, u.byte i = u.byte (7 - i) := by
    refine ⟨fun all i inside => (all i (by omega)).symm, fun all i inside => ?_⟩
    by_cases front : i < 4
    · exact (all i front).symm
    · have mirrored := all (7 - i) (by omega)
      rwa [Nat.sub_sub_self (by omega)] at mirrored
  unfold KeepsBytes orderBytes
  rw [parsed_type]
  cases type : tag.type
  case int16 | uint16 =>
    have parses : (neuDatatagParseAddrOption tag).2 = tag.option.setEndian
        (if (suffixOf tag.address).head? = some 'B' then NEU_DATATAG_ENDIAN_B16
          else NEU_DATATAG_ENDIAN_L16) := by
      simp only [neuDatatagParseAddrOption, type]
      rfl
    rw [← two]
    exact (reversed_iff (by decide) (by decide) (by decide) (by decide) parses).symm
  case int32 | uint32 | float =>
    have parses : tag.parsed.option = tag.option.setEndian (endian32 (suffixOf tag.address)) := by
      simp only [NeuDatatag.parsed, neuDatatagParseAddrOption, type, suffixOf]
    have small : endian32 (suffixOf tag.address) < 256 ^ 4 := by
      unfold endian32
      split <;> decide
    simp only [parses, setEndian_endian _ small]
    exact (swap32_same u _).symm
  case int64 | uint64 | double =>
    have parses : (neuDatatagParseAddrOption tag).2 = tag.option.setEndian
        (if (suffixOf tag.address).head? = some 'B' then NEU_DATATAG_ENDIAN_B64
          else NEU_DATATAG_ENDIAN_L64) := by
      simp only [neuDatatagParseAddrOption, type]
      rfl
    rw [← eight]
    exact (reversed_iff (by decide) (by decide) (by decide) (by decide) parses).symm
  all_goals exact iff_of_true trivial rfl

theorem denotes_same {type : NeuType} {u u' w : ValueU} (numeric : (numKind type).isSome = true)
    (inType : InType type value) (means : Denotes casts type u value)
    (means' : Denotes casts type u' value) :
    u.window 0 (type.width w) = u'.window 0 (type.width w) := by
  have word {signed : Bool} {bytes : Nat} (same : read signed (256 ^ bytes) (u.unsigned bytes) =
      read signed (256 ^ bytes) (u'.unsigned bytes)) : u.window 0 bytes = u'.window 0 bytes := by
    have congruent := congrArg (· % ((256 ^ bytes : Nat) : Int)) same
    simp only [read_emod] at congruent
    rw [← Int.natCast_emod, ← Int.natCast_emod, Nat.mod_eq_of_lt (ValueU.unsigned_lt u bytes),
      Nat.mod_eq_of_lt (ValueU.unsigned_lt u' bytes)] at congruent
    exact Block.leValue_injective (Int.natCast_inj.1 congruent)
  cases value with
  | int n =>
    cases type
    case float => exact Block.leValue_injective (means.trans means'.symm)
    case double => exact Block.leValue_injective (means.trans means'.symm)
    all_goals first
      | exact word (means.trans means'.symm)
      | cases numeric
  | float bits | double bits =>
    obtain rfl | rfl := inType
    · exact Block.leValue_injective (means.trans means'.symm)
    · exact Block.leValue_injective (means.trans means'.symm)
  | bit n =>
    obtain ⟨rfl, _⟩ := inType
    cases numeric
  | bool b =>
    obtain rfl := inType
    cases numeric
  | str text =>
    obtain ⟨rfl, _⟩ := inType
    cases numeric
  | undefine | object _ | bytes _ => cases inType

/-- A value reads as it was stored if the bytes that change places are equal. -/
theorem configured_denotes (inType : InType tag.type value) (means : Denotes casts tag.type u value) :
    Denotes casts tag.type (orderBytes tag.parsed u) value ↔ KeepsBytes tag u := by
  rw [keepsBytes_iff tag u u]
  refine ⟨fun reads => ?_, fun same => (denotes_window inType same).2 means⟩
  by_cases numeric : (numKind tag.type).isSome = true
  · exact denotes_same numeric inType reads means
  · have plain : orderBytes tag.parsed u = u := by
      unfold orderBytes
      rw [parsed_type]
      cases type : tag.type
      all_goals first
        | rfl
        | exact absurd (by rw [type]; rfl) numeric
    rw [plain]

end

/-- The tick behind a request succeeds, and reads then say the value that was configured. -/
def ReadsConfigured (casts : CastOps) (driver : NeuAdapterDriver) (group : CStr) (tag : NeuDatatag)
    (value : NeuJsonValue) : Prop :=
  ∃ ticked, readCallback driver group = some ticked ∧ Reads casts ticked group tag value

theorem readsConfigured_parsed {casts : CastOps} {driver : NeuAdapterDriver} {group : CStr}
    {tag : NeuDatatag} {value : NeuJsonValue} :
    ReadsConfigured casts driver group tag.parsed value ↔
      ReadsConfigured casts driver group tag value := by
  unfold ReadsConfigured Reads
  rw [parsed_name, parsed_type]

/-- The tick enters the stored value if the group has changed, and otherwise leaves the entry. -/
theorem tick_reads_iff {casts : CastOps} {driver : NeuAdapterDriver} {group : CStr} {g : GroupT}
    {tag : NeuDatatag} {value : NeuJsonValue} {u : ValueU} (orderly : Orderly driver)
    (running : driver.adapter.state = .running) (found : findGroup driver group = some g)
    (held : tag ∈ g.group.tags.values)
    (static : neuTagAttributeTest tag NEU_ATTRIBUTE_STATIC = true)
    (unscaled : Ieee.binary64.isZero tag.decimal = true) (inType : InType tag.type value)
    (stored : tag.staticValue = some u) :
    ReadsConfigured casts driver group tag value ↔
      if g.group.timestamp = g.timestamp then
        ∃ e, mapOf driver.cache (group, tag.name) = some e ∧ Tells casts tag value e
      else Denotes casts tag.type (orderBytes tag u) value := by
  obtain ⟨ticked, ran, leaves⟩ := readTick_map group orderly running
  obtain ⟨g', found', same⟩ := leaves.groups group g found
  have still : ticked.adapter.state = .running := by rw [leaves.adapter, running]
  have ticks : ReadsConfigured casts driver group tag value ↔ Reads casts ticked group tag value := by
    refine ⟨fun reads => ?_, fun shown => ⟨ticked, ran, shown⟩⟩
    obtain ⟨_, again, shown⟩ := reads
    cases ran.symm.trans again
    exact shown
  rw [ticks, reads_iff leaves.orderly still found' (same ▸ held) static unscaled inType]
  by_cases unmoved : g.group.timestamp = g.timestamp
  · rw [if_pos unmoved, leaves.same g found unmoved]
  · obtain ⟨metas, entered⟩ := ticked_static leaves found unmoved held static stored
    have tells : Tells casts tag value ⟨tag.type, payload tag.type u [], tag.precision, 0, metas, false⟩ ↔
        Denotes casts tag.type (orderBytes tag u) value := tells_payload rfl rfl inType
    rw [if_neg unmoved, ← tells, entered]
    simp only [Option.some.injEq, exists_eq_left']

theorem configured_reads_iff (casts : CastOps) {driver driver' : NeuAdapterDriver}
    {group : GroupName} {given : DecodedTag} {op : GroupOp} {now : Int} {value : NeuJsonValue}
    {u : ValueU} (orderly : Orderly driver) (running : driver.adapter.state = .running)
    (gives : Gives driver group given op now) (stepped : groupStep driver op = some driver')
    (static : neuTagAttributeTest given.tag NEU_ATTRIBUTE_STATIC = true)
    (unscaled : Ieee.binary64.isZero given.tag.decimal = true)
    (inType : InType given.tag.type value)
    (configured : staticValueOf casts given.tag.type value = some u)
    (stored : given.tag.staticValue = some u) :
    ReadsConfigured casts driver' group given.tag value ↔
      if now = savedTimestamp driver group then
        ∃ e, mapOf driver.cache (group.val, given.tag.name) = some e ∧
          Tells casts given.tag.parsed value e
      else KeepsBytes given.tag u := by
  obtain ⟨orderly', adapter, cache, g, found, has, stamp, saved⟩ := gives_given orderly gives stepped
  have running' : driver'.adapter.state = .running := by rw [adapter, running]
  have held : given.tag.parsed ∈ g.group.tags.values := Table.mem_values.2 ⟨_, has⟩
  have means : Denotes casts given.tag.type u value := by
    obtain ⟨_, again, means⟩ := stored_denotes casts inType
    cases configured.symm.trans again
    exact means
  rw [← readsConfigured_parsed, tick_reads_iff orderly' running' found held static unscaled inType stored,
    stamp, saved, cache, parsed_name, parsed_type, configured_denotes inType means]

def staticSwapped (n : Nat) : DecodedTag :=
  ⟨{ staticTemp.tag with
      address := .lit "1!2#B", type := .uint16
      staticValue := some (frontOf 2 n) }, by simp⟩

def addSwapped (n : Nat) : GroupOp := .addTags accepting groupA [staticSwapped n] fun _ => 5

theorem newDriver_orderly : Orderly newDriver := by
  obtain ⟨driver, ran, orderly⟩ :=
    reached_orderly noFloats newDriver.adapter newDriver.intfFuns [] trivial
  cases ran
  exact orderly

/-- The bytes of 257 are equal. -/
theorem configured_reads_equal : ∃ driver', groupStep newDriver (addSwapped 257) = some driver' ∧
    ReadsConfigured noCasts driver' groupA (staticSwapped 257).tag (.int 257) := by
  have taken : 0 < (neuReqAddTag accepting newDriver groupA
      ([staticSwapped 257].map DecodedTag.tag) fun _ => 5).2.index := by decide +kernel
  have gives : Gives newDriver groupA (staticSwapped 257) (addSwapped 257) 5 := .added rfl taken
  have inType : InType (staticSwapped 257).tag.type (.int 257) := by
    simp only [staticSwapped, InType, numKind, InRange]
    decide
  refine ⟨_, rfl, (configured_reads_iff noCasts newDriver_orderly rfl gives rfl (by decide) (by decide)
    inType rfl rfl).2 ?_⟩
  rw [if_neg (by decide)]
  intro _
  decide +kernel

/-- 258 is read as 513. -/
theorem configured_reads_swapped : ∃ driver', groupStep newDriver (addSwapped 258) = some driver' ∧
    Gives newDriver groupA (staticSwapped 258) (addSwapped 258) 5 ∧
    InType .uint16 (.int 258) ∧
    staticValueOf noCasts .uint16 (.int 258) = (staticSwapped 258).tag.staticValue ∧
    ¬ ReadsConfigured noCasts driver' groupA (staticSwapped 258).tag (.int 258) := by
  have taken : 0 < (neuReqAddTag accepting newDriver groupA
      ([staticSwapped 258].map DecodedTag.tag) fun _ => 5).2.index := by decide +kernel
  let shown (read : ReadGroupResp) : List (CStr × Nat) :=
    read.answers.map fun d => (d.tag, d.value.value.unsigned 2)
  have answers : (groupStep newDriver (addSwapped 258)).bind (fun d =>
      (readCallback d groupA).bind fun ticked =>
        (neuAdapterDriverReadGroup noFloats ticked CStr.empty groupA 0).map shown) =
      some [(.lit "temp", 513)] := by
    decide +kernel
  refine ⟨_, rfl, .added rfl taken, ?_, rfl, ?_⟩
  · simp only [InType, numKind, InRange]
    decide
  · rintro ⟨ticked, ran, reads⟩
    obtain ⟨n, datas, read, ⟨d, member, tagged⟩, each⟩ := reads CStr.empty 0
    obtain ⟨d', stepped, further⟩ := Option.bind_eq_some_iff.1 answers
    cases stepped
    have read' : neuAdapterDriverReadGroup noFloats ticked CStr.empty groupA 0 = _ := read
    rw [ran, Option.bind_some, read', Option.map_some, Option.some.injEq] at further
    have listed : (d.tag, d.value.value.unsigned 2) ∈ shown (.group CStr.empty groupA.val n datas) :=
      List.mem_map.2 ⟨d, member, rfl⟩
    have means : ((d.value.value.unsigned 2 : Nat) : Int) % (256 ^ 2 : Nat) = 258 :=
      (each d member tagged).2
    rw [further, List.mem_singleton, Prod.mk.injEq] at listed
    rw [listed.2] at means
    exact absurd means (by decide)

end Cpm
