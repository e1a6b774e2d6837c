import Cpm.Driver.TagValue
import Cpm.Rest.Meaning
import Cpm.Rest.PutConfig

/-! What is read of the static value that a tag was accepted with. -/
namespace Cpm

open Lib Lib.Words

def neuTagGetStaticValueJson (tag : ReqTag) : Option NeuJsonValue :=
  tag.staticValue.map fun u => jsonOfStaticValue u tag.type

def StoredFaithfully (casts : CastOps) (tag : NeuJsonTag) : Prop :=
  ∃ m, tag.value.meaning = some m ∧
    (neuTagGetStaticValueJson (reqTag casts tag)).bind NeuJsonValue.meaning = some m

/-- A value of its C type: a signed integer of 64 bits, a finite number or a text of bytes. -/
def WellFormed : NeuJsonValue → Prop
  | .int n => InRange true (256 ^ 8) n
  | .float bits => bits < 2 ^ 32 ∧ Ieee.binary32.special bits = false
  | .double bits => bits < 2 ^ 64 ∧ Ieee.binary64.special bits = false
  | .str text => Bytewise text
  | _ => True

def Keepable (type : NeuType) : NeuJsonValue → Prop
  | .int n =>
    match numKind type with
    | some (.int signed bytes) => bytes = 8 ∨ InRange signed (256 ^ bytes) n
    | some .float => Ieee.binary32.Has n
    | some .double => Ieee.binary64.Has n
    | none => type = .bit ∧ InRange false 256 n
  | .float _ => type = .float ∨ type = .double
  | .double bits => type = .float ∧ Ieee.binary32.Has (Ieee.binary64.value bits) ∨ type = .double
  | .bit _ => type = .bit
  | .bool _ => type = .bool
  | .str text => type = .string ∧ text.strlen < NEU_VALUE_SIZE
  | _ => False

section
variable {casts : CastOps} {type : NeuType} {value : NeuJsonValue}

theorem read_self_iff {signed : Bool} {modulus : Nat} (positive : 0 < modulus) {k : Int} :
    read signed modulus k = k ↔ InRange signed modulus k :=
  ⟨fun same => same ▸ read_range positive signed k, read_self positive⟩

/-- All types of 64 bits are read as signed. -/
theorem int_stored (casts : CastOps) {signed : Bool} {bytes : Nat}
    (kind : numKind type = some (.int signed bytes)) (n : Int) :
    ∃ u, staticValueOf casts type (.int n) = some u ∧
      jsonOfStaticValue u type = .int (read (signed || bytes = 8) (256 ^ bytes) n) := by
  cases type
  case uint8 | uint16 | word | uint32 | dword =>
    cases kind
    exact ⟨_, rfl, congrArg NeuJsonValue.int (frontOf_read (by decide) (by decide) n).1⟩
  case int8 | int16 | int32 | int64 | uint64 | lword =>
    cases kind
    exact ⟨_, rfl, congrArg NeuJsonValue.int (frontOf_read (by decide) (by decide) n).2⟩
  all_goals cases kind

theorem cast_represents {f : Ieee} (bytes : Nat) {cast : Nat} {q : Rat}
    (whole : 256 ^ bytes = 2 ^ (f.fracBits + f.expBits + 1))
    (exact : f.Has q → f.Represents cast q) :
    finiteMeaning f (cast % 256 ^ bytes) = some (.number q) ↔ f.Has q := by
  have small : cast % 256 ^ bytes < 2 ^ (f.fracBits + f.expBits + 1) :=
    whole ▸ Nat.mod_lt _ (Nat.pow_pos (by decide))
  rw [finiteMeaning_iff small]
  refine ⟨fun represents => ⟨_, represents⟩, fun has => ?_⟩
  have represents := exact has
  rwa [Nat.mod_eq_of_lt (whole ▸ represents.1)]

def ReadsAs (casts : CastOps) (type : NeuType) (value : NeuJsonValue) (m : Meaning) : Prop :=
  ((staticValueOf casts type value).map (jsonOfStaticValue · type)).bind NeuJsonValue.meaning = some m

theorem readsAs_float {cast : Nat} {q : Rat}
    (stored : staticValueOf casts .float value = some (frontOf 4 cast))
    (exact : Ieee.binary32.Has q → Ieee.binary32.Represents cast q) :
    ReadsAs casts .float value (.number q) ↔ Ieee.binary32.Has q := by
  have reads : (frontOf 4 cast).f32 = cast % 256 ^ 4 := frontOf_unsigned 4 (by decide) cast
  unfold ReadsAs
  simp only [stored, Option.map_some, jsonOfStaticValue, Option.bind_some, NeuJsonValue.meaning, reads]
  exact cast_represents 4 (by decide) exact

theorem readsAs_double {cast : Nat} {q : Rat}
    (stored : staticValueOf casts .double value = some (frontOf 8 cast))
    (exact : Ieee.binary64.Has q → Ieee.binary64.Represents cast q) :
    ReadsAs casts .double value (.number q) ↔ Ieee.binary64.Has q := by
  have reads : (frontOf 8 cast).d64 = cast % 256 ^ 8 := frontOf_unsigned 8 (by decide) cast
  unfold ReadsAs
  simp only [stored, Option.map_some, jsonOfStaticValue, Option.bind_some, NeuJsonValue.meaning, reads]
  exact cast_represents 8 (by decide) exact

theorem int_keeps (exact : ExactCasts casts) {n : Int} (wellFormed : WellFormed (.int n)) :
    ReadsAs casts type (.int n) (.number n) ↔ Keepable type (.int n) := by
  cases kind : numKind type with
  | none =>
    simp only [Keepable, kind]
    cases type
    case bit =>
      have stored : staticValueOf casts .bit (.int n) = some (frontOf 1 (n % 2 ^ 8).toNat) := rfl
      have reads : ((frontOf 1 (n % 2 ^ 8).toNat).unsigned 1 : Int) = read false 256 n :=
        (frontOf_read (by decide) (by decide) n).1
      unfold ReadsAs
      simp only [stored, Option.map_some, jsonOfStaticValue, Option.bind_some, NeuJsonValue.meaning,
        reads, Option.some.injEq, Meaning.number.injEq, Int.cast_inj, true_and]
      exact read_self_iff (by decide)
    case bool | string | bytes | error | ptr | unlisted =>
      exact iff_of_false (fun reads => by cases reads) fun bit => by cases bit.1
    all_goals cases kind
  | some kind' =>
    simp only [Keepable, kind]
    cases kind' with
    | int signed bytes =>
      obtain ⟨u, stored, reads⟩ := int_stored casts kind n
      have positive : 0 < 256 ^ bytes := Nat.pow_pos (by decide)
      unfold ReadsAs
      simp only [stored, Option.map_some, reads, Option.bind_some, NeuJsonValue.meaning,
        Option.some.injEq, Meaning.number.injEq, Int.cast_inj]
      rw [read_self_iff positive]
      by_cases long : bytes = 8
      · subst long
        simp only [decide_true, Bool.or_true, true_or, iff_true]
        exact wellFormed
      · simp only [long, decide_false, Bool.or_false, false_or]
    | float =>
      have type : type = .float := by cases type <;> first | rfl | cases kind
      subst type
      exact readsAs_float rfl (exact.intToFloat n)
    | double =>
      have type : type = .double := by cases type <;> first | rfl | cases kind
      subst type
      exact readsAs_double rfl (exact.ofInt n)

theorem float_keeps (exact : ExactCasts casts) {bits : Nat} (wellFormed : WellFormed (.float bits)) :
    ReadsAs casts type (.float bits) (.number (Ieee.binary32.value bits)) ↔
      Keepable type (.float bits) := by
  obtain ⟨small, finite⟩ := wellFormed
  have represents : Ieee.binary32.Represents bits (Ieee.binary32.value bits) := ⟨small, finite, rfl⟩
  simp only [Keepable]
  cases type
  case float =>
    refine iff_of_true ?_ (.inl rfl)
    exact (readsAs_float rfl fun _ => represents).2 ⟨_, represents⟩
  case double =>
    refine iff_of_true ?_ (.inr rfl)
    have long := exact.ofFloat bits _ represents
    exact (readsAs_double rfl fun _ => long).2 ⟨_, long⟩
  all_goals exact iff_of_false (fun reads => by cases reads) (by simp)

theorem double_keeps (exact : ExactCasts casts) {bits : Nat} (wellFormed : WellFormed (.double bits)) :
    ReadsAs casts type (.double bits) (.number (Ieee.binary64.value bits)) ↔
      Keepable type (.double bits) := by
  obtain ⟨small, finite⟩ := wellFormed
  have represents : Ieee.binary64.Represents bits (Ieee.binary64.value bits) := ⟨small, finite, rfl⟩
  simp only [Keepable]
  cases type
  case float =>
    simp only [true_and, reduceCtorEq, or_false]
    exact readsAs_float rfl (exact.toFloat bits _ represents)
  case double =>
    refine iff_of_true ?_ (.inr rfl)
    exact (readsAs_double rfl fun _ => represents).2 ⟨_, represents⟩
  all_goals exact iff_of_false (fun reads => by cases reads) (by simp)

theorem bool_keeps (b : Bool) :
    ReadsAs casts type (.bool b) (.boolean b) ↔ Keepable type (.bool b) := by
  simp only [ReadsAs, Keepable, staticValueOf]
  by_cases bool : type = .bool
  · subst bool
    have zero : (frontOf 1 0).unsigned 1 = 0 := frontOf_unsigned 1 (by decide) 0
    have one : (frontOf 1 1).unsigned 1 = 1 := frontOf_unsigned 1 (by decide) 1
    refine iff_of_true ?_ rfl
    cases b
    · exact congrArg (fun n : Nat => some (Meaning.boolean (n ≠ 0))) zero
    · exact congrArg (fun n : Nat => some (Meaning.boolean (n ≠ 0))) one
  · rw [if_neg bool]
    exact iff_of_false (fun reads => by cases reads) bool

/-- The room for a text is one byte shorter than the check allows. -/
theorem str_keeps {text : CStr} (bytewise : Bytewise text) :
    ReadsAs casts type (.str text) (.text text) ↔ Keepable type (.str text) := by
  simp only [ReadsAs, Keepable, staticValueOf]
  by_cases string : type = .string
  · subst string
    simp only [if_true, Option.map_some, jsonOfStaticValue, Option.bind_some, NeuJsonValue.meaning,
      strOf_strValue bytewise, Option.some.injEq, Meaning.text.injEq, true_and]
    have kept : CStr.shortened text = text ↔ text.chars.length ≤ NEU_VALUE_SIZE - 1 := by
      cases text
      simp only [CStr.shortened, CStr.mk.injEq, List.take_eq_self_iff]
    exact kept.trans (Nat.lt_iff_le_pred (by decide)).symm
  · rw [if_neg string]
    exact iff_of_false (fun reads => by cases reads) fun keeps => string keeps.1

theorem bit_keeps (n : UInt8) :
    ReadsAs casts type (.bit n) (.number n.toNat) ↔ Keepable type (.bit n) := by
  simp only [ReadsAs, Keepable, staticValueOf]
  by_cases bit : type = .bit
  · subst bit
    have low : (frontOf 1 n.toNat).unsigned 1 = n.toNat := by
      have small := n.toNat_lt
      rw [frontOf_unsigned 1 (by decide)]
      omega
    exact iff_of_true (congrArg (fun n : Nat => some (Meaning.number n)) low) rfl
  · rw [if_neg bit]
    exact iff_of_false (fun reads => by cases reads) bit

theorem fitting_keeps (exact : ExactCasts casts) (wellFormed : WellFormed value) :
    (∃ m, value.meaning = some m ∧ ReadsAs casts type value m) ↔ Keepable type value := by
  cases value with
  | int n => simpa [NeuJsonValue.meaning] using int_keeps exact wellFormed
  | float bits =>
    have meaning : (NeuJsonValue.float bits).meaning = some (.number (Ieee.binary32.value bits)) :=
      (finiteMeaning_iff wellFormed.1 _).2 ⟨wellFormed.1, wellFormed.2, rfl⟩
    simpa [meaning] using float_keeps exact wellFormed
  | double bits =>
    have meaning : (NeuJsonValue.double bits).meaning = some (.number (Ieee.binary64.value bits)) :=
      (finiteMeaning_iff wellFormed.1 _).2 ⟨wellFormed.1, wellFormed.2, rfl⟩
    simpa [meaning] using double_keeps exact wellFormed
  | bool b => simpa [NeuJsonValue.meaning] using bool_keeps b
  | str text => simpa [NeuJsonValue.meaning] using str_keeps wellFormed
  | bit n => simpa [NeuJsonValue.meaning] using bit_keeps n
  | undefine | object _ | bytes _ => simp [ReadsAs, Keepable, staticValueOf, NeuJsonValue.meaning]

end

/-- This is so whether or not the check lets the value pass. -/
theorem static_faithful {casts : CastOps} (exact : ExactCasts casts) {tag : NeuJsonTag}
    (static : isStaticAttribute tag.attributes = true) (wellFormed : WellFormed tag.value) :
    StoredFaithfully casts tag ↔ Keepable (storedType tag.type) tag.value := by
  have reads (m : Meaning) :
      (neuTagGetStaticValueJson (reqTag casts tag)).bind NeuJsonValue.meaning = some m ↔
        ReadsAs casts (storedType tag.type) tag.value m := by
    simp only [neuTagGetStaticValueJson, reqTag, if_pos static, ReadsAs]
  simp only [StoredFaithfully, reads]
  exact fitting_keeps exact wellFormed

def staticJsonTag (type : NeuType) (value : NeuJsonValue) : NeuJsonTag where
  address := .lit "1!400001"
  name := .lit "limit"
  description := none
  type := type.code
  attributes := NEU_ATTRIBUTE_READ + NEU_ATTRIBUTE_STATIC
  precision := 0
  decimal := 0
  value := value

theorem static_faithful_float :
    StoredFaithfully ieeeCasts (staticJsonTag .float (.double 0x3FF8000000000000)) ↔
      Keepable .float (.double 0x3FF8000000000000) := by
  have kept : StoredFaithfully ieeeCasts (staticJsonTag .float (.double 0x3FF8000000000000)) ↔
      Keepable (storedType NeuType.float.code) (.double 0x3FF8000000000000) :=
    static_faithful ieeeCasts_exact (by decide) ⟨by decide, by decide⟩
  rwa [storedType_code] at kept

/-- 300 is accepted for a tag of 8 bits, which then has 44. -/
theorem static_wraps : neuJsonTagCheckType (staticJsonTag .int8 (.int 300)) = true ∧
    neuTagGetStaticValueJson (reqTag ieeeCasts (staticJsonTag .int8 (.int 300))) = some (.int 44) ∧
    ¬ StoredFaithfully ieeeCasts (staticJsonTag .int8 (.int 300)) := by
  have low : (frontOf 1 (300 % 2 ^ 8 : Int).toNat).signed 1 = 44 := by decide
  have reads : neuTagGetStaticValueJson (reqTag ieeeCasts (staticJsonTag .int8 (.int 300))) =
      some (.int 44) := congrArg (fun n => some (NeuJsonValue.int n)) low
  refine ⟨rfl, reads, ?_⟩
  rintro ⟨m, meaning, read⟩
  rw [reads, Option.bind_some, ← meaning] at read
  simp only [staticJsonTag, NeuJsonValue.meaning, Option.some.injEq, Meaning.number.injEq,
    Int.cast_inj] at read
  omega

end Cpm
