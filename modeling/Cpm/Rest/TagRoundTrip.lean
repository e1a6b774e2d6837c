import Cpm.Rest.TagJson
import Mathlib.Data.Nat.Bitwise

/-! One tag, encoded and decoded: what the decoder finds, and when it takes it. -/
namespace Cpm

open Lib

/- Stored values. -/

def frontOf (bytes n : Nat) : ValueU := Block.zero.overlay 0 (Block.leBlock bytes n)

theorem frontOf_unsigned (bytes : Nat) (fits : bytes ≤ 136) (n : Nat) :
    (frontOf bytes n).unsigned bytes = n % 256 ^ bytes := by
  rw [ValueU.unsigned, frontOf, Block.window_overlay _ _ (by omega), Block.leValue_leBlock]

theorem frontOf_mod (bytes n : Nat) : frontOf bytes (n % 256 ^ bytes) = frontOf bytes n := by
  rw [frontOf, Block.leBlock_mod, frontOf]

section
variable (bytes : Nat) {modulus : Int}

theorem frontOf_unsigned_stored (fits : bytes ≤ 136) (whole : modulus = (256 ^ bytes : Nat)) (n : Nat) :
    frontOf bytes (((frontOf bytes n).unsigned bytes : Int) % modulus).toNat = frontOf bytes n := by
  rw [frontOf_unsigned bytes fits, whole, ← Int.natCast_emod, Nat.mod_mod, Int.toNat_natCast,
    frontOf_mod]

theorem frontOf_signed_stored (fits : bytes ≤ 136) (whole : modulus = (256 ^ bytes : Nat)) (n : Nat) :
    frontOf bytes ((frontOf bytes n).signed bytes % modulus).toNat = frontOf bytes n := by
  have reads : (frontOf bytes n).signed bytes =
      ((frontOf bytes n).unsigned bytes : Int).bmod (256 ^ bytes) := rfl
  rw [reads, whole, Int.bmod_emod, ← whole]
  exact frontOf_unsigned_stored bytes fits whole n

end

section
variable {j : Jansson} {casts : CastOps}

theorem intValue_read {type : NeuType} {n : Int} {u : ValueU} (float : type ≠ .float)
    (double : type ≠ .double) (stored : intValue casts n type = some u) :
    ∃ m, jsonOfStaticValue u type = .int m ∧ intValue casts m type = some u := by
  cases type with
  | float => exact absurd rfl float
  | double => exact absurd rfl double
  | bool | string | bytes | error | ptr | unlisted => cases stored
  | bit | uint8 =>
    cases stored
    exact ⟨_, rfl, congrArg some (frontOf_unsigned_stored 1 (by decide) (by decide) _)⟩
  | int8 =>
    cases stored
    exact ⟨_, rfl, congrArg some (frontOf_signed_stored 1 (by decide) (by decide) _)⟩
  | word | uint16 =>
    cases stored
    exact ⟨_, rfl, congrArg some (frontOf_unsigned_stored 2 (by decide) (by decide) _)⟩
  | int16 =>
    cases stored
    exact ⟨_, rfl, congrArg some (frontOf_signed_stored 2 (by decide) (by decide) _)⟩
  | dword | uint32 =>
    cases stored
    exact ⟨_, rfl, congrArg some (frontOf_unsigned_stored 4 (by decide) (by decide) _)⟩
  | int32 =>
    cases stored
    exact ⟨_, rfl, congrArg some (frontOf_signed_stored 4 (by decide) (by decide) _)⟩
  | int64 | lword | uint64 =>
    cases stored
    exact ⟨_, rfl, congrArg some (frontOf_signed_stored 8 (by decide) (by decide) _)⟩
end
def Bytewise (text : CStr) : Prop := ∀ c ∈ text.chars, c.toNat < 256

theorem bytewise_char {c : Char} (small : c.toNat < 256) : Char.ofNat c.toNat.toUInt8.toNat = c := by
  have byte : c.toNat.toUInt8.toNat = c.toNat := Nat.mod_eq_of_lt small
  rw [byte, Char.ofNat_toNat]

def CStr.shortened (text : CStr) : CStr :=
  ⟨text.chars.take (NEU_VALUE_SIZE - 1), fun inside => text.noNul (List.mem_of_mem_take inside)⟩

theorem strOf_strValue {text : CStr} (bytewise : Bytewise text) :
    strOf (strValue text) = CStr.shortened text := by
  have short : ((text.chars.take (NEU_VALUE_SIZE - 1)).map fun c => c.toNat.toUInt8).length ≤
      NEU_VALUE_SIZE := by
    simp [NEU_VALUE_SIZE]
  have back : ((text.chars.take (NEU_VALUE_SIZE - 1)).map fun c => c.toNat.toUInt8).map
      (fun b => Char.ofNat b.toNat) = text.chars.take (NEU_VALUE_SIZE - 1) := by
    rw [List.map_map]
    conv_rhs => rw [← List.map_id (text.chars.take (NEU_VALUE_SIZE - 1))]
    apply List.map_congr_left
    intro c inside
    exact bytewise_char (bytewise c (List.mem_of_mem_take inside))
  have zeros (k : Nat) : (List.replicate k (0 : UInt8)).map (fun b => Char.ofNat b.toNat) =
      List.replicate k '\x00' := List.map_replicate
  rw [strOf, strValue, Block.ofList_window (by decide) short, List.map_append, back, zeros,
    List.length_map]
  exact CStr.read_field NEU_VALUE_SIZE (CStr.shortened text)

theorem strValue_strOf {text : CStr} (bytewise : Bytewise text) :
    strValue (strOf (strValue text)) = strValue text := by
  rw [strOf_strValue bytewise, strValue, CStr.shortened, List.take_take, min_self, strValue]

theorem strOf_short (u : ValueU) : (strOf u).strlen ≤ NEU_VALUE_SIZE := by
  have long : ((u.window 0 NEU_VALUE_SIZE).toList.map fun b => Char.ofNat b.toNat).length =
      NEU_VALUE_SIZE := by
    simp [Block.toList]
  rw [← long]
  exact (List.takeWhile_sublist _).length_le

/- JSON of single values. -/

def readBack (j : Jansson) (casts : CastOps) (value : NeuJsonValue) : Decoded NeuJsonValue :=
  match elementJson j casts value with
  | none => .ok .undefine
  | some json => decodeAs casts json (resolved .undefine json)

section
variable {j : Jansson} {casts : CastOps}

theorem readBack_int (n : Int) : readBack j casts (.int n) = .ok (.int n) := rfl

theorem readBack_bool (b : Bool) : readBack j casts (.bool b) = .ok (.bool b) := by
  cases b <;> rfl

theorem readBack_str (text : CStr) :
    readBack j casts (.str text) = .ok (if j.utf8 text then .str text else .undefine) := by
  cases plain : j.utf8 text with
  | false => simp [readBack, elementJson, jsonString, plain]
  | true => simp [readBack, elementJson, jsonString, plain, resolved, decodeAs, jsonStringValue]

theorem readBack_double {bits : Nat} (small : bits < 2 ^ 64) : readBack j casts (.double bits) =
    .ok (if Ieee.binary64.special bits then .undefine else .double bits) := by
  have whole : (UInt64.ofNat bits).toNat = bits := UInt64.toNat_ofNat_of_lt' small
  cases special : Ieee.binary64.special bits with
  | true => simp [readBack, elementJson, jsonReal, special]
  | false =>
    simp [readBack, elementJson, jsonReal, special, resolved, decodeAs, jsonRealValue, whole]

/-- A number of the shorter format comes back in the longer one. -/
theorem readBack_float {bits : Nat} (small : casts.ofFloat bits < 2 ^ 64) :
    readBack j casts (.float bits) = .ok (if Ieee.binary64.special (casts.ofFloat bits) then .undefine
      else .double (casts.ofFloat bits)) :=
  readBack_double (j := j) small

end

/- What a static tag gives back. -/

def NeuDatatag.isStatic (tag : NeuDatatag) : Bool := neuTagAttributeTest tag NEU_ATTRIBUTE_STATIC

theorem isStatic_attribute (tag : NeuDatatag) : isStaticAttribute tag.attributes = tag.isStatic := by
  have low : ((tag.attributes : Int) % 2 ^ 64).toNat = tag.attributes % 2 ^ 64 := by omega
  have bit (n : Nat) : n &&& NEU_ATTRIBUTE_STATIC = (n.testBit 3).toNat * 2 ^ 3 := Nat.and_two_pow n 3
  rw [isStaticAttribute, low, NeuDatatag.isStatic, neuTagAttributeTest, bit, bit,
    Nat.testBit_mod_two_pow]
  cases tag.attributes.testBit 3 <;> rfl

/-- Whether the value that a static tag of the type holds has JSON that the decoder takes. -/
def valueRestorable (j : Jansson) (casts : CastOps) : NeuType → Option ValueU → Bool
  | .bytes, _ => false
  | .error, _ | .ptr, _ | .unlisted _, _ => true
  | _, none => false
  | .float, some u => !Ieee.binary64.special (casts.ofFloat u.f32)
  | .double, some u => !Ieee.binary64.special u.d64
  | .string, some u => j.utf8 (strOf u)
  | _, _ => true

/-- A short number is a long one, and is cut back to itself. -/
structure CastLaws (casts : CastOps) : Prop where
  wide : ∀ f, casts.ofFloat f < 2 ^ 64
  exact : ∀ f < 2 ^ 32, Ieee.binary64.special (casts.ofFloat f) = false →
    casts.toFloat (casts.ofFloat f) = f

section
variable {j : Jansson} {casts : CastOps}

def heldValue (type : NeuType) (held : Option ValueU) : NeuJsonValue :=
  (held.map fun u => jsonOfStaticValue u type).getD .undefine

def ReadsBack (j : Jansson) (casts : CastOps) (type : NeuType) (held : Option ValueU) : Prop :=
  ∃ read, readBack j casts (heldValue type held) = .ok read ∧
    fitsStatic read (some type) = valueRestorable j casts type held ∧
    (valueRestorable j casts type held = true → staticValueOf casts type read = held)

theorem int_readsBack {type : NeuType} {n : Int} {u : ValueU} (float : type ≠ .float)
    (double : type ≠ .double) (stored : intValue casts n type = some u) :
    ReadsBack j casts type (some u) := by
  obtain ⟨m, shown, same⟩ := intValue_read float double stored
  refine ⟨.int m, ?_, ?_, fun _ => same⟩
  · rw [heldValue, Option.map_some, shown]
    exact readBack_int m
  · cases type with
    | float => exact absurd rfl float
    | double => exact absurd rfl double
    | bool | string | bytes | error | ptr | unlisted => cases stored
    | _ => rfl

theorem float_readsBack (laws : CastLaws casts) (n : Nat) :
    ReadsBack j casts .float (some (frontOf 4 n)) := by
  have front : (frontOf 4 n).f32 = n % 2 ^ 32 := frontOf_unsigned 4 (by decide) n
  refine ⟨_, readBack_float (laws.wide (frontOf 4 n).f32), ?_, ?_⟩
  · cases special : Ieee.binary64.special (casts.ofFloat (frontOf 4 n).f32) <;>
      simp [valueRestorable, special, fitsStatic, NeuJsonValue.isNumber]
  · intro finite
    have plain : Ieee.binary64.special (casts.ofFloat (frontOf 4 n).f32) = false := by
      simpa [valueRestorable] using finite
    have small : (frontOf 4 n).f32 < 2 ^ 32 := by omega
    have same : staticValueOf casts .float (.double (casts.ofFloat (frontOf 4 n).f32)) =
        some (frontOf 4 (casts.toFloat (casts.ofFloat (frontOf 4 n).f32))) := rfl
    rw [if_neg (by simp [plain]), same, laws.exact _ small plain, front]
    exact congrArg some (frontOf_mod 4 n)

theorem double_readsBack (n : Nat) : ReadsBack j casts .double (some (frontOf 8 n)) := by
  have front : (frontOf 8 n).d64 = n % 2 ^ 64 := frontOf_unsigned 8 (by decide) n
  have small : (frontOf 8 n).d64 < 2 ^ 64 := by omega
  refine ⟨_, readBack_double small, ?_, ?_⟩
  · cases special : Ieee.binary64.special (frontOf 8 n).d64 <;>
      simp [valueRestorable, special, fitsStatic, NeuJsonValue.isNumber]
  · intro finite
    have plain : Ieee.binary64.special (frontOf 8 n).d64 = false := by
      simpa [valueRestorable] using finite
    have same : staticValueOf casts .double (.double (frontOf 8 n).d64) =
        some (frontOf 8 (frontOf 8 n).d64) := rfl
    rw [if_neg (by simp [plain]), same, front]
    exact congrArg some (frontOf_mod 8 n)

theorem string_readsBack {text : CStr} (bytewise : Bytewise text) :
    ReadsBack j casts .string (some (strValue text)) := by
  have short := strOf_short (strValue text)
  refine ⟨_, readBack_str (strOf (strValue text)), ?_, ?_⟩
  · cases plain : j.utf8 (strOf (strValue text)) <;>
      simp [valueRestorable, plain, fitsStatic, NeuJsonValue.isShortText, short]
  · intro plain
    have legible : j.utf8 (strOf (strValue text)) = true := plain
    rw [if_pos legible]
    exact congrArg some (strValue_strOf bytewise)

theorem bool_readsBack (b : Bool) : ReadsBack j casts .bool (some (frontOf 1 b.toNat)) := by
  have front : (frontOf 1 b.toNat).unsigned 1 = b.toNat := by
    rw [frontOf_unsigned 1 (by decide)]
    cases b <;> rfl
  have shown : jsonOfStaticValue (frontOf 1 b.toNat) .bool = .bool b := by
    simp only [jsonOfStaticValue, front]
    cases b <;> rfl
  refine ⟨.bool b, ?_, rfl, fun _ => rfl⟩
  rw [heldValue, Option.map_some, shown]
  exact readBack_bool b

theorem float_taken {given : NeuJsonValue} {value : ValueU}
    (taken : staticValueOf casts .float given = some value) : ∃ n, value = frontOf 4 n := by
  cases given with
  | int n => exact ⟨_, (Option.some.inj taken).symm⟩
  | float f => exact ⟨_, (Option.some.inj taken).symm⟩
  | double d => exact ⟨_, (Option.some.inj taken).symm⟩
  | _ => cases taken

theorem double_taken {given : NeuJsonValue} {value : ValueU}
    (taken : staticValueOf casts .double given = some value) : ∃ n, value = frontOf 8 n := by
  cases given with
  | int n => exact ⟨_, (Option.some.inj taken).symm⟩
  | float f => exact ⟨_, (Option.some.inj taken).symm⟩
  | double d => exact ⟨_, (Option.some.inj taken).symm⟩
  | _ => cases taken

theorem bit_taken {b : UInt8} {value : ValueU}
    (taken : staticValueOf casts .bit (.bit b) = some value) :
    intValue casts b.toNat .bit = some value := by
  have byte := b.toNat_lt
  have whole : ((b.toNat : Int) % 2 ^ 8).toNat = b.toNat := by omega
  rw [intValue, whole]
  exact taken

theorem accepted_readsBack (laws : CastLaws casts) {type : NeuType} {given : NeuJsonValue}
    {value : ValueU} (taken : staticValueOf casts type given = some value)
    (bytewise : ∀ text, given = .str text → Bytewise text) :
    ReadsBack j casts type (some value) := by
  cases type with
  | float =>
    obtain ⟨n, same⟩ := float_taken taken
    rw [same]
    exact float_readsBack laws n
  | double =>
    obtain ⟨n, same⟩ := double_taken taken
    rw [same]
    exact double_readsBack n
  | bool =>
    cases given with
    | bool b =>
      cases taken
      exact bool_readsBack b
    | _ => cases taken
  | string =>
    cases given with
    | str text =>
      cases taken
      exact string_readsBack (bytewise text rfl)
    | _ => cases taken
  | bytes | error | ptr | unlisted => cases given <;> cases taken
  | bit =>
    cases given with
    | int n => exact int_readsBack (n := n) (by decide) (by decide) taken
    | bit b => exact int_readsBack (by decide) (by decide) (bit_taken taken)
    | _ => cases taken
  | _ =>
    cases given with
    | int n => exact int_readsBack (n := n) (by decide) (by decide) taken
    | _ => cases taken

/-- A tag of a type that the check knows is refused without its value. -/
theorem unset_readsBack (type : NeuType) : ReadsBack j casts type none :=
  ⟨.undefine, rfl, by cases type <;> rfl, fun _ => rfl⟩

theorem stored_readsBack (laws : CastLaws casts) {type : NeuType} {value : NeuJsonValue}
    (bytewise : ∀ text, value = .str text → Bytewise text) :
    ReadsBack j casts type (staticValueOf casts type value) := by
  cases taken : staticValueOf casts type value with
  | none => exact unset_readsBack type
  | some held => exact accepted_readsBack laws taken bytewise

end

/- The tag. -/

section
variable {j : Jansson} {casts : CastOps}

/-- The texts of a tag are UTF-8, and its decimal is a number. -/
structure PlainTag (j : Jansson) (tag : NeuJsonTag) : Prop where
  named : j.utf8 tag.name = true
  addressed : j.utf8 tag.address = true
  described : ∃ text, tag.description = some text ∧ j.utf8 text = true
  small : tag.decimal < 2 ^ 64
  finite : Ieee.binary64.special tag.decimal = false

def plainMembers (tag : NeuJsonTag) (description : CStr) : List (String × Json) :=
  [("type", .integer tag.type), ("name", .string tag.name), ("attribute", .integer tag.attributes),
    ("precision", .integer tag.precision), ("decimal", .real (UInt64.ofNat tag.decimal)),
    ("address", .string tag.address), ("description", .string description)]

theorem encodeTag_members {tag : NeuJsonTag} {description : CStr} (plain : PlainTag j tag)
    (described : tag.description = some description) (legible : j.utf8 description = true) :
    neuJsonEncodeTag j casts tag =
      encodeObject j casts (.object (plainMembers tag description)) (.own "value", tag.value) := by
  simp [neuJsonEncodeTag, neuJsonEncodeEntry, neuJsonEncodeField, encodeObject, elementJson,
    jsonString, jsonReal, setMember, plainMembers, plain.named, plain.addressed,
    plain.finite, described, legible]

theorem encodeTag_decoded {tag : NeuJsonTag} {value : NeuJsonValue} (plain : PlainTag j tag)
    (read : readBack j casts tag.value = .ok value) :
    neuJsonDecodeTagJson casts (some (neuJsonEncodeTag j casts tag)) =
      if neuJsonTagCheckType { tag with value := value } then .ok { tag with value := value }
      else .error .failed := by
  obtain ⟨description, described, legible⟩ := plain.described
  have whole : (UInt64.ofNat tag.decimal).toNat = tag.decimal :=
    UInt64.toNat_ofNat_of_lt' plain.small
  rw [encodeTag_members plain described legible]
  cases json : elementJson j casts tag.value with
  | none =>
    have missing : value = .undefine := by simpa [readBack, json] using read.symm
    subst missing
    simp [encodeObject, json, neuJsonDecodeTagJson, neuJsonDecodeByJson, tagElems,
      decodeObject, jsonObjectGet, List.lookup_cons, plainMembers, whole, intOf, doubleOf,
      textOf, described]
    rfl
  | some encoded =>
    have again : decodeAs casts encoded (resolved .undefine encoded) = .ok value := by
      simpa [readBack, json] using read
    simp [encodeObject, json, neuJsonDecodeTagJson, neuJsonDecodeByJson, tagElems,
      decodeObject, jsonObjectGet, List.lookup_cons, setMember, plainMembers, whole, intOf, doubleOf,
      textOf, described, again]
    rfl

end

/-- The value of a static tag is what a request set; a number beyond 32 bits for its type was
accepted without a check. -/
def Created (casts : CastOps) (tag : NeuDatatag) : Prop :=
  tag.isStatic = true → ∃ value, tag.staticValue = staticValueOf casts tag.type value ∧
    ∀ text, value = .str text → Bytewise text

def restorable (j : Jansson) (casts : CastOps) (tag : NeuDatatag) : Bool :=
  !tag.isStatic || valueRestorable j casts tag.type tag.staticValue

/-- The decoded tag says of each field what the tag has, and its value, where the tag is static, is
stored as the tag stores it. -/
structure SameTag (casts : CastOps) (tag : NeuDatatag) (read : NeuJsonTag) : Prop where
  name : read.name = tag.name
  address : read.address = tag.address
  description : read.description = some tag.description
  type : read.type = tag.type.code
  attributes : read.attributes = tag.attributes
  precision : read.precision = tag.precision.toNat
  decimal : read.decimal = tag.decimal
  value : if tag.isStatic then staticValueOf casts tag.type read.value = tag.staticValue
    else read.value = .undefine

section
variable {j : Jansson} {casts : CastOps} {tag : NeuDatatag}

/-- A number without a type is checked like a type without a check. -/
theorem fitsStatic_code (value : NeuJsonValue) (type : NeuType) :
    fitsStatic value (neuTypeOf type.code) = fitsStatic value (some type) := by
  rw [neuTypeOf_code]
  cases type <;> rfl

theorem check_static (static : tag.isStatic = true) (value : NeuJsonValue) :
    neuJsonTagCheckType { jsonTagOf tag with value } = fitsStatic value (some tag.type) := by
  have marked : isStaticAttribute (jsonTagOf tag).attributes = true := by
    rw [← static]
    exact isStatic_attribute tag
  rw [neuJsonTagCheckType, if_pos marked]
  exact fitsStatic_code value tag.type

theorem jsonTagOf_value (tag : NeuDatatag) :
    (jsonTagOf tag).value = if tag.isStatic then heldValue tag.type tag.staticValue else .undefine := by
  cases static : tag.isStatic with
  | false =>
    have unset : neuTagGetStaticValue tag = none := if_neg (by simpa [NeuDatatag.isStatic] using static)
    simp [jsonTagOf, unset]
  | true =>
    have held : neuTagGetStaticValue tag = tag.staticValue := if_pos static
    rw [jsonTagOf, held, heldValue, if_pos rfl]
    cases tag.staticValue <;> rfl

/-- The value of a tag is read, and the check then is the question whether it can be restored. -/
theorem tag_read (laws : CastLaws casts) (created : Created casts tag) :
    ∃ value, readBack j casts (jsonTagOf tag).value = .ok value ∧
      neuJsonTagCheckType { jsonTagOf tag with value } = restorable j casts tag ∧
      (restorable j casts tag = true →
        if tag.isStatic then staticValueOf casts tag.type value = tag.staticValue
        else value = .undefine) := by
  rw [jsonTagOf_value]
  cases static : tag.isStatic with
  | false =>
    refine ⟨.undefine, rfl, ?_, fun _ => rfl⟩
    have marked : isStaticAttribute (jsonTagOf tag).attributes = false := by
      rw [← static]
      exact isStatic_attribute tag
    rw [neuJsonTagCheckType, if_neg (by rw [marked]; decide), restorable, static]
    rfl
  | true =>
    obtain ⟨value, stored, bytewise⟩ := created static
    obtain ⟨read, decoded, checked, same⟩ := stored_readsBack (j := j) laws bytewise
    have whole : restorable j casts tag = valueRestorable j casts tag.type tag.staticValue := by
      rw [restorable, static]
      rfl
    rw [← stored, ← whole] at same checked
    refine ⟨read, ?_, ?_, same⟩
    · rw [if_pos rfl, stored]
      exact decoded
    · rw [check_static static]
      exact checked

theorem tag_restored (laws : CastLaws casts) (plain : PlainTag j (jsonTagOf tag))
    (created : Created casts tag) (good : restorable j casts tag = true) :
    ∃ read, neuJsonDecodeTagJson casts (some (neuJsonEncodeTag j casts (jsonTagOf tag))) = .ok read ∧
      SameTag casts tag read := by
  obtain ⟨value, decoded, checked, same⟩ := tag_read (j := j) laws created
  rw [good] at checked
  refine ⟨{ jsonTagOf tag with value }, ?_, ⟨rfl, rfl, rfl, rfl, rfl, rfl, rfl, same good⟩⟩
  rw [encodeTag_decoded plain decoded, if_pos checked]

theorem tag_refused (laws : CastLaws casts) (plain : PlainTag j (jsonTagOf tag))
    (created : Created casts tag) (bad : restorable j casts tag = false) :
    neuJsonDecodeTagJson casts (some (neuJsonEncodeTag j casts (jsonTagOf tag))) =
      .error .failed := by
  obtain ⟨value, decoded, checked, _⟩ := tag_read (j := j) laws created
  rw [bad] at checked
  rw [encodeTag_decoded plain decoded, if_neg (by rw [checked]; decide)]

end

end Cpm
