import Cpm.Base.Jansson
import Cpm.Base.Tag

/-! Tags in JSON documents, from `neu_json_tag.c`, and their static values, from `tag.c`. -/
namespace Cpm

open Lib

structure NeuJsonTag where
  address : CStr
  name : CStr
  description : Option CStr
  type : Int
  attributes : Int
  precision : Int
  decimal : Nat
  value : NeuJsonValue

def NeuType.code : NeuType → Nat
  | .int8 => 1
  | .uint8 => 2
  | .int16 => 3
  | .uint16 => 4
  | .int32 => 5
  | .uint32 => 6
  | .int64 => 7
  | .uint64 => 8
  | .float => 9
  | .double => 10
  | .bit => 11
  | .bool => 12
  | .string => 13
  | .bytes => 14
  | .error => 15
  | .word => 16
  | .dword => 17
  | .lword => 18
  | .ptr => 19
  | .unlisted type => type.number.toNat

def neuTypes : List NeuType :=
  [.int8, .uint8, .int16, .uint16, .int32, .uint32, .int64, .uint64, .float, .double, .bit, .bool,
    .string, .bytes, .error, .word, .dword, .lword, .ptr]

def neuTypeOf (code : Int) : Option NeuType := neuTypes.find? fun type => type.code = code

/-- `neu_type_e` has 32 bits. -/
def storedType (code : Int) : NeuType :=
  let number := UInt32.ofNat (code % 2 ^ 32).toNat
  if unlisted : number = 0 ∨ 19 < number then .unlisted ⟨number, unlisted⟩
  else (neuTypeOf number.toNat).getD .error

theorem codes_listed : ∀ type ∈ neuTypes, 1 ≤ type.code ∧ type.code ≤ 19 := by decide

theorem UnlistedType.outside (type : UnlistedType) :
    type.number.toNat = 0 ∨ 19 < type.number.toNat :=
  type.unlisted.imp (fun none => by rw [none]; rfl) id

theorem neuTypeOf_code (type : NeuType) :
    neuTypeOf type.code = if type.listed then some type else none := by
  cases type with
  | unlisted other =>
    have outside := other.outside
    apply List.find?_eq_none.2
    intro known inside same
    have range := codes_listed known inside
    have equal : (known.code : Int) = other.number.toNat := of_decide_eq_true same
    omega
  | _ => rfl

theorem storedType_code (type : NeuType) : storedType type.code = type := by
  cases type with
  | unlisted other =>
    have small := other.number.toNat_lt
    have whole : UInt32.ofNat ((other.number.toNat : Int) % 2 ^ 32).toNat = other.number := by
      have same : ((other.number.toNat : Int) % 2 ^ 32).toNat = other.number.toNat := by omega
      rw [same, UInt32.ofNat_toNat]
    simp only [storedType, NeuType.code, whole, dif_pos other.unlisted]
  | _ => rfl

def isStaticAttribute (attributes : Int) : Bool :=
  (attributes % 2 ^ 64).toNat &&& NEU_ATTRIBUTE_STATIC ≠ 0

/-- `snprintf` into `value.str`, which was zeroed. -/
def strValue (text : CStr) : ValueU :=
  Block.ofList 136 ((text.chars.take (NEU_VALUE_SIZE - 1)).map fun c => c.toNat.toUInt8)

def intValue (casts : CastOps) (n : Int) : NeuType → Option ValueU
  | .bit | .int8 | .uint8 => some (Block.zero.overlay 0 (Block.leBlock 1 (n % 2 ^ 8).toNat))
  | .int16 | .word | .uint16 => some (Block.zero.overlay 0 (Block.leBlock 2 (n % 2 ^ 16).toNat))
  | .int32 | .dword | .uint32 => some (Block.zero.overlay 0 (Block.leBlock 4 (n % 2 ^ 32).toNat))
  | .int64 | .lword | .uint64 => some (Block.zero.overlay 0 (Block.leBlock 8 (n % 2 ^ 64).toNat))
  | .float => some (Block.zero.overlay 0 (Block.leBlock 4 (casts.intToFloat n)))
  | .double => some (Block.zero.overlay 0 (Block.leBlock 8 (casts.ofInt n)))
  | _ => none

/-- What `neu_tag_set_static_value_json` stores for a tag of the type. -/
def staticValueOf (casts : CastOps) (type : NeuType) : NeuJsonValue → Option ValueU
  | .bit n =>
    if type = .bit then some (Block.zero.overlay 0 (Block.leBlock 1 n.toNat)) else none
  | .bool b =>
    if type = .bool then some (Block.zero.overlay 0 (Block.leBlock 1 b.toNat)) else none
  | .int n => intValue casts n type
  | .float f =>
    match type with
    | .float => some (Block.zero.overlay 0 (Block.leBlock 4 f))
    | .double => some (Block.zero.overlay 0 (Block.leBlock 8 (casts.ofFloat f)))
    | _ => none
  | .double d =>
    match type with
    | .float => some (Block.zero.overlay 0 (Block.leBlock 4 (casts.toFloat d)))
    | .double => some (Block.zero.overlay 0 (Block.leBlock 8 d))
    | _ => none
  | .str text => if type = .string then some (strValue text) else none
  | _ => none

def strOf (u : ValueU) : CStr :=
  .read ((u.window 0 NEU_VALUE_SIZE).toList.map fun b => Char.ofNat b.toNat)

/-- `neu_tag_get_static_value_json` for a value that is there; other types have none. -/
def jsonOfStaticValue (u : ValueU) : NeuType → NeuJsonValue
  | .bit | .uint8 => .int (u.unsigned 1)
  | .bool => .bool (u.unsigned 1 ≠ 0)
  | .int8 => .int (u.signed 1)
  | .int16 => .int (u.signed 2)
  | .word | .uint16 => .int (u.unsigned 2)
  | .int32 => .int (u.signed 4)
  | .dword | .uint32 => .int (u.unsigned 4)
  | .int64 | .lword | .uint64 => .int (u.signed 8)
  | .float => .float u.f32
  | .double => .double u.d64
  | .string => .str (strOf u)
  | _ => .undefine

def jsonTagOf (tag : NeuDatatag) : NeuJsonTag where
  address := tag.address
  name := tag.name
  description := some tag.description
  type := tag.type.code
  attributes := tag.attributes
  precision := tag.precision.toNat
  decimal := tag.decimal
  value := match neuTagGetStaticValue tag with
    | some u => jsonOfStaticValue u tag.type
    | none => .undefine

def neuJsonEncodeTag (j : Jansson) (casts : CastOps) (tag : NeuJsonTag) : Json :=
  neuJsonEncodeEntry j casts
    [("type", .int tag.type), ("name", .str tag.name), ("attribute", .int tag.attributes),
      ("precision", .int tag.precision), ("decimal", .double tag.decimal),
      ("address", .str tag.address),
      ("description", (tag.description.map NeuJsonValue.str).getD .undefine), ("value", tag.value)]

def neuJsonEncodeGetTagsResp (j : Jansson) (casts : CastOps) (object : Json)
    (tags : List NeuJsonTag) : Json :=
  neuJsonEncodeField j casts object [("tags", .object (.array (tags.map (neuJsonEncodeTag j casts))))]

/- Decoding. -/

def NeuJsonValue.isInt : NeuJsonValue → Bool
  | .int _ => true
  | _ => false

def NeuJsonValue.isNumber : NeuJsonValue → Bool
  | .int _ | .float _ | .double _ => true
  | _ => false

def NeuJsonValue.isBool : NeuJsonValue → Bool
  | .bool _ => true
  | _ => false

def NeuJsonValue.isShortText : NeuJsonValue → Bool
  | .str text => text.strlen ≤ NEU_VALUE_SIZE
  | _ => false

/-- The values that a static tag of the type may have; any, where the type is none of those listed. -/
def fitsStatic (value : NeuJsonValue) : Option NeuType → Bool
  | some .bit | some .int8 | some .uint8 | some .int16 | some .uint16 | some .int32 | some .uint32
  | some .int64 | some .uint64 | some .word | some .dword | some .lword => value.isInt
  | some .float | some .double => value.isNumber
  | some .bool => value.isBool
  | some .bytes | some .string => value.isShortText
  | _ => true

def neuJsonTagCheckType (tag : NeuJsonTag) : Bool :=
  if isStaticAttribute tag.attributes then fitsStatic tag.value (neuTypeOf tag.type)
  else
    match tag.value with
    | .undefine => true
    | _ => false

def tagElems : List NeuJsonElem :=
  [required "type" .int, required "name" .str, required "attribute" .int, required "address" .str,
    optionally "decimal" .double, optionally "precision" .int, optionally "description" .str,
    optionally "value" .undefine]

def doubleOf : Option NeuJsonValue → Nat
  | some (.double bits) => bits
  | _ => 0

def intOf : Option NeuJsonValue → Int
  | some (.int value) => value
  | _ => 0

def textOf : Option NeuJsonValue → Option CStr
  | some (.str text) => some text
  | _ => none

def neuJsonDecodeTagJson (casts : CastOps) (json : Option Json) : Decoded NeuJsonTag := do
  match ← neuJsonDecodeByJson casts json tagElems with
  | [some (.int type), some (.str name), some (.int attributes), some (.str address), decimal,
      precision, description, value] =>
    let tag : NeuJsonTag := {
      address, name, type, attributes
      description := textOf description
      precision := intOf precision
      decimal := doubleOf decimal
      value := value.getD .undefine }
    if neuJsonTagCheckType tag then .ok tag else .error .failed
  | _ => .error .failed

def neuJsonDecodeTagArrayJson (casts : CastOps) : Json → Decoded (List NeuJsonTag)
  | .array items => items.mapM fun item => neuJsonDecodeTagJson casts (some item)
  | _ => .error .failed

end Cpm
