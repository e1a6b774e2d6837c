import Cpm.Base.Value

/-! Tags and the options in their addresses, from `tag.h` and `tag.c`. -/
namespace Cpm

open Lib

def NEU_ATTRIBUTE_READ : Nat := 1
def NEU_ATTRIBUTE_WRITE : Nat := 2
def NEU_ATTRIBUTE_SUBSCRIBE : Nat := 4
def NEU_ATTRIBUTE_STATIC : Nat := 8

def NEU_DATATAG_ENDIAN_L16 : Nat := 0
def NEU_DATATAG_ENDIAN_B16 : Nat := 1
def NEU_DATATAG_ENDIAN_LL32 : Nat := 2
def NEU_DATATAG_ENDIAN_LB32 : Nat := 3
def NEU_DATATAG_ENDIAN_BB32 : Nat := 4
def NEU_DATATAG_ENDIAN_BL32 : Nat := 5
def NEU_DATATAG_ENDIAN_L64 : Nat := 6
def NEU_DATATAG_ENDIAN_B64 : Nat := 7

def NEU_DATATAG_STRING_TYPE_H : Nat := 0
def NEU_DATATAG_STRING_TYPE_L : Nat := 1
def NEU_DATATAG_STRING_TYPE_D : Nat := 2
def NEU_DATATAG_STRING_TYPE_E : Nat := 3

abbrev AddrOption := Block 8

namespace AddrOption

/-- The endian of `value16`, `value32` and `value64` stands at one place. -/
def endian (o : AddrOption) : Nat := (o.window 0 4).leValue

def setEndian (o : AddrOption) (endian : Nat) : AddrOption := o.overlay 0 (Block.leBlock 4 endian)

def stringLength (o : AddrOption) : Nat := (o.window 0 2).leValue

def setStringLength (o : AddrOption) (n : Int) : AddrOption :=
  o.overlay 0 (Block.leBlock 2 (n % 2 ^ 16).toNat)

def setStringType (o : AddrOption) (type : Nat) : AddrOption := o.overlay 4 (Block.leBlock 4 type)

def setBytesLength (o : AddrOption) (n : Int) : AddrOption :=
  o.overlay 0 (Block.leBlock 1 (n % 2 ^ 8).toNat)

def setBitOp (o : AddrOption) (op : Bool) : AddrOption := o.overlay 0 (Block.leBlock 1 op.toNat)

def setBit (o : AddrOption) (n : Int) : AddrOption :=
  o.overlay 1 (Block.leBlock 1 (n % 2 ^ 8).toNat)

end AddrOption

/-- `neu_datatag_t`. Of `meta` only the static value that it can point to is used; `decimal` is
given by its bits. -/
structure NeuDatatag where
  name : CStr
  address : CStr
  attributes : Nat
  type : NeuType
  precision : UInt8
  decimal : Nat
  description : CStr
  option : AddrOption
  staticValue : Option ValueU
  deriving DecidableEq

def neuTagAttributeTest (tag : NeuDatatag) (bits : Nat) : Bool := tag.attributes &&& bits = bits

/-- The tail of the text from the last occurrence on. -/
def findLastCharacter (character : Char) : List Char → Option (List Char)
  | [] => none
  | c :: rest =>
    (findLastCharacter character rest).or (if c = character then some (c :: rest) else none)

/-- A decimal conversion of sscanf. Without a digit it fails; the number is clamped as strtol
clamps it, and the field then keeps its low bits. -/
def scanDecimal (text : List Char) : Option (Int × List Char) :=
  let body := text.dropWhile CStr.isspace
  let unsigned := match body with
    | '-' :: rest | '+' :: rest => rest
    | rest => rest
  if (unsigned.head?.any Char.isDigit) then
    let magnitude : Int := CStr.digits 0 unsigned
    let signed := if body.head? = some '-' then -magnitude else magnitude
    some (max (-2 ^ 63) (min (2 ^ 63 - 1) signed), unsigned.dropWhile Char.isDigit)
  else none

def stringType : Char → Nat
  | 'L' => NEU_DATATAG_STRING_TYPE_L
  | 'D' | 'E' => NEU_DATATAG_STRING_TYPE_D
  | _ => NEU_DATATAG_STRING_TYPE_H

def endian32 : List Char → Nat
  | 'B' :: 'B' :: _ => NEU_DATATAG_ENDIAN_BB32
  | 'B' :: 'L' :: _ => NEU_DATATAG_ENDIAN_BL32
  | 'L' :: 'B' :: _ => NEU_DATATAG_ENDIAN_LB32
  | _ => NEU_DATATAG_ENDIAN_LL32

/-- `bytes.length` is written, and `string.length` is what is tested. -/
def parseBytesOption (option : AddrOption) : Option (List Char) → Int × AddrOption
  | none => (-1, option)
  | some op =>
    match scanDecimal op.tail with
    | none => (-1, option)
    | some (n, _) =>
      let option := option.setBytesLength n
      (if option.stringLength = 0 then -1 else 0, option)

/-- The type is set whether or not there is a length. -/
def parseStringOption (option : AddrOption) : Option (List Char) → Int × AddrOption
  | none => (-1, option)
  | some op =>
    match scanDecimal op.tail with
    | none => (-1, option.setStringType NEU_DATATAG_STRING_TYPE_H)
    | some (n, rest) =>
      let option := (option.setStringLength n).setStringType (stringType (rest.headD '\x00'))
      (if option.stringLength = 0 then -1 else 0, option)

def parseBitOption (option : AddrOption) : Option (List Char) → AddrOption
  | none => option.setBitOp false
  | some op =>
    match scanDecimal op.tail with
    | none => option.setBitOp true
    | some (n, _) => (option.setBit n).setBitOp true

/-- The result and the option; where the code writes nothing, the option stays. -/
def neuDatatagParseAddrOption (tag : NeuDatatag) : Int × AddrOption :=
  let dot := findLastCharacter '.' tag.address.chars
  let hash := ((findLastCharacter '#' tag.address.chars).map List.tail).getD []
  match tag.type with
  | .bytes => parseBytesOption tag.option dot
  | .string => parseStringOption tag.option dot
  | .int16 | .uint16 => (0, tag.option.setEndian
      (if hash.head? = some 'B' then NEU_DATATAG_ENDIAN_B16 else NEU_DATATAG_ENDIAN_L16))
  | .float | .int32 | .uint32 => (0, tag.option.setEndian (endian32 hash))
  | .double | .int64 | .uint64 => (0, tag.option.setEndian
      (if hash.head? = some 'B' then NEU_DATATAG_ENDIAN_B64 else NEU_DATATAG_ENDIAN_L64))
  | .bit => (0, parseBitOption tag.option dot)
  | _ => (0, tag.option)

def NeuDatatag.parsed (tag : NeuDatatag) : NeuDatatag :=
  { tag with option := (neuDatatagParseAddrOption tag).2 }

def neuTagGetStaticValue (tag : NeuDatatag) : Option ValueU :=
  if neuTagAttributeTest tag NEU_ATTRIBUTE_STATIC then tag.staticValue else none

def neuTagSetStaticValue (tag : NeuDatatag) (value : ValueU) : NeuDatatag :=
  if neuTagAttributeTest tag NEU_ATTRIBUTE_STATIC then { tag with staticValue := some value }
  else tag

@[simp] theorem parsed_name (tag : NeuDatatag) : tag.parsed.name = tag.name := rfl

@[simp] theorem parsed_type (tag : NeuDatatag) : tag.parsed.type = tag.type := rfl

@[simp] theorem parsed_staticValue (tag : NeuDatatag) :
    tag.parsed.staticValue = tag.staticValue := rfl

/- The parser writes the same bytes whatever stood there before. -/

theorem parseBytesOption_again (option : AddrOption) (dot : Option (List Char)) :
    (parseBytesOption (parseBytesOption option dot).2 dot).2 = (parseBytesOption option dot).2 := by
  cases dot with
  | none => rfl
  | some op =>
    cases scan : scanDecimal op.tail with
    | none => simp only [parseBytesOption, scan]
    | some scanned =>
      simp only [parseBytesOption, scan]
      exact Block.overlay_overlay ..

theorem parseStringOption_again (option : AddrOption) (dot : Option (List Char)) :
    (parseStringOption (parseStringOption option dot).2 dot).2 =
      (parseStringOption option dot).2 := by
  have typed (o : AddrOption) (n : Int) (t : Nat) :
      (((o.setStringLength n).setStringType t).setStringLength n).setStringType t =
        (o.setStringLength n).setStringType t := by
    have behind : ((o.setStringLength n).setStringType t).setStringLength n =
        ((o.setStringLength n).setStringLength n).setStringType t :=
      Block.overlay_comm _ _ _ (.inr (by decide))
    have once : (o.setStringLength n).setStringLength n = o.setStringLength n :=
      Block.overlay_overlay ..
    rw [behind, once]
    exact Block.overlay_overlay ..
  cases dot with
  | none => rfl
  | some op =>
    cases scan : scanDecimal op.tail with
    | none =>
      simp only [parseStringOption, scan]
      exact Block.overlay_overlay ..
    | some scanned =>
      simp only [parseStringOption, scan]
      exact typed ..

theorem parseBitOption_again (option : AddrOption) (dot : Option (List Char)) :
    parseBitOption (parseBitOption option dot) dot = parseBitOption option dot := by
  have placed (o : AddrOption) (n : Int) :
      ((((o.setBit n).setBitOp true).setBit n).setBitOp true) = (o.setBit n).setBitOp true := by
    have behind : ((o.setBit n).setBitOp true).setBit n = ((o.setBit n).setBit n).setBitOp true :=
      Block.overlay_comm _ _ _ (.inl (by decide))
    have once : (o.setBit n).setBit n = o.setBit n := Block.overlay_overlay ..
    rw [behind, once]
    exact Block.overlay_overlay ..
  cases dot with
  | none =>
    simp only [parseBitOption]
    exact Block.overlay_overlay ..
  | some op =>
    cases scan : scanDecimal op.tail with
    | none =>
      simp only [parseBitOption, scan]
      exact Block.overlay_overlay ..
    | some scanned =>
      simp only [parseBitOption, scan]
      exact placed ..

/-- A tag is parsed when it is checked and again when it is added. -/
@[simp] theorem parsed_parsed (tag : NeuDatatag) : tag.parsed.parsed = tag.parsed := by
  have same : (neuDatatagParseAddrOption tag.parsed).2 = (neuDatatagParseAddrOption tag).2 := by
    cases type : tag.type
    all_goals simp only [neuDatatagParseAddrOption, NeuDatatag.parsed, type]
    all_goals first
      | exact parseBytesOption_again ..
      | exact parseStringOption_again ..
      | exact parseBitOption_again ..
      | exact Block.overlay_overlay ..
  simp only [NeuDatatag.parsed] at same ⊢
  rw [same]

end Cpm
