import Cpm.Lib.Bytes
import Cpm.Lib.CString
import Cpm.Lib.Ieee

/-! Tag values, from `type.h` and `tag.h`: a type beside a union of overlapping bytes. -/
namespace Cpm

open Lib

/-- A number that `neu_type_e` has no name for. Tags and values keep the number they are given. -/
structure UnlistedType where
  number : UInt32
  unlisted : number = 0 ∨ 19 < number
  deriving DecidableEq, Repr

inductive NeuType where
  | int8
  | uint8
  | int16
  | uint16
  | int32
  | uint32
  | int64
  | uint64
  | float
  | double
  | bit
  | bool
  | string
  | bytes
  | error
  | word
  | dword
  | lword
  | ptr
  | unlisted (type : UnlistedType)
  deriving DecidableEq, Repr

def NeuType.listed : NeuType → Bool
  | .unlisted _ => false
  | _ => true

def NEU_VALUE_SIZE : Nat := 128

/-- `neu_value_u`: the longest member is `bytes` with its length behind it, rounded up to the
alignment of a pointer. -/
abbrev ValueU := Block 136

namespace ValueU

def bytesLength (u : ValueU) : Nat := (u.byte NEU_VALUE_SIZE).toNat

def ptrType (u : ValueU) : Block 4 := u.window 0 4

def ptrLength (u : ValueU) : Nat := (u.window 4 2).leValue

def ptrPtr (u : ValueU) : Nat := (u.window 8 8).leValue

def f32 (u : ValueU) : Nat := (u.window 0 4).leValue

def d64 (u : ValueU) : Nat := (u.window 0 8).leValue

def signed (u : ValueU) (bytes : Nat) : Int := ((u.window 0 bytes).leValue : Int).bmod (256 ^ bytes)

def unsigned (u : ValueU) (bytes : Nat) : Nat := (u.window 0 bytes).leValue

def setFront (u : ValueU) (bytes n : Nat) : ValueU := u.overlay 0 (Block.leBlock bytes n)

def ofU32 (n : Nat) : ValueU := Block.zero.overlay 0 (Block.leBlock 4 n)

theorem unsigned_lt (u : ValueU) (bytes : Nat) : u.unsigned bytes < 256 ^ bytes :=
  (u.window 0 bytes).leValue_lt

theorem setFront_window (u : ValueU) {bytes : Nat} (n : Nat) (fits : 0 + bytes ≤ 136) :
    (u.setFront bytes n).window 0 bytes = Block.leBlock bytes n := Block.window_overlay u _ fits

theorem setFront_unsigned (u : ValueU) {bytes : Nat} (n : Nat) (fits : 0 + bytes ≤ 136) :
    (u.setFront bytes n).unsigned bytes = n % 256 ^ bytes := by
  rw [unsigned, setFront_window u n fits, Block.leValue_leBlock]

theorem setFront_self (u : ValueU) (bytes : Nat) : u.setFront bytes (u.unsigned bytes) = u := by
  rw [setFront, unsigned, Block.leBlock_leValue, Block.overlay_window]

end ValueU

/-- `fabs(a - b) > pow(0.1, precision)`, as the processor and the C library compute it: a number is
not away from itself. -/
structure DeadBand where
  float : UInt8 → Nat → Nat → Bool
  double : UInt8 → Nat → Nat → Bool
  float_self : ∀ precision a b, a = b ∨ (Ieee.binary32.isZero a ∧ Ieee.binary32.isZero b) →
    float precision a b = false
  double_self : ∀ precision a b, a = b ∨ (Ieee.binary64.isZero a ∧ Ieee.binary64.isZero b) →
    double precision a b = false

def exactBand : DeadBand where
  float precision := Ieee.binary32.differMore ((1 / 10) ^ precision.toNat)
  double precision := Ieee.binary64.differMore ((1 / 10) ^ precision.toNat)
  float_self precision _ _ same :=
    Ieee.binary32.differMore_again (by decide) (pow_pos (by norm_num) precision.toNat) same
  double_self precision _ _ same :=
    Ieee.binary64.differMore_again (by decide) (pow_pos (by norm_num) precision.toNat) same

/-- Floating arithmetic, on the bits of its numbers. -/
structure FloatOps where
  band : DeadBand
  ofInt : Int → Nat
  ofFloat : Nat → Nat
  toFloat : Nat → Nat
  toU64 : Nat → Nat
  round : Nat → Nat
  mul : Nat → Nat → Nat
  div : Nat → Nat → Nat

structure NeuDvalue where
  type : NeuType
  value : ValueU
  precision : UInt8
  deriving DecidableEq

/-- The bytes at the front of the union that a value of the type occupies. The length of
`bytes` and the data of `ptr` stand elsewhere. -/
def NeuType.width (u : ValueU) : NeuType → Nat
  | .int8 | .uint8 | .bit | .bool => 1
  | .int16 | .uint16 | .word => 2
  | .int32 | .uint32 | .dword | .float | .error => 4
  | .int64 | .uint64 | .double | .lword => 8
  | .string => NEU_VALUE_SIZE
  | .bytes => u.bytesLength
  | .ptr => 6
  | .unlisted _ => 0

/-- What a union means for a type: its own bytes, the length beside them and the data that a
pointer leads to. -/
structure Payload where
  front : List UInt8
  length : Nat
  data : List UInt8
  deriving DecidableEq, Repr

def payload (type : NeuType) (u : ValueU) (data : List UInt8) : Payload where
  front := (u.window 0 (type.width u)).toList
  length := if type = .bytes then u.bytesLength else 0
  data := if type = .ptr then data else []

/-- Without a known type there is nothing that a union could mean. -/
@[simp] theorem payload_unlisted (type : UnlistedType) (u : ValueU) (data : List UInt8) :
    payload (.unlisted type) u data = ⟨[], 0, []⟩ := rfl

def NEU_TAG_META_SIZE : Nat := 3

structure NeuTagMeta where
  name : CStr
  value : NeuDvalue
  deriving DecidableEq

/-- The array of metas in a value; a cleared place is `none`. -/
abbrev Metas := Fin NEU_TAG_META_SIZE → Option NeuTagMeta

def metasOf (metas : List NeuTagMeta) : Metas := fun i => metas[i.val]?

def noMetas : Metas := fun _ => none

def namedMetas (metas : Metas) : Metas := fun i => (metas i).filter fun entry => entry.name ≠ .empty

end Cpm
