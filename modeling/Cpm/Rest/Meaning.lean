import Cpm.Lib.IeeeValue
import Cpm.Rest.ElementRoundTrip

/-! What values say, whatever carries them: a number, a truth value, a text or bytes. -/
namespace Cpm

open Lib

inductive Meaning where
  | number (value : Rat)
  | boolean (value : Bool)
  | text (value : CStr)
  | bytes (values : List UInt8)

/-- Infinities and NaN are no numbers. -/
def finiteMeaning (f : Ieee) (bits : Nat) : Option Meaning :=
  if f.special bits then none else some (.number (f.value bits))

def NeuJsonValue.meaning : NeuJsonValue → Option Meaning
  | .int n => some (.number n)
  | .bit n => some (.number n.toNat)
  | .float bits => finiteMeaning .binary32 bits
  | .double bits => finiteMeaning .binary64 bits
  | .bool b => some (.boolean b)
  | .str text => some (.text text)
  | .bytes values => some (.bytes values)
  | .undefine | .object _ => none

/-- A conversion to a format that has the number gives it. -/
structure ExactCasts (casts : CastOps) : Prop where
  intToFloat : ∀ n : Int, Ieee.binary32.Has n → Ieee.binary32.Represents (casts.intToFloat n) n
  ofInt : ∀ n : Int, Ieee.binary64.Has n → Ieee.binary64.Represents (casts.ofInt n) n
  ofFloat : ∀ bits q, Ieee.binary32.Represents bits q →
    Ieee.binary64.Represents (casts.ofFloat bits) q
  toFloat : ∀ bits q, Ieee.binary64.Represents bits q → Ieee.binary32.Has q →
    Ieee.binary32.Represents (casts.toFloat bits) q

theorem ieeeCasts_exact : ExactCasts ieeeCasts where
  intToFloat _ has := Ieee.ofInteger_represents (by decide) has
  ofInt _ has := Ieee.ofInteger_represents (by decide) has
  ofFloat _ _ short := Ieee.widen_represents short
  toFloat _ _ long has := Ieee.narrow_represents long has

theorem finiteMeaning_iff {f : Ieee} {bits : Nat} (small : bits < 2 ^ (f.fracBits + f.expBits + 1))
    (q : Rat) : finiteMeaning f bits = some (.number q) ↔ f.Represents bits q := by
  unfold finiteMeaning Ieee.Represents
  cases special : f.special bits with
  | true => simp
  | false => simp [small]

end Cpm
