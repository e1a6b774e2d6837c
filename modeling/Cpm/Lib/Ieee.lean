import Mathlib.Algebra.Group.Nat.Defs
import Mathlib.Data.Rat.Defs
import Mathlib.Algebra.Order.Ring.Unbundled.Rat

/-! Comparisons of IEEE 754 numbers given by their bits, for any exponent and fraction width.
Differences are taken exactly, as rationals. -/
namespace Lib

structure Ieee where
  expBits : Nat
  fracBits : Nat

namespace Ieee

def binary32 : Ieee := ⟨8, 23⟩

def binary64 : Ieee := ⟨11, 52⟩

variable (f : Ieee)

def fraction (bits : Nat) : Nat := bits % 2 ^ f.fracBits

def exponent (bits : Nat) : Nat := bits / 2 ^ f.fracBits % 2 ^ f.expBits

def negative (bits : Nat) : Bool := bits / 2 ^ (f.fracBits + f.expBits) % 2 = 1

def special (bits : Nat) : Bool := f.exponent bits = 2 ^ f.expBits - 1

def isNan (bits : Nat) : Bool := f.special bits && f.fraction bits ≠ 0

def isZero (bits : Nat) : Bool := f.exponent bits = 0 && f.fraction bits = 0

/-- `a != b`: only the two zeros are equal with different bits, and NaN equals nothing. -/
def ne (a b : Nat) : Bool :=
  f.isNan a || f.isNan b || (a ≠ b && !(f.isZero a && f.isZero b))

def bias : Int := 2 ^ (f.expBits - 1) - 1

def value (bits : Nat) : Rat :=
  let magnitude : Rat :=
    if f.exponent bits = 0 then f.fraction bits * (2 : Rat) ^ (1 - f.bias - f.fracBits)
    else (2 ^ f.fracBits + f.fraction bits : Nat) *
      (2 : Rat) ^ (f.exponent bits - f.bias - f.fracBits)
  if f.negative bits then -magnitude else magnitude

/-- `fabs(a - b) > threshold`; a comparison with NaN is false, and so is inf - inf. -/
def differMore (threshold : Rat) (a b : Nat) : Bool :=
  if f.isNan a || f.isNan b then false
  else if f.special a || f.special b then a ≠ b
  else threshold < |f.value a - f.value b|

/-- No number is away from itself, and neither is a zero from the other zero. -/
theorem differMore_again (proper : f.expBits ≠ 0) {a b : Nat} {threshold : Rat}
    (positive : 0 < threshold) (same : a = b ∨ (f.isZero a ∧ f.isZero b)) :
    f.differMore threshold a b = false := by
  have wide : (2 : Nat) ^ f.expBits - 1 ≠ 0 := by
    have := Nat.one_lt_two_pow proper
    omega
  have exact {x : Nat} (zero : f.isZero x = true) : f.special x = false ∧ f.value x = 0 := by
    simp only [Ieee.isZero, Bool.and_eq_true, decide_eq_true_eq] at zero
    refine ⟨?_, ?_⟩
    · simp [Ieee.special, zero.1, Ne.symm wide]
    · simp [Ieee.value, zero.1, zero.2]
  unfold Ieee.differMore
  obtain rfl | ⟨left, right⟩ := same
  · simp [le_of_lt positive]
  · simp [exact left, exact right, le_of_lt positive]

end Ieee

end Lib
