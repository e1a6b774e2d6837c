import Mathlib.Algebra.Group.Int.Defs
import Mathlib.Algebra.Order.Floor.Ring
import Mathlib.Data.Rat.Floor

/-! Integers kept in words: what a word holds of an integer, and the integers that numbers are
truncated to. -/
namespace Lib.Words

/-- The integer that a word of this modulus shows for `x`. -/
def read (signed : Bool) (modulus : Nat) (x : Int) : Int :=
  if signed then x.bmod modulus else x % modulus

def InRange (signed : Bool) (modulus : Nat) (k : Int) : Prop :=
  if signed then -(modulus : Int) ≤ 2 * k ∧ 2 * k < modulus else 0 ≤ k ∧ k < modulus

def truncate (x : ℚ) : Int := if 0 ≤ x then ⌊x⌋ else ⌈x⌉

theorem read_range {modulus : Nat} (positive : 0 < modulus) (signed : Bool) (x : Int) :
    InRange signed modulus (read signed modulus x) := by
  cases signed with
  | true =>
    have low := Int.le_bmod (x := x) positive
    have high := Int.bmod_lt (x := x) positive
    simp only [InRange, read, if_true]
    omega
  | false =>
    have low := Int.emod_nonneg x (b := modulus) (by omega)
    have high := Int.emod_lt_of_pos x (b := modulus) (by omega)
    simp only [InRange, read, Bool.false_eq_true, if_false]
    exact ⟨low, high⟩

theorem read_emod (signed : Bool) (modulus : Nat) (x : Int) :
    read signed modulus x % modulus = x % modulus := by
  cases signed with
  | true => exact Int.bmod_emod
  | false => exact Int.emod_emod_of_dvd x (dvd_refl _)

/-- A word shows one integer of its range, the one that is congruent. -/
theorem read_eq_iff {signed : Bool} {modulus : Nat} {k : Int} (positive : 0 < modulus)
    (inRange : InRange signed modulus k) (x : Int) :
    read signed modulus x = k ↔ (modulus : Int) ∣ x - k := by
  have same : (modulus : Int) ∣ x - read signed modulus x :=
    Int.dvd_of_emod_eq_zero (Int.emod_eq_emod_iff_emod_sub_eq_zero.1 (read_emod signed modulus x).symm)
  refine ⟨fun shown => shown ▸ same, fun divides => ?_⟩
  have apart : (modulus : Int) ∣ read signed modulus x - k := by
    have difference := Int.dvd_sub divides same
    rwa [sub_sub_sub_cancel_left] at difference
  have near : |read signed modulus x - k| < modulus := by
    have other := read_range positive signed x
    rw [abs_lt]
    cases signed
    all_goals
      simp only [InRange, if_true, Bool.false_eq_true, if_false] at inRange other
      omega
  have zero := Int.eq_zero_of_abs_lt_dvd apart near
  omega

theorem read_self {signed : Bool} {modulus : Nat} {k : Int} (positive : 0 < modulus)
    (inRange : InRange signed modulus k) : read signed modulus k = k := by
  rw [read_eq_iff positive inRange, sub_self]
  exact dvd_zero _

/-- What a longer word keeps is enough for a shorter one. -/
theorem read_of_dvd {modulus larger : Nat} (divides : modulus ∣ larger) (signed : Bool) (x : Int) :
    read signed modulus (x % larger) = read signed modulus x := by
  have again : x % larger % modulus = x % modulus :=
    Int.emod_emod_of_dvd x (Int.natCast_dvd_natCast.2 divides)
  cases signed with
  | true =>
    simp only [read, if_true]
    rw [← Int.emod_bmod, again, Int.emod_bmod]
  | false => exact again

theorem truncate_int (k : Int) : truncate k = k := by
  simp [truncate]

theorem truncate_add {x : ℚ} (k : Int) (positive : 0 ≤ x + k) : truncate (x + k) = ⌊x⌋ + k := by
  rw [truncate, if_pos positive, Int.floor_add_intCast]

theorem truncate_sub {x : ℚ} (k : Int) (negative : -x + k < 0) : truncate (-x + k) = -⌊x⌋ + k := by
  rw [truncate, if_neg (not_le.2 negative), Int.ceil_add_intCast, Int.ceil_neg]

end Lib.Words
