import Cpm.Lib.Ieee
import Mathlib.Data.Nat.Log
import Mathlib.Tactic.Ring

/-! Conversions between the two IEEE formats and from integers, on the bits. A short number
that is made long and cut again is itself. -/
namespace Lib.Ieee

def pack (f : Ieee) (negative : Bool) (exponent fraction : Nat) : Nat :=
  negative.toNat * 2 ^ (f.fracBits + f.expBits) + exponent * 2 ^ f.fracBits + fraction

/-- Division by a power of two, to the nearest and on a tie to the even neighbour. -/
def roundShift (n shift : Nat) : Nat :=
  if 2 ^ shift < 2 * (n % 2 ^ shift) ∨
      2 * (n % 2 ^ shift) = 2 ^ shift ∧ n / 2 ^ shift % 2 = 1 then
    n / 2 ^ shift + 1 else n / 2 ^ shift

/-- A `float` as a `double`, which is exact. -/
def widen (bits : Nat) : Nat :=
  let e := binary32.exponent bits
  let m := binary32.fraction bits
  let pack := binary64.pack (binary32.negative bits)
  if e = 255 then pack 2047 (m * 2 ^ 29)
  else if e ≠ 0 then pack (e + 896) (m * 2 ^ 29)
  else if m = 0 then pack 0 0
  else pack (m.log2 + 874) ((m - 2 ^ m.log2) * 2 ^ (52 - m.log2))

/-- A `double` cut to a `float`: a carry of the rounding goes on into the exponent. -/
def narrow (bits : Nat) : Nat :=
  let e := binary64.exponent bits
  let m := binary64.fraction bits
  let sign := (binary64.negative bits).toNat * 2 ^ 31
  if e = 2047 then sign + 255 * 2 ^ 23 + (if m = 0 then 0 else 2 ^ 22 + m / 2 ^ 29 % 2 ^ 22)
  else if e = 0 then sign + roundShift m 925
  else if e < 897 then sign + roundShift (2 ^ 52 + m) (926 - e)
  else sign + min (255 * 2 ^ 23) ((e - 897) * 2 ^ 23 + roundShift (2 ^ 52 + m) 29)

/-- An integer in a format, for integers that are not out of its range. -/
def ofInteger (f : Ieee) (n : Int) : Nat :=
  let top := n.natAbs.log2
  let sign := (decide (n < 0)).toNat * 2 ^ (f.fracBits + f.expBits)
  let scale := 2 ^ (f.expBits - 1) - 2
  if n = 0 then 0
  else if top ≤ f.fracBits then
    sign + (top + scale) * 2 ^ f.fracBits + n.natAbs * 2 ^ (f.fracBits - top)
  else sign + (top + scale) * 2 ^ f.fracBits + roundShift n.natAbs (top - f.fracBits)

theorem roundShift_exact (q shift : Nat) : roundShift (q * 2 ^ shift) shift = q := by
  have positive : 0 < 2 ^ shift := Nat.two_pow_pos shift
  rw [roundShift, Nat.mul_mod_left, Nat.mul_div_cancel _ positive, if_neg (by omega)]

theorem sign_digit (f : Ieee) (bits : Nat) :
    (f.negative bits).toNat = bits / 2 ^ (f.fracBits + f.expBits) % 2 := by
  unfold negative
  rcases Nat.mod_two_eq_zero_or_one (bits / 2 ^ (f.fracBits + f.expBits)) with even | odd
  · simp [even]
  · simp [odd]

theorem parts_short (bits : Nat) (small : bits < 2 ^ 32) :
    (binary32.negative bits).toNat * 2 ^ 31 + binary32.exponent bits * 2 ^ 23 +
      binary32.fraction bits = bits := by
  rw [sign_digit]
  simp only [exponent, fraction, binary32]
  omega

theorem fraction_short (bits : Nat) : binary32.fraction bits < 2 ^ 23 :=
  Nat.mod_lt bits (by decide)

theorem exponent_short (bits : Nat) : binary32.exponent bits < 2 ^ 8 :=
  Nat.mod_lt (bits / 2 ^ 23) (by decide)

section
variable {negative : Bool} {e m : Nat}

theorem pack_long_lt (exp : e < 2 ^ 11) (frac : m < 2 ^ 52) :
    binary64.pack negative e m < 2 ^ 64 := by
  have sign := Bool.toNat_le negative
  simp only [pack, binary64]
  omega

theorem exponent_pack (exp : e < 2 ^ 11) (frac : m < 2 ^ 52) :
    binary64.exponent (binary64.pack negative e m) = e := by
  have sign := Bool.toNat_le negative
  simp only [exponent, pack, binary64]
  omega

theorem fraction_pack (frac : m < 2 ^ 52) :
    binary64.fraction (binary64.pack negative e m) = m := by
  simp only [fraction, pack, binary64]
  omega

theorem negative_pack (exp : e < 2 ^ 11) (frac : m < 2 ^ 52) :
    binary64.negative (binary64.pack negative e m) = negative := by
  have same : (binary64.negative (binary64.pack negative e m)).toNat = negative.toNat := by
    have sign := Bool.toNat_le negative
    rw [sign_digit]
    simp only [pack, binary64]
    omega
  revert same
  cases binary64.negative (binary64.pack negative e m) <;> cases negative <;> simp

end

/-- A number below the normal ones, with its leading one moved to the hidden place. -/
theorem subnormal_fits {m : Nat} (nonzero : m ≠ 0) (small : m < 2 ^ 23) :
    m.log2 < 23 ∧ (m - 2 ^ m.log2) * 2 ^ (52 - m.log2) < 2 ^ 52 ∧
      2 ^ 52 + (m - 2 ^ m.log2) * 2 ^ (52 - m.log2) = m * 2 ^ (52 - m.log2) := by
  have low : 2 ^ m.log2 ≤ m := Nat.log2_self_le nonzero
  have high : m < 2 ^ (m.log2 + 1) := Nat.lt_log2_self
  have top : m.log2 < 23 := (Nat.log2_lt nonzero).mpr small
  have whole : 2 ^ m.log2 * 2 ^ (52 - m.log2) = 2 ^ 52 := by
    rw [← Nat.pow_add]
    congr 1
    omega
  have front : (m - 2 ^ m.log2) * 2 ^ (52 - m.log2) < 2 ^ m.log2 * 2 ^ (52 - m.log2) := by
    apply Nat.mul_lt_mul_of_pos_right
    · rw [Nat.pow_succ] at high
      omega
    · exact Nat.two_pow_pos _
  refine ⟨top, whole ▸ front, ?_⟩
  rw [Nat.sub_mul, whole]
  have above : 2 ^ m.log2 * 2 ^ (52 - m.log2) ≤ m * 2 ^ (52 - m.log2) := Nat.mul_le_mul_right _ low
  omega

theorem widen_lt (bits : Nat) : widen bits < 2 ^ 64 := by
  have frac := fraction_short bits
  have exp := exponent_short bits
  unfold widen
  dsimp only
  split
  · exact pack_long_lt (by decide) (by omega)
  · split
    · exact pack_long_lt (by omega) (by omega)
    · split
      · exact pack_long_lt (by decide) (by decide)
      · next nonzero =>
        have sub := subnormal_fits nonzero frac
        exact pack_long_lt (by omega) sub.2.1

/-- Infinities and NaN stay outside the numbers, and numbers inside. -/
theorem special_widen (bits : Nat) : binary64.special (widen bits) = binary32.special bits := by
  have frac := fraction_short bits
  have exp := exponent_short bits
  change decide (binary64.exponent (widen bits) = 2047) = decide (binary32.exponent bits = 255)
  congr 1
  unfold widen
  by_cases special : binary32.exponent bits = 255
  · rw [if_pos special, exponent_pack (by decide) (by omega)]
    simp [special]
  · rw [if_neg special]
    split
    · rw [exponent_pack (by omega) (by omega)]
      simp only [special, eq_iff_iff, iff_false]
      omega
    · split
      · rw [exponent_pack (by decide) (by decide)]
        simp [special]
      · next nonzero =>
        have sub := subnormal_fits nonzero frac
        rw [exponent_pack (by omega) sub.2.1]
        simp only [special, eq_iff_iff, iff_false]
        omega

/- What is cut off a packed number, by its exponent. -/

section
variable {negative : Bool} {e m : Nat}

theorem narrow_zero : narrow (binary64.pack negative 0 0) = negative.toNat * 2 ^ 31 := by
  have none : roundShift 0 925 = 0 := by
    have exact := roundShift_exact 0 925
    rwa [Nat.zero_mul] at exact
  unfold narrow
  rw [exponent_pack (by decide) (by decide), fraction_pack (by decide),
    negative_pack (by decide) (by decide), if_neg (by decide), if_pos rfl, none, Nat.add_zero]

theorem narrow_low (positive : e ≠ 0) (low : e < 897) (frac : m < 2 ^ 52) :
    narrow (binary64.pack negative e m) =
      negative.toNat * 2 ^ 31 + roundShift (2 ^ 52 + m) (926 - e) := by
  have exp : e < 2 ^ 11 := by omega
  have finite : e ≠ 2047 := by omega
  unfold narrow
  rw [exponent_pack exp frac, fraction_pack frac, negative_pack exp frac, if_neg finite,
    if_neg positive, if_pos low]

theorem narrow_high (high : 897 ≤ e) (bound : e < 2047) (frac : m < 2 ^ 52) :
    narrow (binary64.pack negative e m) = negative.toNat * 2 ^ 31 +
      min (255 * 2 ^ 23) ((e - 897) * 2 ^ 23 + roundShift (2 ^ 52 + m) 29) := by
  have exp : e < 2 ^ 11 := by omega
  have finite : e ≠ 2047 := by omega
  have positive : e ≠ 0 := by omega
  have normal : ¬ e < 897 := by omega
  unfold narrow
  rw [exponent_pack exp frac, fraction_pack frac, negative_pack exp frac, if_neg finite,
    if_neg positive, if_neg normal]

end

theorem narrow_normal (negative : Bool) {e m : Nat} (normal : e ≠ 0) (finite : e < 255)
    (frac : m < 2 ^ 23) : narrow (binary64.pack negative (e + 896) (m * 2 ^ 29)) =
      negative.toNat * 2 ^ 31 + e * 2 ^ 23 + m := by
  have whole : 2 ^ 52 + m * 2 ^ 29 = (2 ^ 23 + m) * 2 ^ 29 := by omega
  rw [narrow_high (by omega) (by omega) (by omega), whole, roundShift_exact, Nat.add_assoc]
  congr 1
  omega

theorem narrow_subnormal (negative : Bool) {m : Nat} (nonzero : m ≠ 0) (frac : m < 2 ^ 23) :
    narrow (binary64.pack negative (m.log2 + 874) ((m - 2 ^ m.log2) * 2 ^ (52 - m.log2))) =
      negative.toNat * 2 ^ 31 + m := by
  obtain ⟨top, fits, whole⟩ := subnormal_fits nonzero frac
  have shift : 926 - (m.log2 + 874) = 52 - m.log2 := by omega
  have positive : m.log2 + 874 ≠ 0 := Nat.succ_ne_zero _
  have low : m.log2 + 874 < 897 := Nat.add_lt_add_right top 874
  rw [narrow_low positive low fits, whole, shift, roundShift_exact]

/-- Cutting what was made long gives every finite number back. -/
theorem narrow_widen {bits : Nat} (small : bits < 2 ^ 32)
    (finite : binary32.special bits = false) : narrow (widen bits) = bits := by
  have frac := fraction_short bits
  have parts := parts_short bits small
  have plain : binary32.exponent bits ≠ 255 := of_decide_eq_false finite
  have exp : binary32.exponent bits < 255 :=
    lt_of_le_of_ne (Nat.le_of_lt_succ (exponent_short bits)) plain
  unfold widen
  rw [if_neg plain]
  by_cases normal : binary32.exponent bits = 0
  · rw [if_neg (not_not.mpr normal)]
    rw [normal, Nat.zero_mul, Nat.add_zero] at parts
    by_cases zero : binary32.fraction bits = 0
    · rw [zero, Nat.add_zero] at parts
      rw [if_pos zero, narrow_zero, parts]
    · rw [if_neg zero, narrow_subnormal _ zero frac, parts]
  · rw [if_pos normal, narrow_normal _ normal exp frac, parts]

end Lib.Ieee
