import Cpm.Lib.IeeeCast
import Mathlib.Algebra.Order.Field.Power
import Mathlib.Tactic.Linarith

/-! What the conversions of IEEE numbers do to the values: a number that the other format has is
converted to it exactly. -/
namespace Lib.Ieee

variable (f : Ieee)

def significand (bits : Nat) : Nat :=
  if f.exponent bits = 0 then f.fraction bits else 2 ^ f.fracBits + f.fraction bits

/-- The exponent that counts; the numbers below the normal ones share the smallest. -/
def place (bits : Nat) : Nat := max 1 (f.exponent bits)

def sign (bits : Nat) : Rat := if f.negative bits then -1 else 1

theorem value_eq (bits : Nat) : f.value bits =
    f.sign bits * (f.significand bits * (2 : Rat) ^ ((f.place bits : Int) - f.bias - f.fracBits)) := by
  have magnitude : (if f.exponent bits = 0 then
        (f.fraction bits : Rat) * (2 : Rat) ^ (1 - f.bias - f.fracBits)
      else (2 ^ f.fracBits + f.fraction bits : Nat) *
        (2 : Rat) ^ (f.exponent bits - f.bias - f.fracBits)) =
      f.significand bits * (2 : Rat) ^ ((f.place bits : Int) - f.bias - f.fracBits) := by
    unfold significand place
    by_cases low : f.exponent bits = 0
    · simp [low]
    · have least : max 1 (f.exponent bits) = f.exponent bits := by omega
      rw [if_neg low, if_neg low, least]
  unfold value sign
  rw [magnitude]
  cases f.negative bits
  · simp
  · simp

theorem bias_eq : f.bias = ((2 ^ (f.expBits - 1) - 1 : Nat) : Int) := by
  rw [Nat.cast_pred (Nat.two_pow_pos _), Nat.cast_pow, Nat.cast_ofNat]
  rfl

theorem fraction_lt (bits : Nat) : f.fraction bits < 2 ^ f.fracBits :=
  Nat.mod_lt _ (Nat.two_pow_pos _)

theorem significand_lt (bits : Nat) : f.significand bits < 2 ^ (f.fracBits + 1) := by
  have frac := f.fraction_lt bits
  unfold significand
  rw [Nat.pow_succ]
  split
  · omega
  · omega

theorem abs_value (bits : Nat) : |f.value bits| =
    f.significand bits * (2 : Rat) ^ ((f.place bits : Int) - f.bias - f.fracBits) := by
  have one : |f.sign bits| = 1 := by
    unfold sign
    split
    · norm_num
    · norm_num
  rw [value_eq, abs_mul, one, one_mul, abs_of_nonneg]
  positivity

theorem parts (bits : Nat) (small : bits < 2 ^ (f.fracBits + f.expBits + 1)) :
    f.pack (f.negative bits) (f.exponent bits) (f.fraction bits) = bits := by
  have top : bits / 2 ^ (f.fracBits + f.expBits) % 2 = bits / 2 ^ (f.fracBits + f.expBits) := by
    refine Nat.mod_eq_of_lt (Nat.div_lt_of_lt_mul ?_)
    rwa [Nat.pow_succ] at small
  have high : bits / 2 ^ f.fracBits / 2 ^ f.expBits = bits / 2 ^ (f.fracBits + f.expBits) := by
    rw [Nat.div_div_eq_div_mul, ← Nat.pow_add]
  have first := Nat.div_add_mod bits (2 ^ f.fracBits)
  have second := Nat.div_add_mod (bits / 2 ^ f.fracBits) (2 ^ f.expBits)
  rw [pack, sign_digit, exponent, fraction, top, ← high, Nat.pow_add]
  calc bits / 2 ^ f.fracBits / 2 ^ f.expBits * (2 ^ f.fracBits * 2 ^ f.expBits) +
        bits / 2 ^ f.fracBits % 2 ^ f.expBits * 2 ^ f.fracBits + bits % 2 ^ f.fracBits
      = 2 ^ f.fracBits * (2 ^ f.expBits * (bits / 2 ^ f.fracBits / 2 ^ f.expBits) +
          bits / 2 ^ f.fracBits % 2 ^ f.expBits) + bits % 2 ^ f.fracBits := by ring
    _ = bits := by rw [second, first]

theorem pack_parts (negative : Bool) {e m : Nat} (exp : e < 2 ^ f.expBits)
    (frac : m < 2 ^ f.fracBits) :
    f.negative (f.pack negative e m) = negative ∧ f.exponent (f.pack negative e m) = e ∧
      f.fraction (f.pack negative e m) = m ∧
      f.pack negative e m < 2 ^ (f.fracBits + f.expBits + 1) := by
  have split : f.pack negative e m = (negative.toNat * 2 ^ f.expBits + e) * 2 ^ f.fracBits + m := by
    rw [pack, Nat.pow_add]
    ring
  have low : f.pack negative e m % 2 ^ f.fracBits = m := by
    rw [split, Nat.mul_add_mod_self_right, Nat.mod_eq_of_lt frac]
  have high : f.pack negative e m / 2 ^ f.fracBits = negative.toNat * 2 ^ f.expBits + e := by
    rw [split, Nat.mul_comm, Nat.mul_add_div (Nat.two_pow_pos _), Nat.div_eq_of_lt frac, Nat.add_zero]
  have top : f.pack negative e m / 2 ^ (f.fracBits + f.expBits) = negative.toNat := by
    rw [Nat.pow_add, ← Nat.div_div_eq_div_mul, high, Nat.mul_comm,
      Nat.mul_add_div (Nat.two_pow_pos _), Nat.div_eq_of_lt exp, Nat.add_zero]
  refine ⟨?_, ?_, low, ?_⟩
  · rw [Ieee.negative, top]
    cases negative <;> rfl
  · rw [exponent, high, Nat.mul_add_mod_self_right, Nat.mod_eq_of_lt exp]
  · have bound : negative.toNat < 2 := by cases negative <;> decide
    rw [← top] at bound
    rw [Nat.pow_succ]
    exact (Nat.div_lt_iff_lt_mul (Nat.two_pow_pos _)).1 bound |>.trans_eq (Nat.mul_comm _ _)

/-- Two significands at different places are different numbers, unless both are zero. -/
theorem place_unique {k k' e e' top : Nat} {c : Int} (below : k < 2 * top)
    (least : ∀ other < e', other ≠ 0 → top ≤ k') (positive : e ≠ 0)
    (same : (k : Rat) * (2 : Rat) ^ ((e : Int) - c) = k' * (2 : Rat) ^ ((e' : Int) - c))
    (order : e ≤ e') : e = e' ∧ k = k' := by
  have two : (2 : Rat) ≠ 0 := by norm_num
  obtain ⟨d, rfl⟩ := Nat.exists_eq_add_of_le order
  have split : (2 : Rat) ^ (((e + d : Nat) : Int) - c) = 2 ^ d * (2 : Rat) ^ ((e : Int) - c) := by
    rw [← zpow_natCast, ← zpow_add₀ two]
    congr 1
    push_cast
    ring
  have equal : k = k' * 2 ^ d := by
    rw [split, ← mul_assoc] at same
    have cancelled := mul_right_cancel₀ (zpow_ne_zero _ two) same
    exact_mod_cast cancelled
  cases d with
  | zero => exact ⟨rfl, by simpa using equal⟩
  | succ d =>
    -- The higher one has its hidden bit, so the lower one would be too large.
    have normal := least e (by omega) positive
    have step : 2 ≤ 2 ^ (d + 1) := by
      rw [Nat.pow_succ]
      have := Nat.two_pow_pos d
      omega
    have large : 2 * top ≤ k := by
      calc 2 * top ≤ 2 * k' := Nat.mul_le_mul_left 2 normal
        _ = k' * 2 := Nat.mul_comm _ _
        _ ≤ k' * 2 ^ (d + 1) := Nat.mul_le_mul_left k' step
        _ = k := equal.symm
    omega

theorem significand_normal {bits other : Nat} (above : other < f.place bits) (some : other ≠ 0) :
    2 ^ f.fracBits ≤ f.significand bits := by
  unfold place at above
  unfold significand
  rw [if_neg (by omega)]
  omega

/-- Every number but zero has one sequence of bits. -/
theorem value_injective {a b : Nat} (small : a < 2 ^ (f.fracBits + f.expBits + 1))
    (small' : b < 2 ^ (f.fracBits + f.expBits + 1)) (nonzero : f.value a ≠ 0)
    (same : f.value a = f.value b) : a = b := by
  have positive (bits : Nat) : f.place bits ≠ 0 := by
    unfold place
    omega
  have magnitudes := congrArg abs same
  rw [abs_value, abs_value] at magnitudes
  have bound (bits : Nat) : f.significand bits < 2 * 2 ^ f.fracBits := by
    have lt := f.significand_lt bits
    rwa [Nat.pow_succ, Nat.mul_comm] at lt
  have shifted (bits : Nat) : (f.place bits : Int) - f.bias - f.fracBits =
      (f.place bits : Int) - (f.bias + f.fracBits) := by ring
  rw [shifted, shifted] at magnitudes
  obtain ⟨places, numbers⟩ : f.place a = f.place b ∧ f.significand a = f.significand b := by
    rcases Nat.le_total (f.place a) (f.place b) with order | order
    · exact place_unique (bound a) (fun _ above some => f.significand_normal above some) (positive a)
        magnitudes order
    · obtain ⟨places, numbers⟩ := place_unique (bound b)
        (fun _ above some => f.significand_normal above some) (positive b) magnitudes.symm order
      exact ⟨places.symm, numbers.symm⟩
  have frac := f.fraction_lt a
  have frac' := f.fraction_lt b
  obtain ⟨exponents, fractions⟩ : f.exponent a = f.exponent b ∧ f.fraction a = f.fraction b := by
    unfold place at places
    unfold significand at numbers
    by_cases low : f.exponent a = 0
    · by_cases low' : f.exponent b = 0
      · rw [if_pos low, if_pos low'] at numbers
        exact ⟨low.trans low'.symm, numbers⟩
      · rw [if_pos low, if_neg low'] at numbers
        omega
    · by_cases low' : f.exponent b = 0
      · rw [if_neg low, if_pos low'] at numbers
        omega
      · rw [if_neg low, if_neg low'] at numbers
        omega
  have signs : f.negative a = f.negative b := by
    have values := same
    rw [value_eq, value_eq, places, numbers] at values
    have magnitude : (f.significand b : Rat) *
        (2 : Rat) ^ ((f.place b : Int) - f.bias - f.fracBits) ≠ 0 := by
      intro zero
      refine nonzero (same.trans ?_)
      rw [value_eq, zero, mul_zero]
    have equal := mul_right_cancel₀ magnitude values
    unfold sign at equal
    cases left : f.negative a <;> cases right : f.negative b <;>
      simp only [left, right, if_true, Bool.false_eq_true, if_false] at equal ⊢
    · norm_num at equal
    · norm_num at equal
  rw [← f.parts a small, ← f.parts b small', signs, exponents, fractions]

theorem value_pack (negative : Bool) {e m : Nat} (exp : e < 2 ^ f.expBits)
    (frac : m < 2 ^ f.fracBits) : f.value (f.pack negative e m) =
      (if negative then -1 else 1) * (((if e = 0 then m else 2 ^ f.fracBits + m : Nat) : Rat) *
        (2 : Rat) ^ (((max 1 e : Nat) : Int) - f.bias - f.fracBits)) := by
  obtain ⟨sign', exponent', fraction', _⟩ := f.pack_parts negative exp frac
  rw [value_eq, sign, significand, place, sign', exponent', fraction']

theorem value_pack_zero (negative : Bool) : f.value (f.pack negative 0 0) = 0 := by
  rw [value_pack f negative (Nat.two_pow_pos _) (Nat.two_pow_pos _), if_pos rfl, Nat.cast_zero,
    zero_mul, mul_zero]

theorem value_zero {bits : Nat} (zero : f.value bits = 0) :
    f.exponent bits = 0 ∧ f.fraction bits = 0 := by
  have two : (2 : Rat) ≠ 0 := by norm_num
  have none : f.significand bits = 0 := by
    have magnitude := congrArg abs zero
    rw [abs_value, abs_zero, mul_eq_zero] at magnitude
    obtain nothing | power := magnitude
    · exact_mod_cast nothing
    · exact absurd power (zpow_ne_zero _ two)
  unfold significand at none
  split at none
  · next low => exact ⟨low, none⟩
  · have positive := Nat.two_pow_pos f.fracBits
    omega

theorem value_scaled (k d : Nat) {z w : Int} (powers : d + z = w) :
    ((k * 2 ^ d : Nat) : Rat) * (2 : Rat) ^ z = k * (2 : Rat) ^ w := by
  have two : (2 : Rat) ≠ 0 := by norm_num
  rw [Nat.cast_mul, Nat.cast_pow, Nat.cast_ofNat, mul_assoc, ← zpow_natCast, ← zpow_add₀ two,
    powers]

theorem widen_value {bits : Nat} (finite : binary32.special bits = false) :
    binary64.value (widen bits) = binary32.value bits := by
  have frac := fraction_short bits
  have exp := exponent_short bits
  have plain : binary32.exponent bits ≠ 255 := of_decide_eq_false finite
  have bias : binary64.bias = 1023 := by decide
  have bias' : binary32.bias = 127 := by decide
  have places : ((binary64.fracBits : Nat) : Int) = 52 := rfl
  have places' : ((binary32.fracBits : Nat) : Int) = 23 := rfl
  rw [value_eq binary32, significand, place, sign, bias', places']
  unfold widen
  rw [if_neg plain]
  by_cases normal : binary32.exponent bits = 0
  · rw [if_neg (not_not.2 normal)]
    by_cases zero : binary32.fraction bits = 0
    · rw [if_pos zero, value_pack_zero, if_pos normal, zero, Nat.cast_zero, zero_mul, mul_zero]
    · obtain ⟨top, fits, whole⟩ := subnormal_fits zero frac
      have exponent : (binary32.fraction bits).log2 + 874 < 2 ^ binary64.expBits := by
        have range : 2 ^ binary64.expBits = 2048 := rfl
        omega
      have some : (binary32.fraction bits).log2 + 874 ≠ 0 := Nat.succ_ne_zero _
      have least : max 1 ((binary32.fraction bits).log2 + 874) =
          (binary32.fraction bits).log2 + 874 := by omega
      have hidden : 2 ^ binary64.fracBits + (binary32.fraction bits -
          2 ^ (binary32.fraction bits).log2) * 2 ^ (52 - (binary32.fraction bits).log2) =
          binary32.fraction bits * 2 ^ (52 - (binary32.fraction bits).log2) := whole
      have powers : ((52 - (binary32.fraction bits).log2 : Nat) : Int) +
          (((binary32.fraction bits).log2 + 874 : Nat) - 1023 - 52) = (1 : Nat) - 127 - 23 := by omega
      rw [if_neg zero, value_pack _ _ exponent fits, if_neg some, least, hidden, bias, places,
        if_pos normal, normal, Nat.max_eq_left (Nat.zero_le 1), value_scaled _ _ powers]
  · have exponent : binary32.exponent bits + 896 < 2 ^ binary64.expBits := by
      have range : 2 ^ binary64.expBits = 2048 := rfl
      omega
    have fits : binary32.fraction bits * 2 ^ 29 < 2 ^ binary64.fracBits := by
      have range : 2 ^ binary64.fracBits = 2 ^ 52 := rfl
      omega
    have some : binary32.exponent bits + 896 ≠ 0 := Nat.succ_ne_zero _
    have least : max 1 (binary32.exponent bits + 896) = binary32.exponent bits + 896 := by omega
    have least' : max 1 (binary32.exponent bits) = binary32.exponent bits := by omega
    have hidden : 2 ^ binary64.fracBits + binary32.fraction bits * 2 ^ 29 =
        (2 ^ binary32.fracBits + binary32.fraction bits) * 2 ^ 29 := by
      have range : 2 ^ binary64.fracBits = 2 ^ 23 * 2 ^ 29 := rfl
      have range' : 2 ^ binary32.fracBits = 2 ^ 23 := rfl
      rw [range, range', Nat.add_mul]
    have powers : ((29 : Nat) : Int) + ((binary32.exponent bits + 896 : Nat) - 1023 - 52) =
        (binary32.exponent bits : Nat) - 127 - 23 := by omega
    rw [if_pos normal, value_pack _ _ exponent fits, if_neg some, least, hidden, bias, places,
      if_neg normal, least', value_scaled _ _ powers]

def Represents (f : Ieee) (bits : Nat) (q : Rat) : Prop :=
  bits < 2 ^ (f.fracBits + f.expBits + 1) ∧ f.special bits = false ∧ f.value bits = q

def Has (f : Ieee) (q : Rat) : Prop := ∃ bits, f.Represents bits q

theorem widen_represents {bits : Nat} {q : Rat} (short : binary32.Represents bits q) :
    binary64.Represents (widen bits) q := by
  obtain ⟨_, finite, rfl⟩ := short
  exact ⟨widen_lt bits, (special_widen bits).trans finite, widen_value finite⟩

/-- A long number that is also a short one is cut to it. -/
theorem narrow_represents {bits : Nat} {q : Rat} (long : binary64.Represents bits q)
    (has : binary32.Has q) : binary32.Represents (narrow bits) q := by
  obtain ⟨small, _, rfl⟩ := long
  obtain ⟨short, represents⟩ := has
  by_cases zero : binary64.value bits = 0
  · obtain ⟨exponent, fraction⟩ := binary64.value_zero zero
    have packed := binary64.parts bits small
    rw [exponent, fraction] at packed
    have cut : narrow bits = binary32.pack (binary64.negative bits) 0 0 := by
      rw [← packed, narrow_zero, packed, pack, Nat.zero_mul, Nat.add_zero]
      rfl
    obtain ⟨_, exponent', _, bound⟩ :=
      binary32.pack_parts (binary64.negative bits) (Nat.two_pow_pos _) (Nat.two_pow_pos _)
    refine ⟨cut ▸ bound, ?_, ?_⟩
    · rw [cut, special, exponent']
      rfl
    · rw [cut, zero, value_pack_zero]
  · obtain ⟨small', finite', same'⟩ := represents
    have same : binary64.value bits = binary64.value (widen short) := by
      rw [widen_value finite', same']
    have long : bits = widen short := binary64.value_injective small (widen_lt short) zero same
    have back : narrow bits = short := by rw [long, narrow_widen small' finite']
    exact back ▸ ⟨small', finite', same'⟩

/- Integers. -/

section
variable {f} {n : Int} {q : Nat}

/-- The digits of an integer that the format has fit in a fraction, and its place in the exponent. -/
theorem integer_digits {bits : Nat} (wide : 1 < f.expBits) (finite : f.special bits = false)
    (same : f.value bits = n) (nonzero : n ≠ 0) :
    n.natAbs.log2 + (2 ^ (f.expBits - 1) - 1) < 2 ^ f.expBits - 1 ∧
      ∃ q, n.natAbs * 2 ^ f.fracBits = q * 2 ^ n.natAbs.log2 := by
  have two : (2 : Rat) ≠ 0 := by norm_num
  have bias := f.bias_eq
  have place : f.place bits < 2 ^ f.expBits - 1 := by
    have below : f.exponent bits < 2 ^ f.expBits := Nat.mod_lt _ (Nat.two_pow_pos _)
    have plain : f.exponent bits ≠ 2 ^ f.expBits - 1 := of_decide_eq_false finite
    have four : 2 ^ 2 ≤ 2 ^ f.expBits := Nat.pow_le_pow_right (by decide) wide
    unfold Ieee.place
    omega
  have absolute : (n.natAbs : Rat) =
      f.significand bits * (2 : Rat) ^ ((f.place bits : Int) - f.bias - f.fracBits) := by
    rw [← abs_value, same, Nat.cast_natAbs, Int.cast_abs]
  have order : n.natAbs.log2 + (2 ^ (f.expBits - 1) - 1) ≤ f.place bits := by
    have low : ((2 ^ n.natAbs.log2 : Nat) : Rat) ≤ n.natAbs :=
      Nat.cast_le.2 (Nat.log2_self_le (Int.natAbs_ne_zero.2 nonzero))
    have high : (f.significand bits : Rat) < (2 ^ (f.fracBits + 1) : Nat) :=
      Nat.cast_lt.2 (f.significand_lt bits)
    have between : (2 : Rat) ^ (n.natAbs.log2 : Int) <
        (2 : Rat) ^ (((f.fracBits + 1 : Nat) : Int) +
          ((f.place bits : Int) - f.bias - f.fracBits)) := by
      rw [zpow_add₀ two, zpow_natCast, zpow_natCast]
      rw [Nat.cast_pow, Nat.cast_ofNat] at low high
      rw [absolute] at low
      refine low.trans_lt (mul_lt_mul_of_pos_right high ?_)
      positivity
    have exponents := (zpow_lt_zpow_iff_right₀ (by norm_num : (1 : Rat) < 2)).1 between
    omega
  obtain ⟨d, above⟩ := Nat.exists_eq_add_of_le order
  refine ⟨by omega, f.significand bits * 2 ^ d, ?_⟩
  have powers : (f.fracBits : Int) + ((f.place bits : Int) - f.bias - f.fracBits) =
      (d + n.natAbs.log2 : Nat) := by omega
  have scaled : ((n.natAbs * 2 ^ f.fracBits : Nat) : Rat) =
      (f.significand bits * 2 ^ d * 2 ^ n.natAbs.log2 : Nat) := by
    calc ((n.natAbs * 2 ^ f.fracBits : Nat) : Rat)
        = f.significand bits * ((2 : Rat) ^ (f.fracBits : Int) *
            (2 : Rat) ^ ((f.place bits : Int) - f.bias - f.fracBits)) := by
          rw [Nat.cast_mul, absolute, Nat.cast_pow, Nat.cast_ofNat, zpow_natCast]
          ring
      _ = f.significand bits * (2 : Rat) ^ (d + n.natAbs.log2) := by
          rw [← zpow_add₀ two, powers, zpow_natCast]
      _ = _ := by
          rw [pow_add]
          push_cast
          ring
  exact_mod_cast scaled

/-- Nothing is rounded where the digits fit. -/
theorem ofInteger_pack (wide : 1 < f.expBits) (nonzero : n ≠ 0)
    (digits : n.natAbs * 2 ^ f.fracBits = q * 2 ^ n.natAbs.log2) :
    2 ^ f.fracBits ≤ q ∧ q < 2 ^ f.fracBits + 2 ^ f.fracBits ∧
      ofInteger f n = f.pack (decide (n < 0)) (n.natAbs.log2 + (2 ^ (f.expBits - 1) - 1))
        (q - 2 ^ f.fracBits) := by
  have positive := Nat.two_pow_pos n.natAbs.log2
  have low : 2 ^ n.natAbs.log2 ≤ n.natAbs := Nat.log2_self_le (Int.natAbs_ne_zero.2 nonzero)
  have high : n.natAbs < 2 ^ n.natAbs.log2 * 2 := by
    have lt : n.natAbs < 2 ^ (n.natAbs.log2 + 1) := Nat.lt_log2_self
    rwa [Nat.pow_succ] at lt
  have hidden : 2 ^ f.fracBits ≤ q := by
    refine Nat.le_of_mul_le_mul_right ?_ positive
    rw [← digits, Nat.mul_comm]
    exact Nat.mul_le_mul_right _ low
  have short : q < 2 ^ f.fracBits + 2 ^ f.fracBits := by
    refine Nat.lt_of_mul_lt_mul_right (a := 2 ^ n.natAbs.log2) ?_
    rw [← digits, ← Nat.mul_two, Nat.mul_assoc, Nat.mul_comm]
    refine Nat.mul_lt_mul_of_pos_left ?_ (Nat.two_pow_pos _)
    rwa [Nat.mul_comm 2]
  have half : 2 ≤ 2 ^ (f.expBits - 1) :=
    Nat.pow_le_pow_right (n := 2) (i := 1) (by decide) (by omega)
  have next : n.natAbs.log2 + (2 ^ (f.expBits - 1) - 1) =
      n.natAbs.log2 + (2 ^ (f.expBits - 1) - 2) + 1 := by omega
  -- The hidden bit of the digits is carried into the exponent.
  have carried (sign : Nat) : sign + (n.natAbs.log2 + (2 ^ (f.expBits - 1) - 2)) * 2 ^ f.fracBits + q =
      sign + (n.natAbs.log2 + (2 ^ (f.expBits - 1) - 1)) * 2 ^ f.fracBits + (q - 2 ^ f.fracBits) := by
    rw [next, Nat.add_mul _ 1]
    omega
  refine ⟨hidden, short, ?_⟩
  unfold ofInteger
  rw [if_neg nonzero, pack, ← carried]
  split
  · next fits =>
    have whole : n.natAbs * 2 ^ (f.fracBits - n.natAbs.log2) = q := by
      refine Nat.eq_of_mul_eq_mul_right positive ?_
      rw [Nat.mul_assoc, ← Nat.pow_add, Nat.sub_add_cancel fits, digits]
    rw [whole]
  · next long =>
    have whole : n.natAbs = q * 2 ^ (n.natAbs.log2 - f.fracBits) := by
      refine Nat.eq_of_mul_eq_mul_right (Nat.two_pow_pos f.fracBits) ?_
      rw [Nat.mul_assoc, ← Nat.pow_add, Nat.sub_add_cancel (by omega), digits]
    have rounded : roundShift n.natAbs (n.natAbs.log2 - f.fracBits) = q := by
      have exact := roundShift_exact q (n.natAbs.log2 - f.fracBits)
      rwa [← whole] at exact
    rw [rounded]

/-- An integer that the format has is converted to it. -/
theorem ofInteger_represents (wide : 1 < f.expBits) (has : f.Has n) :
    f.Represents (ofInteger f n) n := by
  obtain ⟨bits, _, finite, same⟩ := has
  by_cases zero : n = 0
  · have none : ofInteger f n = f.pack false 0 0 := by
      rw [ofInteger, if_pos zero, pack]
      simp
    obtain ⟨_, exponent, _, bound⟩ :=
      f.pack_parts false (Nat.two_pow_pos f.expBits) (Nat.two_pow_pos f.fracBits)
    have top : 2 ≤ 2 ^ f.expBits := Nat.pow_le_pow_right (n := 2) (i := 1) (by decide) (by omega)
    refine ⟨none ▸ bound, ?_, ?_⟩
    · rw [none, special, exponent]
      exact decide_eq_false (by omega)
    · rw [none, value_pack_zero, zero, Int.cast_zero]
  · obtain ⟨range, q, digits⟩ := integer_digits wide finite same zero
    obtain ⟨hidden, short, packed⟩ := ofInteger_pack wide zero digits
    have exp : n.natAbs.log2 + (2 ^ (f.expBits - 1) - 1) < 2 ^ f.expBits := by omega
    have frac : q - 2 ^ f.fracBits < 2 ^ f.fracBits := by omega
    obtain ⟨_, exponent, _, bound⟩ := f.pack_parts (decide (n < 0)) exp frac
    have half : 2 ≤ 2 ^ (f.expBits - 1) :=
      Nat.pow_le_pow_right (n := 2) (i := 1) (by decide) (by omega)
    have some : n.natAbs.log2 + (2 ^ (f.expBits - 1) - 1) ≠ 0 := by omega
    have least : max 1 (n.natAbs.log2 + (2 ^ (f.expBits - 1) - 1)) =
        n.natAbs.log2 + (2 ^ (f.expBits - 1) - 1) := by omega
    have bias := f.bias_eq
    have powers : (f.fracBits : Int) + (((n.natAbs.log2 + (2 ^ (f.expBits - 1) - 1) : Nat) : Int) -
        f.bias - f.fracBits) = n.natAbs.log2 := by omega
    have two : (2 : Rat) ≠ 0 := by norm_num
    have magnitude : (q : Rat) * (2 : Rat) ^
        (((n.natAbs.log2 + (2 ^ (f.expBits - 1) - 1) : Nat) : Int) - f.bias - f.fracBits) =
        n.natAbs := by
      refine mul_right_cancel₀ (pow_ne_zero f.fracBits two) ?_
      rw [mul_assoc, mul_comm (_ ^ _), ← zpow_natCast, ← zpow_add₀ two, powers, zpow_natCast,
        zpow_natCast]
      exact_mod_cast digits.symm
    refine ⟨packed ▸ bound, ?_, ?_⟩
    · rw [packed, special, exponent]
      exact decide_eq_false (by omega)
    · rw [packed, value_pack _ _ exp frac, if_neg some, least, Nat.add_sub_cancel' hidden, magnitude]
      rcases lt_or_ge n 0 with below | above
      · rw [if_pos (decide_eq_true below), Nat.cast_natAbs, abs_of_neg below]
        push_cast
        ring
      · rw [if_neg (by simpa using above), Nat.cast_natAbs, abs_of_nonneg above, one_mul]

end

end Lib.Ieee
