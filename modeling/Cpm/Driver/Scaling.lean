import Cpm.Driver.Answer
import Cpm.Lib.Words

/-! What becomes of a JSON integer on its way to a tag: the conversion to a double, the scaling by
the tag's decimal and the member that `fix_value` leaves, over any arithmetic on doubles. -/
namespace Cpm

open Lib Lib.Words

inductive NumKind where
  | int (signed : Bool) (bytes : Nat)
  | float
  | double
  deriving DecidableEq

def numKind : NeuType → Option NumKind
  | .int8 => some (.int true 1)
  | .uint8 => some (.int false 1)
  | .int16 => some (.int true 2)
  | .uint16 | .word => some (.int false 2)
  | .int32 => some (.int true 4)
  | .uint32 | .dword => some (.int false 4)
  | .int64 => some (.int true 8)
  | .uint64 | .lword => some (.int false 8)
  | .float => some .float
  | .double => some .double
  | .bit | .bool | .string | .bytes | .error | .ptr | .unlisted _ => none

/-- Arithmetic on doubles, with a kind of floats beside them. -/
structure Doubles (D F : Type) where
  isZero : D → Bool
  ofInt : Int → D
  div : D → D → D
  toU64 : D → Nat
  toFloat : D → F

/-- The member of the tag's type, before its bytes are put in order. -/
inductive Written (D F : Type) where
  | int (signed : Bool) (bytes n : Nat)
  | float (x : F)
  | double (x : D)

section
variable {D F : Type} (ops : Doubles D F)

def scaledDouble (decimal x : D) : D := if ops.isZero decimal then x else ops.div x decimal

/-- An integer tag is scaled as a double and converted back. -/
def scaledInt (decimal : D) (u64 : Nat) : Nat :=
  if ops.isZero decimal then u64 else ops.toU64 (ops.div (ops.ofInt u64) decimal)

/-- What `write_tag` makes of the 64 bits of an integer. -/
def written (kind : NumKind) (decimal : D) (u64 : Nat) : Written D F :=
  match kind with
  | .int signed bytes => .int signed bytes (scaledInt ops decimal u64 % 256 ^ bytes)
  | .float => .float (ops.toFloat (scaledDouble ops decimal (ops.ofInt u64)))
  | .double => .double (scaledDouble ops decimal (ops.ofInt u64))

end

/- On the bits of the numbers these are the steps of the request. -/

def FloatOps.doubles (fl : FloatOps) : Doubles Nat Nat :=
  ⟨Ieee.binary64.isZero, fl.ofInt, fl.div, fl.toU64, fl.toFloat⟩

structure FloatOps.Fits (fl : FloatOps) : Prop where
  ofInt : ∀ n, fl.ofInt n < 256 ^ 8
  div : ∀ a b, fl.div a b < 256 ^ 8
  toU64 : ∀ a, fl.toU64 a < 256 ^ 8
  toFloat : ∀ a, fl.toFloat a < 256 ^ 4

def orderWritten (tag : NeuDatatag) (u : ValueU) : ValueU :=
  match tag.type with
  | .int16 | .uint16 | .word =>
    if tag.option.endian = NEU_DATATAG_ENDIAN_B16 then u.swapAt 0 2 else u
  | .int32 | .uint32 | .dword | .float => swap32 u tag.option.endian
  | .int64 | .uint64 | .lword | .double =>
    if tag.option.endian = NEU_DATATAG_ENDIAN_B64 then u.swapAt 0 8 else u
  | _ => u

def NumKind.member (kind : NumKind) (u : ValueU) : Written Nat Nat :=
  match kind with
  | .int signed bytes => .int signed bytes (u.unsigned bytes)
  | .float => .float u.f32
  | .double => .double u.d64

/-- The request hands over a union that has the number at its front, in the tag's byte order. -/
def HandsOver (fl : FloatOps) (tag : NeuDatatag) (kind : NumKind) (value : NeuDvalue)
    (number : Written Nat Nat) : Prop :=
  ∃ fixed u, fixValue fl tag value.type (calTagDecimal fl tag (intToDouble fl tag value)) =
    some fixed ∧ fixed.value = orderWritten tag u ∧ kind.member u = number

section
variable {fl : FloatOps} {tag : NeuDatatag} {kind : NumKind} {value : NeuDvalue}

theorem calTagDecimal_int {signed : Bool} {bytes : Nat} (fits : fl.Fits)
    (numeric : numKind tag.type = some (.int signed bytes)) (integer : value.type = .int64) :
    (calTagDecimal fl tag (intToDouble fl tag value)).value.unsigned 8 =
      scaledInt fl.doubles tag.decimal (value.value.unsigned 8) := by
  have unconverted : intToDouble fl tag value = value := by
    refine if_neg fun converts => ?_
    obtain type | type := converts.1 <;> rw [type] at numeric <;> cases numeric
  have divided : calDecimal fl tag.type value.type value.value tag.decimal =
      value.value.setFront 8
        (fl.toU64 (fl.div (fl.ofInt (value.value.unsigned 8)) tag.decimal)) := by
    cases type : tag.type
    all_goals rw [type] at numeric
    all_goals first
      | exact if_pos (.inl integer)
      | cases numeric
  rw [unconverted, calTagDecimal]
  unfold scaledInt
  split
  · next zero => exact (if_pos zero).symm
  · next scale =>
    rw [divided, ValueU.setFront_unsigned _ _ (by decide), Nat.mod_eq_of_lt (fits.toU64 _)]
    exact (if_neg scale).symm

theorem calTagDecimal_floating (fits : fl.Fits) (floating : tag.type = .float ∨ tag.type = .double)
    (integer : value.type = .int64) :
    (calTagDecimal fl tag (intToDouble fl tag value)).value.d64 =
      scaledDouble fl.doubles tag.decimal (fl.ofInt (value.value.unsigned 8)) := by
  have converted : intToDouble fl tag value =
      { value with value := value.value.setFront 8 (fl.ofInt (value.value.unsigned 8)) } :=
    if_pos ⟨floating, integer⟩
  have front (u : ValueU) {n : Nat} (small : n < 256 ^ 8) : (u.setFront 8 n).d64 = n :=
    (ValueU.setFront_unsigned u n (by decide)).trans (Nat.mod_eq_of_lt small)
  have divided (u : ValueU) : calDecimal fl tag.type value.type u tag.decimal =
      u.setFront 8 (fl.div u.d64 tag.decimal) := by
    obtain type | type := floating <;> rw [type, integer] <;> rfl
  rw [converted, calTagDecimal]
  unfold scaledDouble
  split
  · next zero => exact (front _ (fits.ofInt _)).trans (if_pos zero).symm
  · next scale =>
    simp only [divided]
    rw [front _ (fits.div _ _), front _ (fits.ofInt _)]
    exact (if_neg scale).symm

/-- The member of an integer tag: the low bytes of the scaled number. -/
theorem fixValue_int {signed : Bool} {bytes : Nat} {valueType : NeuType}
    (numeric : numKind tag.type = some (.int signed bytes)) (scaled : NeuDvalue) :
    ∃ fixed u, fixValue fl tag valueType scaled = some fixed ∧ fixed.value = orderWritten tag u ∧
      u.unsigned bytes = scaled.value.unsigned 8 % 256 ^ bytes := by
  have cut (n : Nat) {len : Nat} (fits : 0 + len ≤ 136) :
      (scaled.value.setFront len n).unsigned len = n % 256 ^ len :=
    ValueU.setFront_unsigned scaled.value n fits
  have whole : scaled.value.unsigned 8 = scaled.value.unsigned 8 % 256 ^ 8 :=
    (Nat.mod_eq_of_lt (ValueU.unsigned_lt scaled.value 8)).symm
  unfold fixValue orderWritten
  cases type : tag.type
  all_goals
    rw [type] at numeric
    cases numeric
  case int8 | uint8 => exact ⟨_, _, rfl, rfl, cut _ (by decide)⟩
  case int16 | uint16 | word => exact ⟨_, _, rfl, rfl, cut _ (by decide)⟩
  case int32 | uint32 | dword => exact ⟨_, _, rfl, rfl, cut _ (by decide)⟩
  case int64 | uint64 | lword => exact ⟨_, scaled.value, rfl, rfl, whole⟩

theorem fixValue_written (fits : fl.Fits) (numeric : numKind tag.type = some kind)
    (integer : value.type = .int64) :
    HandsOver fl tag kind value (written fl.doubles kind tag.decimal (value.value.unsigned 8)) := by
  cases kind with
  | int signed bytes =>
    obtain ⟨fixed, u, done, ordered, member⟩ := fixValue_int numeric
      (calTagDecimal fl tag (intToDouble fl tag value))
    refine ⟨fixed, u, done, ordered, ?_⟩
    rw [NumKind.member, member, calTagDecimal_int fits numeric integer, written]
  | float =>
    have type : tag.type = .float := by
      cases type : tag.type <;> rw [type] at numeric <;> cases numeric
    let scaled := calTagDecimal fl tag (intToDouble fl tag value)
    have double : scaled.value.d64 =
        scaledDouble fl.doubles tag.decimal (fl.ofInt (value.value.unsigned 8)) :=
      calTagDecimal_floating fits (.inl type) integer
    let u : ValueU := scaled.value.setFront 4 (fl.toFloat scaled.value.d64)
    have front : u.f32 = fl.toFloat scaled.value.d64 :=
      (ValueU.setFront_unsigned scaled.value _ (by decide)).trans
        (Nat.mod_eq_of_lt (fits.toFloat _))
    refine ⟨⟨.float, swap32 u tag.option.endian, scaled.precision⟩, u, ?_, ?_, ?_⟩
    · simp [fixValue, type, integer, u, scaled]
    · rw [orderWritten, type]
    · rw [NumKind.member, front, double]
      rfl
  | double =>
    have type : tag.type = .double := by
      cases type : tag.type <;> rw [type] at numeric <;> cases numeric
    have scaled := calTagDecimal_floating fits (.inr type) integer
    refine ⟨_, (calTagDecimal fl tag (intToDouble fl tag value)).value, by rw [fixValue, type], ?_, ?_⟩
    · rw [orderWritten, type]
    · rw [NumKind.member, scaled]
      rfl

end

/- Doubles taken as exact rationals. -/

def exactDoubles : Doubles ℚ ℚ where
  isZero x := decide (x = 0)
  ofInt n := n
  div x y := x / y
  toU64 x := (truncate x % 2 ^ 64).toNat
  toFloat := id

def Written.denoted : Written ℚ ℚ → ℚ
  | .int signed bytes n => read signed (256 ^ bytes) n
  | .float x | .double x => x

def NumKind.Holds (kind : NumKind) (x : ℚ) : Prop :=
  match kind with
  | .int signed bytes => ∃ k : Int, x = k ∧ InRange signed (256 ^ bytes) k
  | .float => ∃ bits, Ieee.binary32.special bits = false ∧ Ieee.binary32.value bits = x
  | .double => ∃ bits, Ieee.binary64.special bits = false ∧ Ieee.binary64.value bits = x

def requested (decimal : ℚ) (v : Int) : ℚ := if decimal = 0 then v else v / decimal

def jsonBits (v : Int) : Nat := (v % 2 ^ 64).toNat

def WritesExactly (kind : NumKind) (decimal : ℚ) (v : Int) : Prop :=
  (written exactDoubles kind decimal (jsonBits v)).denoted = requested decimal v

/-- Taken without its sign, an integer does not change, or goes to an integer tag whose word the
scaled 2^64 leaves alone. -/
def KeepsSign (kind : NumKind) (decimal : ℚ) (v : Int) : Prop :=
  0 ≤ v ∨ ∃ signed bytes, kind = .int signed bytes ∧
    (decimal = 0 ∨ (256 ^ bytes : Int) ∣ ⌊(2 ^ 64 : ℚ) / |decimal|⌋)

theorem jsonBits_eq {v : Int} (low : -2 ^ 63 ≤ v) (high : v < 2 ^ 63) :
    (jsonBits v : Int) = if 0 ≤ v then v else v + 2 ^ 64 := by
  unfold jsonBits
  split <;> omega

theorem written_int (signed : Bool) {bytes : Nat} (short : bytes ≤ 8) (decimal : ℚ) (u64 : Nat) :
    (written exactDoubles (.int signed bytes) decimal u64).denoted =
      read signed (256 ^ bytes)
        (if decimal = 0 then u64 else truncate ((u64 : ℚ) / decimal)) := by
  have low (n : Nat) : read signed (256 ^ bytes) (n % 256 ^ bytes : Nat) =
      read signed (256 ^ bytes) n := by
    rw [Int.natCast_emod]
    exact read_of_dvd (dvd_refl _) signed n
  have divides : 256 ^ bytes ∣ 256 ^ 8 := pow_dvd_pow 256 short
  have number : read signed (256 ^ bytes) (scaledInt exactDoubles decimal u64) =
      read signed (256 ^ bytes) (if decimal = 0 then u64 else truncate ((u64 : ℚ) / decimal)) := by
    unfold scaledInt exactDoubles
    by_cases unscaled : decimal = 0
    · simp only [unscaled, decide_true, if_true]
    · simp only [unscaled, decide_false, Bool.false_eq_true, if_false]
      have word (x : Int) : ((x % 2 ^ 64).toNat : Int) = x % (256 ^ 8 : Nat) := by
        rw [Int.toNat_of_nonneg (Int.emod_nonneg x (by norm_num))]
        norm_num
      rw [word]
      exact read_of_dvd divides signed _
  rw [written, Written.denoted, low, number]

/-- The scaled number of a negative integer is off by the scaled 2^64. -/
theorem truncate_negative {decimal : ℚ} {v k : Int} (nonzero : decimal ≠ 0)
    (low : -2 ^ 63 ≤ v) (whole : (v : ℚ) / decimal = k) :
    let off := ⌊(2 ^ 64 : ℚ) / |decimal|⌋
    truncate (((v + 2 ^ 64 : Int) : ℚ) / decimal) - k = off ∨
      truncate (((v + 2 ^ 64 : Int) : ℚ) / decimal) - k = -off := by
  have positive : (0 : ℚ) < ((v + 2 ^ 64 : Int) : ℚ) := by
    exact_mod_cast (by omega : (0 : Int) < v + 2 ^ 64)
  have split : ((v + 2 ^ 64 : Int) : ℚ) / decimal = 2 ^ 64 / decimal + k := by
    rw [← whole]
    push_cast
    ring
  obtain above | below := lt_or_gt_of_ne nonzero.symm
  · left
    have quotient : 0 ≤ 2 ^ 64 / decimal + (k : ℚ) := split ▸ le_of_lt (div_pos positive above)
    rw [split, truncate_add k quotient, abs_of_pos above]
    ring
  · right
    have flipped : 2 ^ 64 / decimal = -((2 ^ 64 : ℚ) / |decimal|) := by
      rw [abs_of_neg below, div_neg, neg_neg]
    have quotient : -((2 ^ 64 : ℚ) / |decimal|) + (k : ℚ) < 0 := by
      rw [← flipped, ← split]
      exact div_neg_of_pos_of_neg positive below
    rw [split, flipped, truncate_sub k quotient]
    ring

theorem writes_int_iff {signed : Bool} {bytes : Nat} (short : bytes ≤ 8) (decimal : ℚ) {v : Int}
    (low : -2 ^ 63 ≤ v) (high : v < 2 ^ 63)
    (holds : (NumKind.int signed bytes).Holds (requested decimal v)) :
    WritesExactly (.int signed bytes) decimal v ↔
      0 ≤ v ∨ decimal = 0 ∨ (256 ^ bytes : Int) ∣ ⌊(2 ^ 64 : ℚ) / |decimal|⌋ := by
  obtain ⟨k, number, inRange⟩ := holds
  have positive : 0 < 256 ^ bytes := Nat.pow_pos (by decide)
  have bits := jsonBits_eq low high
  have modulus : ((256 ^ bytes : Nat) : Int) = 256 ^ bytes := Nat.cast_pow 256 bytes
  rw [WritesExactly, written_int signed short, number, Int.cast_inj,
    read_eq_iff positive inRange, modulus]
  unfold requested at number
  by_cases unscaled : decimal = 0
  · rw [if_pos unscaled, Int.cast_inj] at number
    have divides : (256 ^ bytes : Int) ∣ 2 ^ 64 := by
      have words : (256 ^ bytes : Int) ∣ 256 ^ 8 := pow_dvd_pow 256 short
      norm_num at words ⊢
      exact words
    have wrapped : (256 ^ bytes : Int) ∣ jsonBits v - k := by
      rw [bits, ← number]
      split
      · rw [Int.sub_self]
        exact dvd_zero _
      · rw [add_sub_cancel_left]
        exact divides
    simp only [unscaled, if_true, true_or, or_true, iff_true]
    exact wrapped
  · rw [if_neg unscaled] at number
    rw [if_neg unscaled]
    have cast : ((jsonBits v : Nat) : ℚ) = ((jsonBits v : Int) : ℚ) := (Int.cast_natCast _).symm
    rw [cast, bits]
    by_cases sign : 0 ≤ v
    · rw [if_pos sign, number, truncate_int, Int.sub_self]
      exact ⟨fun _ => .inl sign, fun _ => dvd_zero _⟩
    · rw [if_neg sign]
      have off : (256 ^ bytes : Int) ∣ truncate (((v + 2 ^ 64 : Int) : ℚ) / decimal) - k ↔
          (256 ^ bytes : Int) ∣ ⌊(2 ^ 64 : ℚ) / |decimal|⌋ := by
        obtain same | same := truncate_negative unscaled low number
        · rw [same]
        · rw [same, dvd_neg]
      rw [off]
      exact ⟨fun divides => .inr (.inr divides),
        fun keeps => keeps.elim (absurd · sign) (Or.elim · (absurd · unscaled) id)⟩

theorem writes_floating_iff {kind : NumKind} (floating : kind = .float ∨ kind = .double)
    (decimal : ℚ) {v : Int} (low : -2 ^ 63 ≤ v) (high : v < 2 ^ 63) :
    WritesExactly kind decimal v ↔ 0 ≤ v := by
  have bits := jsonBits_eq low high
  have number : (written exactDoubles kind decimal (jsonBits v)).denoted =
      requested decimal (jsonBits v) := by
    have scaled : scaledDouble exactDoubles decimal ((jsonBits v : Nat) : ℚ) =
        requested decimal (jsonBits v) := by
      by_cases unscaled : decimal = 0 <;> simp [scaledDouble, exactDoubles, requested, unscaled]
    obtain rfl | rfl := floating <;> exact scaled
  have same : requested decimal (jsonBits v) = requested decimal v ↔ (jsonBits v : Int) = v := by
    unfold requested
    split
    · exact Int.cast_inj
    · next scale => rw [div_left_inj' scale, Int.cast_inj]
  rw [WritesExactly, number, same, bits]
  split
  · next sign => exact ⟨fun _ => sign, fun _ => rfl⟩
  · next sign => omega

/-- The request hands over the number as `written` computes it, and taken exactly this is the
number asked for exactly where the missing sign does no harm. -/
theorem write_scaling_iff {tag : NeuDatatag} {kind : NumKind} (numeric : numKind tag.type = some kind)
    (decimal : ℚ) (v : Int) (low : -2 ^ 63 ≤ v) (high : v < 2 ^ 63)
    (holds : kind.Holds (requested decimal v)) :
    (∀ fl value, fl.Fits → value.type = .int64 → value.value.unsigned 8 = jsonBits v →
        HandsOver fl tag kind value (written fl.doubles kind tag.decimal (jsonBits v))) ∧
      (WritesExactly kind decimal v ↔ KeepsSign kind decimal v) := by
  refine ⟨fun fl value fits integer bits => bits ▸ fixValue_written fits numeric integer, ?_⟩
  cases kind with
  | int signed bytes =>
    have short : bytes ≤ 8 := by
      cases type : tag.type <;> rw [type] at numeric <;> cases numeric <;> decide
    rw [writes_int_iff short decimal low high holds, KeepsSign]
    simp
  | float =>
    rw [writes_floating_iff (.inl rfl) decimal low high, KeepsSign]
    simp
  | double =>
    rw [writes_floating_iff (.inr rfl) decimal low high, KeepsSign]
    simp

theorem write_scaling_twenty :
    (∀ fl value, FloatOps.Fits fl → value.type = .int64 → value.value.unsigned 8 = jsonBits 20 →
        HandsOver fl { writeTemp.tag with type := .int16 } (.int true 2) value
          (written fl.doubles (.int true 2) 0 (jsonBits 20))) ∧
      (WritesExactly (.int true 2) 10 20 ↔ KeepsSign (.int true 2) 10 20) := by
  have two : (NumKind.int true 2).Holds (requested 10 20) := by
    refine ⟨2, ?_, ?_⟩
    · norm_num [requested]
    · norm_num [InRange]
  exact @write_scaling_iff { writeTemp.tag with type := .int16 } (.int true 2) rfl 10 20
    (by norm_num) (by norm_num) two

/-- The DOUBLE −1 can be asked for and goes out as 2^64 − 1. -/
theorem minus_one_unsigned : NumKind.double.Holds (requested 0 (-1)) ∧
    ¬ WritesExactly .double 0 (-1) := by
  refine ⟨⟨0xbff0000000000000, by decide +kernel, ?_⟩, fun exact => ?_⟩
  · rw [requested, if_pos rfl]
    decide +kernel
  · have sign := (writes_floating_iff (.inr rfl) 0 (by norm_num) (by norm_num)).1 exact
    exact absurd sign (by norm_num)

end Cpm
