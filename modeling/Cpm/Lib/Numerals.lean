import Cpm.Lib.CString
import Mathlib.Tactic.Common

/-! The numerals that `strtoumax` reads in base ten: blanks, a sign and digits, in 64 bits. -/
namespace Lib

namespace CStr

def uintmaxMax : Nat := 2 ^ 64 - 1

/-- The result, how many characters are in front of the end pointer, and whether errno is set to
ERANGE. -/
structure Conversion where
  value : Nat
  stop : Nat
  outOfRange : Bool
  deriving DecidableEq, Repr

def splitSign : List Char → List Char × List Char
  | '-' :: rest => (['-'], rest)
  | '+' :: rest => (['+'], rest)
  | rest => ([], rest)

/-- A minus negates in the unsigned type. -/
def negated (sign : List Char) (n : Nat) : Nat :=
  if sign = ['-'] then (2 ^ 64 - n) % 2 ^ 64 else n

def strtoumax (text : List Char) : Conversion :=
  let unsigned := splitSign (text.dropWhile isspace)
  let numeral := unsigned.2.takeWhile Char.isDigit
  if numeral = [] then ⟨0, 0, false⟩
  else
    let stop := (text.takeWhile isspace).length + unsigned.1.length + numeral.length
    if 2 ^ 64 ≤ digits 0 numeral then ⟨uintmaxMax, stop, true⟩
    else ⟨negated unsigned.1 (digits 0 numeral), stop, false⟩

/-- Blanks, a sign and a numeral in the range of the type make this number. -/
def Spelling (text : List Char) (v : Nat) : Prop :=
  ∃ blanks sign numeral n, text = blanks ++ (sign ++ numeral) ∧
    (∀ c ∈ blanks, isspace c = true) ∧ (sign = [] ∨ sign = ['+'] ∨ sign = ['-']) ∧
    Numeral numeral n ∧ n < 2 ^ 64 ∧ v = negated sign n

theorem span_append {p : Char → Bool} {front rest : List Char} (all : ∀ c ∈ front, p c = true)
    (other : rest.head?.any p = false) :
    (front ++ rest).takeWhile p = front ∧ (front ++ rest).dropWhile p = rest := by
  rw [List.takeWhile_append_of_pos all, List.dropWhile_append_of_pos all]
  cases rest with
  | nil => simp
  | cons c rest =>
    have stops : p c = false := other
    simp [stops]

theorem dropWhile_other (p : Char → Bool) (text : List Char) :
    (text.dropWhile p).head?.any p = false := by
  induction text with
  | nil => rfl
  | cons c text ih =>
    rw [List.dropWhile_cons]
    split
    · exact ih
    · rename_i stops
      simpa using stops

theorem splitSign_whole (text : List Char) :
    (splitSign text).1 ++ (splitSign text).2 = text ∧
      ((splitSign text).1 = [] ∨ (splitSign text).1 = ['+'] ∨ (splitSign text).1 = ['-']) := by
  unfold splitSign
  split <;> simp

theorem splitSign_append {sign numeral : List Char} (rest : List Char)
    (one : sign = [] ∨ sign = ['+'] ∨ sign = ['-']) (nonempty : numeral ≠ [])
    (plain : ∀ c ∈ numeral, c.isDigit = true) :
    splitSign (sign ++ (numeral ++ rest)) = (sign, numeral ++ rest) := by
  rcases one with rfl | rfl | rfl
  · obtain ⟨c, more, rfl⟩ := List.exists_cons_of_ne_nil nonempty
    obtain ⟨-, noMinus, noPlus⟩ := digit_plain (plain c List.mem_cons_self)
    simp [splitSign, noMinus, noPlus]
  · rfl
  · rfl

/-- A text in front of something that is no digit, read back. -/
theorem strtoumax_append {blanks sign numeral rest : List Char}
    (spaces : ∀ c ∈ blanks, isspace c = true) (one : sign = [] ∨ sign = ['+'] ∨ sign = ['-'])
    (nonempty : numeral ≠ []) (plain : ∀ c ∈ numeral, c.isDigit = true)
    (other : rest.head?.any Char.isDigit = false) :
    strtoumax (blanks ++ (sign ++ (numeral ++ rest))) =
      if 2 ^ 64 ≤ digits 0 numeral then
        ⟨uintmaxMax, (blanks ++ (sign ++ numeral)).length, true⟩
      else ⟨negated sign (digits 0 numeral), (blanks ++ (sign ++ numeral)).length, false⟩ := by
  have solid : (sign ++ (numeral ++ rest)).head?.any isspace = false := by
    rcases one with rfl | rfl | rfl
    · obtain ⟨c, more, rfl⟩ := List.exists_cons_of_ne_nil nonempty
      simpa using (digit_plain (plain c List.mem_cons_self)).1
    · rfl
    · rfl
  have front := span_append spaces solid
  have run := (span_append plain other).1
  simp only [strtoumax, front.2, splitSign_append rest one nonempty plain, run, nonempty, if_false,
    front.1, List.length_append, Nat.add_assoc]

theorem strtoumax_parts {text : List Char} (moved : (strtoumax text).stop ≠ 0) :
    ∃ blanks sign numeral rest, text = blanks ++ (sign ++ (numeral ++ rest)) ∧
      (∀ c ∈ blanks, isspace c = true) ∧ (sign = [] ∨ sign = ['+'] ∨ sign = ['-']) ∧
      numeral ≠ [] ∧ (∀ c ∈ numeral, c.isDigit = true) ∧
      rest.head?.any Char.isDigit = false := by
  obtain ⟨whole, one⟩ := splitSign_whole (text.dropWhile isspace)
  refine ⟨text.takeWhile isspace, (splitSign (text.dropWhile isspace)).1,
    (splitSign (text.dropWhile isspace)).2.takeWhile Char.isDigit,
    (splitSign (text.dropWhile isspace)).2.dropWhile Char.isDigit, ?_,
    fun c inside => List.mem_takeWhile_imp inside, one, ?_,
    fun c inside => List.mem_takeWhile_imp inside, dropWhile_other _ _⟩
  · rw [List.takeWhile_append_dropWhile, whole, List.takeWhile_append_dropWhile]
  · intro none
    exact moved (by simp [strtoumax, none])

/-- The numbers that are read from a text up to its end, if no digit follows. -/
theorem strtoumax_iff {text rest : List Char} (nonempty : text ≠ [])
    (other : rest.head?.any Char.isDigit = false) (v : Nat) :
    strtoumax (text ++ rest) = ⟨v, text.length, false⟩ ↔ Spelling text v := by
  constructor
  · intro read
    have moved : (strtoumax (text ++ rest)).stop ≠ 0 := by
      rw [read]
      exact fun empty => nonempty (List.length_eq_zero_iff.mp empty)
    obtain ⟨blanks, sign, numeral, more, whole, spaces, one, some, plain, ends⟩ :=
      strtoumax_parts moved
    rw [whole, strtoumax_append spaces one some plain ends] at read
    split at read
    · cases (Conversion.mk.inj read).2.2
    · rename_i small
      obtain ⟨value, stop, -⟩ := Conversion.mk.inj read
      have same : text = blanks ++ (sign ++ numeral) := by
        have regroup : text ++ rest = (blanks ++ (sign ++ numeral)) ++ more := by simp [whole]
        exact (List.append_inj regroup stop.symm).1
      exact ⟨blanks, sign, numeral, _, same, spaces, one, ⟨some, plain, rfl⟩, by omega, value.symm⟩
  · rintro ⟨blanks, sign, numeral, n, rfl, spaces, one, ⟨some, plain, rfl⟩, small, rfl⟩
    rw [List.append_assoc, List.append_assoc, strtoumax_append spaces one some plain other,
      if_neg (by omega)]

theorem strtoumax_outOfRange {text : List Char} (out : (strtoumax text).outOfRange = true) :
    (strtoumax text).value = uintmaxMax := by
  rw [strtoumax] at out ⊢
  split at out
  · cases out
  · rename_i some
    simp only [some, if_false] at out ⊢
    split at out
    · rename_i large
      rw [if_pos large]
    · cases out

theorem negated_le (sign : List Char) {n : Nat} (small : n < 2 ^ 64) :
    negated sign n ≤ uintmaxMax := by
  rw [negated, uintmaxMax]
  split <;> omega

theorem Spelling.le {text : List Char} {v : Nat} (spelling : Spelling text v) : v ≤ uintmaxMax := by
  obtain ⟨_, sign, _, n, _, _, _, _, small, rfl⟩ := spelling
  exact negated_le sign small

theorem Spelling.nonempty {text : List Char} {v : Nat} (spelling : Spelling text v) : text ≠ [] := by
  obtain ⟨blanks, sign, numeral, _, rfl, _, _, number, _, _⟩ := spelling
  simp [number.1]

theorem Spelling.chars {text : List Char} {v : Nat} (spelling : Spelling text v) :
    ∀ c ∈ text, isspace c = true ∨ c = '+' ∨ c = '-' ∨ c.isDigit = true := by
  obtain ⟨blanks, sign, numeral, _, rfl, spaces, one, number, _, _⟩ := spelling
  intro c inside
  rcases List.mem_append.mp inside with blank | inside
  · exact .inl (spaces c blank)
  · rcases List.mem_append.mp inside with signed | digit
    · rcases one with rfl | rfl | rfl
      · cases signed
      · exact .inr (.inl (List.mem_singleton.mp signed))
      · exact .inr (.inr (.inl (List.mem_singleton.mp signed)))
    · exact .inr (.inr (.inr (number.2.1 c digit)))

/-- Among the texts without a blank and without a sign the numbers are the numerals. -/
theorem spelling_digits {text : List Char} (plain : ∀ c ∈ text, c.isDigit = true) (v : Nat) :
    Spelling text v ↔ Numeral text v ∧ v ≤ uintmaxMax := by
  constructor
  · intro spelling
    refine ⟨?_, spelling.le⟩
    obtain ⟨blanks, sign, numeral, n, rfl, spaces, one, number, small, rfl⟩ := spelling
    have noBlank : blanks = [] := by
      rw [List.eq_nil_iff_forall_not_mem]
      intro c inside
      have digit := plain c (List.mem_append_left _ inside)
      exact absurd (spaces c inside) (by simp [(digit_plain digit).1])
    have noSign : sign = [] := by
      rcases one with empty | rfl | rfl
      · exact empty
      · exact absurd (plain '+' (by simp)) (by decide)
      · exact absurd (plain '-' (by simp)) (by decide)
    subst noBlank noSign
    simpa [negated] using number
  · rintro ⟨number, small⟩
    exact ⟨[], [], text, v, rfl, by simp, .inl rfl, number, by rw [uintmaxMax] at small; omega,
      by simp [negated]⟩

end CStr

end Lib
