import Mathlib.Algebra.Group.Int.Defs
import Mathlib.Algebra.Group.Nat.Defs
import Mathlib.Data.List.TakeWhile

/-! C strings and fixed character arrays. A string is what stands before its terminator,
so the terminator cannot occur in it; an array is the string filled up with terminators. -/
namespace Lib

structure CStr where
  chars : List Char
  noNul : '\x00' ∉ chars
  deriving DecidableEq, Repr

namespace CStr

@[ext] theorem ext {s t : CStr} (h : s.chars = t.chars) : s = t := by
  cases s
  cases t
  simpa using h

def empty : CStr := ⟨[], by simp⟩

def strlen (s : CStr) : Nat := s.chars.length

def append (s t : CStr) : CStr :=
  ⟨s.chars ++ t.chars, by simp [s.noNul, t.noNul]⟩

/-- The string that a reader finds in a buffer. -/
def read (buffer : List Char) : CStr :=
  ⟨buffer.takeWhile (· != '\x00'), fun h => by simpa using List.mem_takeWhile_imp h⟩

def lit (s : String) : CStr := read s.toList

/-- strncpy of at most `n` characters into a zeroed buffer with room for one more. -/
def cut (n : Nat) (s : CStr) : CStr :=
  ⟨s.chars.take n, fun inside => s.noNul (List.mem_of_mem_take inside)⟩

def drop (n : Nat) (s : CStr) : CStr :=
  ⟨s.chars.drop n, fun inside => s.noNul (List.mem_of_mem_drop inside)⟩

/-- Each conversion takes the next argument, which is its text already. -/
def fill : List Char → List CStr → List Char
  | '%' :: _ :: rest, arg :: args => arg.chars ++ fill rest args
  | c :: rest, args => c :: fill rest args
  | [], _ => []

def sprintf (format : String) (args : List CStr) : CStr := read (fill format.toList args)

/-- The digits at the front of a string, as strtol collects them. -/
def digits (acc : Nat) : List Char → Nat
  | [] => acc
  | c :: rest => if c.isDigit then digits (10 * acc + (c.toNat - '0'.toNat)) rest else acc

def isspace (c : Char) : Bool := c = ' ' || ('\t' ≤ c && c ≤ '\r')

/-- atoi: strtol clamps to 64 bits and the cast keeps the low 32. -/
def atoi (s : CStr) : Int :=
  let signed : Int := match s.chars.dropWhile isspace with
    | '-' :: rest => -(digits 0 rest : Int)
    | '+' :: rest => digits 0 rest
    | rest => digits 0 rest
  (max (-2 ^ 63) (min (2 ^ 63 - 1) signed)).bmod (2 ^ 32)

/-- A field `char name[size]` that was zeroed and then filled by strcpy. -/
def field (size : Nat) (s : CStr) : List Char :=
  s.chars ++ List.replicate (size - s.strlen) '\x00'

theorem chars_plain (s : CStr) {c : Char} (inside : c ∈ s.chars) : (c != '\x00') = true := by
  simpa using fun h : c = '\x00' => s.noNul (h ▸ inside)

@[simp] theorem read_chars (s : CStr) : read s.chars = s := by
  ext1
  exact List.takeWhile_eq_self_iff.mpr fun c inside => s.chars_plain inside

/-- The characters of a literal, which need not be evaluated. -/
theorem chars_lit (l : List Char) : (lit (.ofList l)).chars = l.takeWhile (· != '\x00') := by
  rw [lit, String.toList_ofList, read]

@[simp] theorem read_field (size : Nat) (s : CStr) : read (s.field size) = s := by
  have front : (s.field size).takeWhile (· != '\x00') = s.chars := by
    rw [field, List.takeWhile_append_of_pos fun c inside => s.chars_plain inside]
    cases size - s.strlen <;> simp [List.replicate_succ]
  exact ext front

theorem cut_self {n : Nat} {s : CStr} (short : s.strlen ≤ n) : s.cut n = s :=
  ext (List.take_of_length_le short)

@[simp] theorem fill_nil (format : List Char) : fill format [] = format := by
  induction format with
  | nil => rfl
  | cons c format ih => simp [fill, ih]

theorem fill_append {front : List Char} (plain : '%' ∉ front) (format : List Char)
    (args : List CStr) : fill (front ++ format) args = front ++ fill format args := by
  induction front with
  | nil => rfl
  | cons c front ih =>
    have head : '%' ≠ c := fun same => plain (same ▸ List.mem_cons_self)
    have rest : '%' ∉ front := fun inside => plain (List.mem_cons_of_mem _ inside)
    rw [List.cons_append, fill, ih rest, List.cons_append]
    intro _ _ _ _ _ percent
    exact absurd percent.symm head

/-- The filled field determines the string, whatever the size. -/
theorem field_injective (size : Nat) : Function.Injective (field size) :=
  Function.LeftInverse.injective (read_field size)

def Numeral (text : List Char) (n : Nat) : Prop :=
  text ≠ [] ∧ (∀ c ∈ text, c.isDigit = true) ∧ digits 0 text = n

theorem digits_append {numeral suffix : List Char} (plain : ∀ c ∈ numeral, c.isDigit = true)
    (other : suffix.head?.any Char.isDigit = false) (acc : Nat) :
    digits acc (numeral ++ suffix) = digits acc numeral := by
  induction numeral generalizing acc with
  | nil =>
    cases suffix with
    | nil => rfl
    | cons c suffix =>
      have notDigit : c.isDigit = false := other
      simp [digits, notDigit]
  | cons c numeral ih =>
    have digit := plain c List.mem_cons_self
    have rest := ih fun d inside => plain d (List.mem_cons_of_mem _ inside)
    simp only [List.cons_append, digits, digit, if_true, rest]

theorem digit_plain {c : Char} (digit : c.isDigit = true) :
    isspace c = false ∧ c ≠ '-' ∧ c ≠ '+' := by
  have range : 48 ≤ c.toNat ∧ c.toNat ≤ 57 := by
    simp only [Char.isDigit, Bool.and_eq_true, decide_eq_true_eq, UInt32.le_iff_toNat_le,
      ge_iff_le] at digit
    exact digit
  have apart {d : Char} (outside : d.toNat < 48 ∨ 57 < d.toNat) : c ≠ d := by
    rintro rfl
    omega
  refine ⟨?_, apart (by decide), apart (by decide)⟩
  have blank : c ≠ ' ' := apart (by decide)
  have above : ¬ c ≤ '\r' := by
    intro below
    have small : c.toNat ≤ 13 := below
    omega
  simp [isspace, blank, above]

end CStr

end Lib
