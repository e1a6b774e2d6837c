import Mathlib.Data.List.Basic
import Mathlib.Logic.Function.Basic

/-! The layouts of texts in registers, from `tag.c`: bytes swapped in pairs, or spread with a zero
beside each. -/
namespace Cpm

/- Bytes swapped in pairs. -/

def htolLoop (len i : Nat) (str : Nat → UInt8) : (Nat → UInt8) × List Nat :=
  if i < len then
    let swapped := Function.update (Function.update str i (str (i + 1))) (i + 1) (str i)
    let further := htolLoop len (i + 2) swapped
    (further.1, i :: (i + 1) :: further.2)
  else (str, [])
termination_by len - i

structure Converted where
  str : Nat → UInt8
  result : Int
  touched : List Nat

def neuDatatagStringHtol (str : Nat → UInt8) (len : Int) : Converted :=
  let swapped := htolLoop len.toNat 0 str
  ⟨swapped.1, len, swapped.2⟩

/- Bytes spread over a buffer. -/

def stringIn (buffer : List UInt8) : List UInt8 := buffer.takeWhile (· ≠ 0)

def clear (str : List UInt8) (n : Nat) : List UInt8 :=
  List.replicate (min n str.length) 0 ++ str.drop n

/-- What is shorter than `n` is filled up with zeros. -/
def strncpy (str source : List UInt8) (n : Nat) : List UInt8 :=
  let copied := (stringIn source).take n
  copied ++ List.replicate (n - copied.length) 0 ++ str.drop n

/-- Every second byte from `offset` on. What lies behind the buffer is unknown and stands as zeros. -/
def gathered (offset : Nat) (str : List UInt8) (len : Nat) : List UInt8 :=
  (List.range len).map fun i => str.getD (i * 2 + offset) 0

/-- `neu_datatag_string_etoh` and `neu_datatag_string_dtoh`, for lengths that are not negative. -/
def gatherString (offset : Nat) (str : List UInt8) (len : Int) : List UInt8 × Int :=
  let t := gathered offset str len.toNat
  let cleared := clear str len.toNat
  (strncpy cleared t (stringIn cleared).length, len.tdiv 2)

def neuDatatagStringEtoh : List UInt8 → Int → List UInt8 × Int := gatherString 0

def neuDatatagStringDtoh : List UInt8 → Int → List UInt8 × Int := gatherString 1

def spreadLoop (offset : Nat) (t : List UInt8) : Nat → List UInt8 → List UInt8
  | 0, str => str
  | i + 1, str => (spreadLoop offset t i str).set (i * 2 + offset) (t.getD i 0)

/-- `neu_datatag_string_toe` and `neu_datatag_string_tod`. The assertion, which ends the program, is
left out of builds with `NDEBUG`. -/
def spreadString (offset : Nat) (ndebug : Bool) (str : List UInt8) (len bufLen : Int) :
    Option (List UInt8 × Int) :=
  if ndebug = true ∨ len * 2 < len then
    some (spreadLoop offset (stringIn str) len.toNat (clear str bufLen.toNat), len * 2)
  else none

def neuDatatagStringToe : Bool → List UInt8 → Int → Int → Option (List UInt8 × Int) := spreadString 0

def neuDatatagStringTod : Bool → List UInt8 → Int → Int → Option (List UInt8 × Int) := spreadString 1

/-- The string of the buffer and its length come back. -/
def LayoutRoundTrip (spread : List UInt8 → Int → Int → Option (List UInt8 × Int))
    (gather : List UInt8 → Int → List UInt8 × Int) (buffer : List UInt8) : Prop :=
  ∃ str n, spread buffer (stringIn buffer).length buffer.length = some (str, n) ∧
    stringIn (gather str n).1 = stringIn buffer ∧ (gather str n).2 = (stringIn buffer).length

/-- The second time undoes the first, and only the bytes in front of `len` are touched. -/
def SwapsBack (str : Nat → UInt8) (len : Int) : Prop :=
  (neuDatatagStringHtol (neuDatatagStringHtol str len).str len).str = str ∧
    ∀ k ∈ (neuDatatagStringHtol str len).touched, (k : Int) < len

/- What the swap does to each byte. -/

def partner (k : Nat) : Nat := if k % 2 = 0 then k + 1 else k - 1

theorem htolLoop_at (len i : Nat) (str : Nat → UInt8) (even : i % 2 = 0) (k : Nat) :
    (htolLoop len i str).1 k = if i ≤ k ∧ k - k % 2 < len then str (partner k) else str k := by
  fun_induction htolLoop len i str with
  | case1 i str below swapped further ih =>
    have there := ih (by omega)
    have first : swapped i = str (i + 1) := by
      simp [swapped]
    have second : swapped (i + 1) = str i := by
      simp [swapped]
    have other (j : Nat) (apart : j ≠ i ∧ j ≠ i + 1) : swapped j = str j := by
      simp only [swapped]
      rw [Function.update_of_ne apart.2, Function.update_of_ne apart.1]
    have later : partner k = if k % 2 = 0 then k + 1 else k - 1 := rfl
    change (htolLoop len (i + 2) swapped).1 k = _
    rw [there]
    by_cases here : k = i
    · subst here
      rw [if_neg (by omega), if_pos (by omega), first, partner, if_pos even]
    by_cases next : k = i + 1
    · subst next
      rw [if_neg (by omega), if_pos (by omega), second, partner, if_neg (by omega),
        Nat.add_sub_cancel]
    by_cases inside : i + 2 ≤ k ∧ k - k % 2 < len
    · rw [if_pos inside, if_pos (by omega), other]
      rw [later]
      split <;> omega
    · rw [if_neg inside, if_neg (by omega), other k ⟨here, next⟩]
  | case2 i str outside =>
    rw [if_neg (by omega)]

theorem htolLoop_touched (len i : Nat) (str : Nat → UInt8) (even : i % 2 = 0) (k : Nat) :
    k ∈ (htolLoop len i str).2 ↔ i ≤ k ∧ k - k % 2 < len := by
  fun_induction htolLoop len i str with
  | case1 i str below swapped further ih =>
    have there := ih (by omega)
    simp only [List.mem_cons, further, there]
    omega
  | case2 i str outside =>
    simp only [List.not_mem_nil, false_iff]
    omega

/-- Two swaps cancel, whatever the length. -/
theorem htol_htol (str : Nat → UInt8) (len : Int) :
    (neuDatatagStringHtol (neuDatatagStringHtol str len).str len).str = str := by
  have at' (str : Nat → UInt8) (k : Nat) : (neuDatatagStringHtol str len).str k =
      if 0 ≤ k ∧ k - k % 2 < len.toNat then str (partner k) else str k :=
    htolLoop_at len.toNat 0 str rfl k
  have pair (k : Nat) : partner k - partner k % 2 = k - k % 2 ∧ partner (partner k) = k := by
    unfold partner
    split
    · next even =>
      rw [if_neg (by omega)]
      omega
    · next odd =>
      rw [if_pos (by omega)]
      omega
  funext k
  obtain ⟨start, back⟩ := pair k
  rw [at']
  by_cases inside : 0 ≤ k ∧ k - k % 2 < len.toNat
  · rw [if_pos inside, at', start, if_pos ⟨Nat.zero_le _, inside.2⟩, back]
  · rw [if_neg inside, at', if_neg inside]

theorem swapsBack_iff (str : Nat → UInt8) (len : Int) :
    SwapsBack str len ↔ len ≤ 0 ∨ len % 2 = 0 := by
  have touched (k : Nat) : k ∈ (neuDatatagStringHtol str len).touched ↔
      0 ≤ k ∧ k - k % 2 < len.toNat := htolLoop_touched len.toNat 0 str rfl k
  unfold SwapsBack
  rw [and_iff_right (htol_htol str len)]
  simp only [touched]
  constructor
  · intro within
    by_contra odd
    -- The last pair of an odd length has its second byte behind the length.
    have last := within len.toNat (by omega)
    omega
  · intro even k inside
    omega

/- What is left of a string. -/

theorem clear_start (str : List UInt8) {n : Nat} (positive : 0 < n) : stringIn (clear str n) = [] := by
  cases str with
  | nil => simp [clear, stringIn]
  | cons b rest =>
    cases n with
    | zero => exact absurd positive (Nat.lt_irrefl 0)
    | succ n =>
      rw [clear, List.length_cons, Nat.succ_min_succ, List.replicate_succ]
      rfl

theorem clear_nothing (str : List UInt8) : clear str 0 = str := by
  simp [clear]

theorem strncpy_nothing (str source : List UInt8) : strncpy str source 0 = str := by
  simp [strncpy]

/-- The bytes are copied as far as the cleared buffer has a string, which is nowhere. -/
theorem gather_loses (offset : Nat) (str : List UInt8) {len : Int} (positive : 0 < len) :
    stringIn (gatherString offset str len).1 = [] := by
  have cleared : stringIn (clear str len.toNat) = [] := clear_start str (by omega)
  rw [gatherString, cleared, List.length_nil, strncpy_nothing, cleared]

theorem layoutRoundTrip_iff (offset : Nat) (ndebug : Bool) (buffer : List UInt8) :
    LayoutRoundTrip (spreadString offset ndebug) (gatherString offset) buffer ↔
      ndebug = true ∧ stringIn buffer = [] := by
  unfold LayoutRoundTrip
  have fails : ¬ ((stringIn buffer).length : Int) * 2 < (stringIn buffer).length := by omega
  cases ndebug with
  | false => simp [spreadString, fails]
  | true =>
    simp only [spreadString, true_or, if_true, Option.some.injEq, Prod.mk.injEq, true_and]
    constructor
    · rintro ⟨str, n, ⟨rfl, rfl⟩, same, _⟩
      by_contra nonempty
      have length : 0 < (stringIn buffer).length := List.length_pos_of_ne_nil nonempty
      rw [gather_loses offset _ (by omega)] at same
      exact nonempty same.symm
    · intro empty
      have none : stringIn (clear buffer buffer.length) = [] := by
        cases buffer with
        | nil => rfl
        | cons b rest => exact clear_start _ (Nat.succ_pos _)
      refine ⟨_, _, ⟨rfl, rfl⟩, ?_⟩
      simp [empty, spreadLoop, gatherString, clear_nothing, none, strncpy_nothing]

theorem string_layouts (ndebug : Bool) (buffer : List UInt8) (str : Nat → UInt8) (len : Int) :
    (LayoutRoundTrip (neuDatatagStringTod ndebug) neuDatatagStringDtoh buffer ↔
      ndebug = true ∧ stringIn buffer = []) ∧
    (LayoutRoundTrip (neuDatatagStringToe ndebug) neuDatatagStringEtoh buffer ↔
      ndebug = true ∧ stringIn buffer = []) ∧
    (SwapsBack str len ↔ len ≤ 0 ∨ len % 2 = 0) :=
  ⟨layoutRoundTrip_iff 1 ndebug buffer, layoutRoundTrip_iff 0 ndebug buffer, swapsBack_iff str len⟩

def shortBuffer : List UInt8 := [97, 98, 0, 0, 0, 0, 0, 0]

/-- The assertion ends the program; without it the buffer is left empty; and 3 bytes are swapped with
a fourth. -/
theorem string_layouts_short : 2 * (stringIn shortBuffer).length < shortBuffer.length ∧
    neuDatatagStringTod false shortBuffer 2 8 = none ∧
    neuDatatagStringTod true shortBuffer 2 8 = some ([0, 97, 0, 98, 0, 0, 0, 0], 4) ∧
    neuDatatagStringDtoh [0, 97, 0, 98, 0, 0, 0, 0] 4 = ([0, 0, 0, 0, 0, 0, 0, 0], 2) ∧
    ¬ LayoutRoundTrip (neuDatatagStringTod false) neuDatatagStringDtoh shortBuffer ∧
    ¬ LayoutRoundTrip (neuDatatagStringToe false) neuDatatagStringEtoh shortBuffer ∧
    3 ∈ (neuDatatagStringHtol (fun _ => 0) 3).touched := by
  refine ⟨by decide, by decide, by decide, by decide, ?_, ?_, ?_⟩
  · rintro ⟨str, n, spread, _⟩
    cases spread
  · rintro ⟨str, n, spread, _⟩
    cases spread
  · exact (htolLoop_touched 3 0 (fun _ => 0) rfl 3).2 (by decide)

end Cpm
