import Mathlib.Data.Nat.Digits.Lemmas
import Mathlib.Data.List.OfFn
import Mathlib.Data.Fintype.Pi

/-! Blocks of bytes with overlapping fields, as a C union has them, and little-endian numbers. -/
namespace Lib

/-- A memory block of fixed size. -/
abbrev Block (size : Nat) := Fin size → UInt8

namespace Block

variable {size len : Nat}

def zero : Block size := fun _ => 0

/-- The byte at an offset; past the end there is none to read. -/
def byte (b : Block size) (i : Nat) : UInt8 := if h : i < size then b ⟨i, h⟩ else 0

def window (b : Block size) (offset len : Nat) : Block len := fun i => b.byte (offset + i)

def overlay (b : Block size) (offset : Nat) (field : Block len) : Block size := fun i =>
  if offset ≤ i then (if h : i - offset < len then field ⟨i - offset, h⟩ else b i) else b i

def reverse (b : Block size) : Block size := fun i => b i.rev

/-- The bytes of a field in the opposite order. -/
def swapAt (b : Block size) (offset len : Nat) : Block size :=
  b.overlay offset (b.window offset len).reverse

def toList (b : Block size) : List UInt8 := List.ofFn b

def ofList (size : Nat) (bytes : List UInt8) : Block size := fun i => bytes[i]?.getD 0

@[simp] theorem byte_lt (b : Block size) {i : Nat} (h : i < size) : b.byte i = b ⟨i, h⟩ := by
  simp [byte, h]

theorem byte_window (b : Block size) (offset : Nat) {i : Nat} (inside : i < len) :
    (b.window offset len).byte i = b.byte (offset + i) := by
  rw [byte_lt _ inside, window]

theorem window_window (b : Block size) {offset inner n : Nat} (fits : inner + n ≤ len) :
    (b.window offset len).window inner n = b.window (offset + inner) n := by
  funext i
  have inside : inner + i.val < len := by omega
  rw [window, byte_window b offset inside, window, Nat.add_assoc]

theorem window_join {b c : Block size} {offset m n : Nat}
    (front : b.window offset m = c.window offset m)
    (back : b.window (offset + m) n = c.window (offset + m) n) :
    b.window offset (m + n) = c.window offset (m + n) := by
  funext i
  by_cases low : i.val < m
  · exact congrFun front ⟨i, low⟩
  · have high := congrFun back ⟨i - m, by omega⟩
    have place : offset + m + (i.val - m) = offset + i.val := by omega
    simp only [window, place] at high
    exact high

theorem byte_overlay (b : Block size) (offset : Nat) (field : Block len) {i : Nat}
    (inside : i < size) : (b.overlay offset field).byte i =
      if offset ≤ i ∧ i < offset + len then field.byte (i - offset) else b.byte i := by
  rw [byte_lt _ inside, byte_lt b inside, overlay]
  by_cases low : offset ≤ i
  · by_cases high : i - offset < len
    · rw [if_pos (by simpa using low), dif_pos (by simpa using high),
        if_pos ⟨low, by omega⟩, byte_lt field high]
    · rw [if_pos (by simpa using low), dif_neg (by simpa using high), if_neg (by omega)]
  · rw [if_neg (by simpa using low), if_neg (by omega)]

theorem window_overlay (b : Block size) {offset : Nat} (field : Block len)
    (fits : offset + len ≤ size) : (b.overlay offset field).window offset len = field := by
  funext i
  have inside : offset + i < size := by omega
  rw [window, byte_overlay b offset field inside, if_pos (by omega), Nat.add_sub_cancel_left,
    byte_lt field i.isLt]

theorem overlay_window (b : Block size) (offset : Nat) :
    b.overlay offset (b.window offset len) = b := by
  funext i
  simp only [overlay, window]
  split
  · next low =>
    split
    · have place : offset + (i.val - offset) = i.val := by omega
      rw [place, byte_lt b i.isLt]
    · rfl
  · rfl

/-- A field that does not overlap the written one keeps its bytes. -/
theorem window_overlay_apart (b : Block size) {offset other n : Nat} (field : Block len)
    (fits : other + n ≤ size) (apart : other + n ≤ offset ∨ offset + len ≤ other) :
    (b.overlay offset field).window other n = b.window other n := by
  funext i
  have inside : other + i < size := by omega
  rw [window, byte_overlay b offset field inside, if_neg (by omega), window]

theorem overlay_overlay (b : Block size) (offset : Nat) (field field' : Block len) :
    (b.overlay offset field).overlay offset field' = b.overlay offset field' := by
  funext i
  simp only [overlay]
  split
  · split <;> rfl
  · rfl

theorem overlay_comm (b : Block size) {offset other n : Nat} (field : Block len) (field' : Block n)
    (apart : offset + len ≤ other ∨ other + n ≤ offset) :
    (b.overlay offset field).overlay other field' =
      (b.overlay other field').overlay offset field := by
  funext i
  rw [← byte_lt ((b.overlay offset field).overlay other field') i.isLt,
    ← byte_lt ((b.overlay other field').overlay offset field) i.isLt,
    byte_overlay _ _ _ i.isLt, byte_overlay _ _ _ i.isLt,
    byte_overlay _ _ _ i.isLt, byte_overlay _ _ _ i.isLt]
  by_cases here : offset ≤ i.val ∧ i.val < offset + len
  · have away : ¬ (other ≤ i.val ∧ i.val < other + n) := by omega
    rw [if_pos here, if_neg away, if_pos here]
  · rw [if_neg here, if_neg here]

theorem ext_byte {b c : Block size} (same : ∀ i, i < size → b.byte i = c.byte i) : b = c := by
  funext i
  rw [← byte_lt b i.isLt, ← byte_lt c i.isLt]
  exact same i.val i.isLt

theorem byte_swapAt (b : Block size) {offset len i : Nat} (inside : i < size) :
    (b.swapAt offset len).byte i =
      if offset ≤ i ∧ i < offset + len then b.byte (offset + (offset + len - 1 - i)) else b.byte i := by
  rw [swapAt, byte_overlay b offset _ inside]
  split
  · next within =>
    have place : i - offset < len := by omega
    rw [byte_lt _ place, reverse, window]
    simp only [Fin.val_rev]
    congr 1
    omega
  · rfl

theorem swapAt_swapAt (b : Block size) {offset len : Nat} (fits : offset + len ≤ size) :
    (b.swapAt offset len).swapAt offset len = b := by
  refine ext_byte fun i inside => ?_
  rw [byte_swapAt _ inside]
  split
  · next within =>
    rw [byte_swapAt _ (by omega), if_pos (by omega)]
    congr 1
    omega
  · next outside => rw [byte_swapAt _ inside, if_neg outside]

theorem window_eq_iff {b c : Block size} {n : Nat} :
    b.window 0 n = c.window 0 n ↔ ∀ i, i < n → b.byte i = c.byte i := by
  constructor
  · intro same i inside
    have here := congrFun same ⟨i, inside⟩
    simpa only [window, Nat.zero_add] using here
  · intro same
    funext i
    simpa only [window, Nat.zero_add] using same i.val i.isLt

/-- A swap within the front acts on the front alone. -/
theorem swapAt_window {b c : Block size} {offset len n : Nat} (fits : offset + len ≤ n)
    (short : n ≤ size) (same : b.window 0 n = c.window 0 n) :
    (b.swapAt offset len).window 0 n = (c.swapAt offset len).window 0 n := by
  rw [window_eq_iff] at same ⊢
  intro i inside
  rw [byte_swapAt b (by omega), byte_swapAt c (by omega)]
  split
  · exact same _ (by omega)
  · exact same i inside

def leValue (b : Block len) : Nat := Nat.ofDigits 256 (b.toList.map UInt8.toNat)

theorem leValue_lt (b : Block len) : b.leValue < 256 ^ len := by
  have digits : ∀ d ∈ b.toList.map UInt8.toNat, d < 256 := by
    intro d member
    obtain ⟨byte, _, rfl⟩ := List.mem_map.1 member
    exact byte.toNat_lt
  have small := Nat.ofDigits_lt_base_pow_length (by decide) digits
  rwa [List.length_map, toList, List.length_ofFn] at small

theorem leValue_injective {b c : Block len} (same : b.leValue = c.leValue) : b = c := by
  have digits (b : Block len) : ∀ d ∈ b.toList.map UInt8.toNat, d < 256 := by
    intro d member
    obtain ⟨byte, _, rfl⟩ := List.mem_map.1 member
    exact byte.toNat_lt
  have lengths : (b.toList.map UInt8.toNat).length = (c.toList.map UInt8.toNat).length := by
    simp [toList]
  have bytes := Nat.ofDigits_inj_of_len_eq (by decide) lengths (digits b) (digits c) same
  exact List.ofFn_injective (List.map_injective_iff.2 (fun _ _ => UInt8.toNat_inj.1) bytes)

def leBlock (len n : Nat) : Block len := fun i => .ofNat (n / 256 ^ i.val)

theorem leValue_leBlock (len n : Nat) : leValue (leBlock len n) = n % 256 ^ len := by
  induction len generalizing n with
  | zero => simp [leValue, toList, Nat.mod_one]
  | succ len ih =>
    have tail : (fun i : Fin len => leBlock (len + 1) n i.succ) = leBlock len (n / 256) := by
      funext i
      simp [leBlock, Nat.pow_succ', Nat.div_div_eq_div_mul]
    have head : (leBlock (len + 1) n 0).toNat = n % 256 := by simp [leBlock]
    have next := ih (n / 256)
    unfold leValue toList at next ⊢
    rw [List.ofFn_succ, List.map_cons, Nat.ofDigits_cons, tail, next, head, Nat.pow_succ',
      Nat.mod_mul]

theorem leBlock_leValue (b : Block len) : leBlock len b.leValue = b := by
  apply leValue_injective
  rw [leValue_leBlock, Nat.mod_eq_of_lt b.leValue_lt]

theorem leBlock_mod (len n : Nat) : leBlock len (n % 256 ^ len) = leBlock len n := by
  apply leValue_injective
  rw [leValue_leBlock, leValue_leBlock, Nat.mod_mod]

theorem byte_ofList {size i : Nat} (bytes : List UInt8) (inside : i < size) :
    (ofList size bytes).byte i = bytes[i]?.getD 0 := by
  rw [byte_lt _ inside, ofList]
  rfl

theorem ofList_window {size len : Nat} {bytes : List UInt8} (fits : len ≤ size)
    (short : bytes.length ≤ len) : ((ofList size bytes).window 0 len).toList =
      bytes ++ List.replicate (len - bytes.length) 0 := by
  apply List.ext_getElem
  · rw [toList, List.length_ofFn, List.length_append, List.length_replicate]
    omega
  · intro i inside _
    have room : i < len := by simpa [toList] using inside
    simp only [toList, List.getElem_ofFn, window, Nat.zero_add,
      byte_ofList bytes (room.trans_le fits)]
    by_cases early : i < bytes.length
    · simp [early]
    · have late : bytes.length ≤ i := by omega
      simp [late, List.getElem_append_right late]

end Block

end Lib
