import Mathlib.Data.Nat.Bitwise
import Mathlib.Tactic.Common

/-! Bytes written as characters of six bits each, three bytes at a time, in any order of the
bytes. -/
namespace Lib.Sextets

variable {α : Type*} {table : ℕ → α}

def sextets (table : ℕ → α) : ℕ → ℕ → List α
  | 0, _ => []
  | n + 1, w => table (w &&& 63) :: sextets table n (w >>> 6)

def word (b2 b1 b0 : UInt8) : ℕ := (b2.toNat <<< 16) ||| (b1.toNat <<< 8) ||| b0.toNat

@[simp] theorem length_sextets (table : ℕ → α) (n w : ℕ) : (sextets table n w).length = n := by
  induction n generalizing w with
  | zero => rfl
  | succ n ih => rw [sextets, List.length_cons, ih]

def Distinct (table : ℕ → α) : Prop := ∀ i < 64, ∀ j < 64, table i = table j → i = j

theorem sextets_injective (distinct : Distinct table) {n w v : ℕ} (wide : w < 64 ^ n)
    (wide' : v < 64 ^ n) (same : sextets table n w = sextets table n v) : w = v := by
  induction n generalizing w v with
  | zero =>
    rw [pow_zero] at wide wide'
    omega
  | succ n ih =>
    obtain ⟨first, rest⟩ := List.cons.inj same
    rw [Nat.and_two_pow_sub_one_eq_mod w 6, Nat.and_two_pow_sub_one_eq_mod v 6] at first
    have low : w % 64 = v % 64 :=
      distinct _ (Nat.mod_lt _ (by decide)) _ (Nat.mod_lt _ (by decide)) first
    rw [Nat.shiftRight_eq_div_pow, Nat.shiftRight_eq_div_pow] at rest
    rw [pow_succ] at wide wide'
    have high := ih (Nat.div_lt_of_lt_mul (by omega)) (Nat.div_lt_of_lt_mul (by omega)) rest
    omega

theorem word_eq (b2 b1 b0 : UInt8) :
    word b2 b1 b0 = b2.toNat * 65536 + b1.toNat * 256 + b0.toNat := by
  have small : b0.toNat < 2 ^ 8 := b0.toNat_lt
  have middle : b1.toNat <<< 8 ||| b0.toNat = b1.toNat * 256 + b0.toNat := by
    rw [← Nat.shiftLeft_add_eq_or_of_lt small, Nat.shiftLeft_eq]
  have lower : b1.toNat * 256 + b0.toNat < 2 ^ 16 := by
    have := b1.toNat_lt
    omega
  rw [word, Nat.or_assoc, middle, ← Nat.shiftLeft_add_eq_or_of_lt lower, Nat.shiftLeft_eq]
  omega

/-- The places of the three bytes, where there is one, and the number of characters. -/
structure Group where
  b2 : Option ℕ
  b1 : Option ℕ
  b0 : ℕ
  chars : ℕ

/-- The characters of a group hold all its bytes. -/
def Group.Fits (g : Group) : Prop :=
  g.chars = 4 ∨ (g.chars = 3 ∧ g.b2 = none) ∨ (g.chars = 2 ∧ g.b2 = none ∧ g.b1 = none)

instance (g : Group) : Decidable g.Fits := by unfold Group.Fits; infer_instance

def byteAt (buf : List UInt8) (place : Option ℕ) : UInt8 :=
  match place with
  | some i => buf.getD i 0
  | none => 0

def Group.word (g : Group) (buf : List UInt8) : ℕ :=
  Sextets.word (byteAt buf g.b2) (byteAt buf g.b1) (byteAt buf (some g.b0))

def encode (table : ℕ → α) (groups : List Group) (buf : List UInt8) : List α :=
  groups.flatMap fun g => sextets table g.chars (g.word buf)

def Group.places (g : Group) : List ℕ := g.b2.toList ++ g.b1.toList ++ [g.b0]

def Covers (groups : List Group) (size : ℕ) : Prop :=
  (∀ g ∈ groups, g.Fits) ∧ ∀ i < size, i ∈ groups.flatMap Group.places

instance (groups : List Group) (size : ℕ) : Decidable (Covers groups size) := by
  unfold Covers
  infer_instance

theorem length_encode (table : ℕ → α) (groups : List Group) (buf : List UInt8) :
    (encode table groups buf).length = (groups.map Group.chars).sum := by
  simp [encode, List.length_flatMap]

theorem Group.word_lt {g : Group} (fits : g.Fits) (buf : List UInt8) :
    g.word buf < 64 ^ g.chars := by
  have h2 := (byteAt buf g.b2).toNat_lt
  have h1 := (byteAt buf g.b1).toNat_lt
  have h0 := (byteAt buf (some g.b0)).toNat_lt
  rw [Group.word, word_eq]
  obtain four | ⟨three, no⟩ | ⟨two, no, no'⟩ := fits
  · rw [four]
    omega
  · have zero : (byteAt buf g.b2).toNat = 0 := by rw [no]; rfl
    rw [three]
    omega
  · have zero : (byteAt buf g.b2).toNat = 0 := by rw [no]; rfl
    have zero' : (byteAt buf g.b1).toNat = 0 := by rw [no']; rfl
    rw [two]
    omega

theorem flatMap_pieces {β : Type*} {f h : β → List α} {xs : List β}
    (lengths : ∀ x ∈ xs, (f x).length = (h x).length) (same : xs.flatMap f = xs.flatMap h) :
    ∀ x ∈ xs, f x = h x := by
  induction xs with
  | nil => exact fun x member => by cases member
  | cons x xs ih =>
    obtain ⟨one, others⟩ := List.forall_mem_cons.1 lengths
    rw [List.flatMap_cons, List.flatMap_cons] at same
    obtain ⟨first, rest⟩ := List.append_inj same one
    intro y member
    obtain rfl | inside := List.mem_cons.1 member
    · exact first
    · exact ih others rest y inside

theorem word_injective {a2 a1 a0 b2 b1 b0 : UInt8} (same : word a2 a1 a0 = word b2 b1 b0) :
    a2 = b2 ∧ a1 = b1 ∧ a0 = b0 := by
  rw [word_eq, word_eq] at same
  have ha1 := a1.toNat_lt
  have ha0 := a0.toNat_lt
  have hb1 := b1.toNat_lt
  have hb0 := b0.toNat_lt
  refine ⟨UInt8.toNat_inj.1 ?_, UInt8.toNat_inj.1 ?_, UInt8.toNat_inj.1 ?_⟩ <;> omega

theorem encode_injective (distinct : Distinct table) {groups : List Group} {size : ℕ}
    (covers : Covers groups size) {a b : List UInt8} (whole : a.length = size)
    (whole' : b.length = size) (same : encode table groups a = encode table groups b) : a = b := by
  have words : ∀ g ∈ groups, g.word a = g.word b := by
    intro g member
    have pieces := flatMap_pieces (fun g _ => by simp) same g member
    exact sextets_injective distinct (Group.word_lt (covers.1 g member) a)
      (Group.word_lt (covers.1 g member) b) pieces
  apply List.ext_getElem (whole.trans whole'.symm)
  intro i inside inside'
  obtain ⟨g, member, place⟩ := List.mem_flatMap.1 (covers.2 i (whole ▸ inside))
  obtain ⟨e2, e1, e0⟩ := word_injective (words g member)
  have at_place : byteAt a (some i) = byteAt b (some i) := by
    simp only [Group.places, List.mem_append, Option.mem_toList, List.mem_singleton] at place
    obtain (h2 | h1) | rfl := place
    · rwa [h2] at e2
    · rwa [h1] at e1
    · exact e0
  simpa [byteAt, List.getD_eq_getElem?_getD, inside, inside'] using at_place

end Lib.Sextets
