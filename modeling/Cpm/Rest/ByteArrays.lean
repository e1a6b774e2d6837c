import Cpm.Base.TypeErrors
import Cpm.Rest.TagJson

/-! The copy of a JSON array into bytes, write by write. The buffer has as many bytes as the length
field holds, the loop goes through the whole array. -/
namespace Cpm

open Lib

def byteOf (value : Json) : UInt8 := .ofNat (jsonIntegerValue (some value) % 2 ^ 8).toNat

def copyLoop (index : Nat) : List Json → List (Nat × UInt8)
  | [] => []
  | value :: rest => (index, byteOf value) :: copyLoop (index + 1) rest

def storedLength (items : List Json) : Nat := items.length % 256

def bytesWritten (items : List Json) : List (Nat × UInt8) :=
  if 0 < storedLength items then copyLoop 0 items else []

def filled (size : Nat) (writes : List (Nat × UInt8)) : List UInt8 :=
  writes.foldl (fun buffer write => buffer.set write.1 write.2) (List.replicate size 0)

def Representable (items : List Json) : Prop :=
  items.length ≤ 255 ∧ ∀ item ∈ items, ∃ b : UInt8, item = .integer b.toNat

/-- What is decoded is the array, nothing is written behind the buffer, and an array that bytes
cannot stand for is refused. -/
def BytesExact (casts : CastOps) (root : Json) (elem : NeuJsonElem) (items : List Json) : Prop :=
  (∀ values : List UInt8, decodeObject casts root elem = .ok (some (.bytes values)) →
    values.length = items.length ∧
      ∀ (i : Nat) (b : UInt8), values[i]? = some b → items[i]? = some (Json.integer b.toNat)) ∧
  (∀ write ∈ bytesWritten items, write.1 < storedLength items) ∧
  (¬ Representable items → decodeObject casts root elem = .error .failed)

theorem mem_copyLoop {write : Nat × UInt8} {index : Nat} {items : List Json} :
    write ∈ copyLoop index items → index ≤ write.1 ∧ write.1 < index + items.length := by
  induction items generalizing index with
  | nil => exact fun inside => by cases inside
  | cons item rest ih =>
    intro inside
    rcases List.mem_cons.1 inside with here | later
    · subst here
      exact ⟨Nat.le_refl _, by simp⟩
    · obtain ⟨above, below⟩ := ih later
      rw [List.length_cons]
      exact ⟨by omega, by omega⟩

theorem copyLoop_last (index : Nat) {items : List Json} (some : items ≠ []) :
    ∃ write ∈ copyLoop index items, write.1 + 1 = index + items.length := by
  induction items generalizing index with
  | nil => exact absurd rfl some
  | cons item rest ih =>
    cases rest with
    | nil => exact ⟨_, List.mem_cons_self, rfl⟩
    | cons next rest =>
      obtain ⟨write, inside, last⟩ := ih (index + 1) (List.cons_ne_nil next rest)
      refine ⟨write, List.mem_cons_of_mem _ inside, ?_⟩
      rw [last, show (item :: next :: rest).length = (next :: rest).length + 1 from rfl]
      omega

/-- The loop fills the buffer behind what it has already filled. -/
theorem filled_copyLoop (front : List UInt8) (items : List Json) :
    (copyLoop front.length items).foldl (fun buffer write => buffer.set write.1 write.2)
        (front ++ List.replicate items.length 0) = front ++ items.map byteOf := by
  induction items generalizing front with
  | nil => rfl
  | cons item rest ih =>
    have next := ih (front ++ [byteOf item])
    rw [List.length_append, List.length_singleton] at next
    rw [copyLoop, List.foldl_cons, List.length_cons, List.replicate_succ,
      List.set_append_right _ _ (Nat.le_refl _), Nat.sub_self, List.set_cons_zero, List.map_cons]
    simpa using next

theorem decodeBytes_buffer (items : List Json) : decodeBytes items =
    if ∀ write ∈ bytesWritten items, write.1 < storedLength items then
      .ok (.bytes (filled (storedLength items) (bytesWritten items)))
    else .error .crashed := by
  unfold decodeBytes bytesWritten storedLength
  by_cases empty : items.length % 256 = 0
  · simp [empty, filled]
  have positive : 0 < items.length % 256 := Nat.pos_of_ne_zero empty
  simp only [if_neg empty, if_pos positive]
  by_cases long : items.length % 256 < items.length
  · have some : items ≠ [] := List.ne_nil_of_length_pos (by omega)
    obtain ⟨write, inside, last⟩ := copyLoop_last 0 some
    have outside : ¬ ∀ write ∈ copyLoop 0 items, write.1 < items.length % 256 := by
      intro all
      have below := all write inside
      omega
    rw [if_pos long, if_neg outside]
  · have whole : items.length % 256 = items.length := by omega
    have within : ∀ write ∈ copyLoop 0 items, write.1 < items.length % 256 := by
      intro write inside
      have below := (mem_copyLoop inside).2
      omega
    have bytes : filled (items.length % 256) (copyLoop 0 items) = items.map byteOf := by
      rw [whole]
      exact filled_copyLoop [] items
    rw [if_neg long, if_pos within, bytes]
    rfl

theorem decodeBytes_encoded {values : List UInt8} (short : values.length < 256) :
    decodeBytes (values.map fun b => .integer b.toNat) = .ok (.bytes values) := by
  have length : values.length % 256 = values.length := Nat.mod_eq_of_lt short
  have back : (values.map fun b => Json.integer b.toNat).map
      (fun item => UInt8.ofNat (jsonIntegerValue (some item) % 2 ^ 8).toNat) = values := by
    rw [List.map_map]
    conv_rhs => rw [← List.map_id values]
    apply List.map_congr_left
    intro b _
    have byte := b.toNat_lt
    have whole : ((b.toNat : Int) % 2 ^ 8).toNat = b.toNat := by omega
    simp only [Function.comp_apply, jsonIntegerValue, whole, UInt8.ofNat_toNat, id_eq]
  unfold decodeBytes
  simp only [List.length_map, length]
  split
  · next none =>
    rw [List.eq_nil_of_length_eq_zero none]
  · rw [if_neg (Nat.lt_irrefl _), back]

theorem representable_values {items : List Json} (fit : Representable items) :
    ∃ values : List UInt8, values.length < 256 ∧ items = values.map fun b => .integer b.toNat := by
  obtain ⟨short, bytes⟩ := fit
  have all : ∃ values : List UInt8, items = values.map fun b => .integer b.toNat := by
    clear short
    induction items with
    | nil => exact ⟨[], rfl⟩
    | cons item rest ih =>
      obtain ⟨⟨b, here⟩, further⟩ := List.forall_mem_cons.1 bytes
      obtain ⟨values, others⟩ := ih further
      exact ⟨b :: values, by rw [here, others, List.map_cons]⟩
  obtain ⟨values, rfl⟩ := all
  exact ⟨values, by simpa [Nat.lt_succ_iff] using short, rfl⟩

theorem decodeObject_array (casts : CastOps) {root : Json} {elem : NeuJsonElem} {items : List Json}
    (present : elemJson root elem.name = some (.array items))
    (typed : elem.type = .bytes ∨ elem.type = .undefine) :
    decodeObject casts root elem = (decodeBytes items).map some := by
  have type : resolved elem.type (.array items) = .bytes := by
    rcases typed with typed | typed <;> rw [typed] <;> rfl
  rw [decodeObject, present]
  simp only [type]
  rfl

theorem byte_arrays (casts : CastOps) {root : Json} {elem : NeuJsonElem} {items : List Json}
    (present : elemJson root elem.name = some (.array items))
    (typed : elem.type = .bytes ∨ elem.type = .undefine) :
    BytesExact casts root elem items ↔ Representable items := by
  have ran := decodeObject_array casts present typed
  unfold BytesExact
  rw [ran]
  constructor
  · rintro ⟨_, _, rejects⟩
    by_contra unfit
    have failed := rejects unfit
    obtain ⟨⟨values, decoded⟩, _⟩ | ⟨crashed, _⟩ := decodeBytes_cases items
    · rw [decoded] at failed
      cases failed
    · rw [crashed] at failed
      cases failed
  · intro fit
    obtain ⟨values, short, rfl⟩ := representable_values fit
    have decoded := decodeBytes_encoded short
    have buffered := decodeBytes_buffer (values.map fun b => .integer b.toNat)
    refine ⟨fun values' same => ?_, fun write inside => ?_, fun unfit => absurd fit unfit⟩
    · rw [decoded] at same
      cases same
      refine ⟨(List.length_map ..).symm, fun i b here => ?_⟩
      rw [List.getElem?_map, here, Option.map_some]
    · split at buffered
      · next within => exact within write inside
      · cases decoded.symm.trans buffered

theorem byte_arrays_two : BytesExact noCasts (.array [.integer 1, .integer 255])
    ⟨none, .undefine, false⟩ [.integer 1, .integer 255] ↔ Representable [.integer 1, .integer 255] :=
  byte_arrays noCasts rfl (.inr rfl)

def sevens (n : Nat) : List Json := List.replicate n (.integer 7)

theorem sevens_length (n : Nat) : (sevens n).length = n := List.length_replicate

/-- 256 numbers leave no bytes at all, and 257 are written into a buffer of one. -/
theorem byte_arrays_wrap : decodeBytes (sevens 256) = .ok (.bytes []) ∧
    (storedLength (sevens 257) = 1 ∧ ∃ write ∈ bytesWritten (sevens 257), write.1 = 256) ∧
    ¬ BytesExact noCasts (.array (sevens 256)) ⟨none, .bytes, false⟩ (sevens 256) := by
  have empty : decodeBytes (sevens 256) = .ok (.bytes []) := by
    rw [decodeBytes, sevens_length]
    rfl
  have one : storedLength (sevens 257) = 1 := by rw [storedLength, sevens_length]
  refine ⟨empty, ⟨one, ?_⟩, fun exact => ?_⟩
  · have some : sevens 257 ≠ [] := List.ne_nil_of_length_pos (by rw [sevens_length]; decide)
    obtain ⟨write, inside, last⟩ := copyLoop_last 0 some
    rw [sevens_length] at last
    refine ⟨write, ?_, by omega⟩
    rw [bytesWritten, one, if_pos Nat.one_pos]
    exact inside
  · have here : elemJson (.array (sevens 256)) none = some (.array (sevens 256)) := rfl
    have ran : decodeObject noCasts (.array (sevens 256)) ⟨none, .bytes, false⟩ =
        .ok (some (.bytes [])) := by
      rw [decodeObject_array noCasts here (.inl rfl), empty]
      rfl
    have same := (exact.1 [] ran).1
    rw [sevens_length] at same
    cases same

end Cpm
